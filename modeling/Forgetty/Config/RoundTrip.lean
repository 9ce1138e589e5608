import Forgetty.Config.ReadBack

/-! A configuration that has been read is written and read back as it was. -/

namespace Forgetty.ConfigFile

open Forgetty.Core (Reads)

/-! ### Colours and themes -/

/-- The entries of a table. -/
def Toml.entries : Toml → Entries
  | .table es => es
  | _ => []

theorem readsBack_rgba (c : Core.Rgba) : ReadsBack readRgba (rgbaToml c) c := by
  intro w hw
  obtain ⟨fs, rfl, hfs⟩ := of_toValue_table hw
  have hn : ((rgbaToml c).entries.map (·.1)).Nodup := by
    show ["r", "g", "b", "a"].Nodup
    decide
  have hr : Stores readU8 (some c.r) (rgbaToml c).entries "r" := ⟨c.r, rfl, readsBack_u8 c.r⟩
  have hg : Stores readU8 (some c.g) (rgbaToml c).entries "g" := ⟨c.g, rfl, readsBack_u8 c.g⟩
  have hb : Stores readU8 (some c.b) (rgbaToml c).entries "b" := ⟨c.b, rfl, readsBack_u8 c.b⟩
  have ha : Stores readU8 (some c.a) (rgbaToml c).entries "a" := ⟨c.a, rfl, readsBack_u8 c.a⟩
  have hread : readEntries rgbaChecks fs = .ok () := by
    apply readEntries_of_stored hfs hn
    simp only [rgbaChecks, List.forall_mem_cons]
    exact ⟨hr.stored, hg.stored, hb.stored, ha.stored, by simp⟩
  simp only [readRgba, hread, buildRgba, required_eq_of_stores hfs hn hr,
    required_eq_of_stores hfs hn hg, required_eq_of_stores hfs hn hb,
    required_eq_of_stores hfs hn ha]
  rfl

theorem readsBack_palette (p : Palette 16) :
    ReadsBack readPalette (.array (p.1.map rgbaToml)) p := by
  intro w hw
  obtain ⟨ws, rfl, hws⟩ := of_toValue_array hw
  have hlen : ws.length = 16 := by
    have h := congrArg List.length hws
    simpa [p.2] using h
  have hcolors : readAll readRgba (ws.take 16) = .ok p.1 := by
    rw [List.take_of_length_le hlen.le, readAll_map (fun c _ => readsBack_rgba c) hws]
    exact congrArg Except.ok (List.map_id _)
  simp only [readPalette, hcolors, bind, Except.bind, if_pos hlen, dif_pos p.2]

theorem readsBack_theme (theme : Theme) : ReadsBack readTheme (themeToml theme) theme := by
  have hn : ((themeToml theme).entries.map (·.1)).Nodup := by
    show ["ansi_colors", "foreground", "background", "cursor", "selection", "search_match",
      "search_current"].Nodup
    decide
  have hansi : Stores readPalette (some theme.ansiColors) (themeToml theme).entries "ansi_colors" :=
    ⟨_, rfl, readsBack_palette _⟩
  have hfg : Stores readRgba (some theme.foreground) (themeToml theme).entries "foreground" :=
    ⟨_, rfl, readsBack_rgba _⟩
  have hbg : Stores readRgba (some theme.background) (themeToml theme).entries "background" :=
    ⟨_, rfl, readsBack_rgba _⟩
  have hcursor : Stores readRgba (some theme.cursor) (themeToml theme).entries "cursor" :=
    ⟨_, rfl, readsBack_rgba _⟩
  have hsel : Stores readRgba (some theme.selection) (themeToml theme).entries "selection" :=
    ⟨_, rfl, readsBack_rgba _⟩
  have hmatch : Stores readRgba (some theme.searchMatch) (themeToml theme).entries "search_match" :=
    ⟨_, rfl, readsBack_rgba _⟩
  have hcurrent : Stores readRgba (some theme.searchCurrent) (themeToml theme).entries
      "search_current" := ⟨_, rfl, readsBack_rgba _⟩
  apply readsBack_table hn
  · simp only [themeChecks, List.forall_mem_cons]
    exact ⟨hansi.stored, hfg.stored, hbg.stored, hcursor.stored, hsel.stored, hmatch.stored,
      hcurrent.stored, by simp⟩
  · intro fs hfs
    simp only [buildTheme, withDefault_eq_of_stores hfs hn hansi, withDefault_eq_of_stores hfs hn hfg,
      withDefault_eq_of_stores hfs hn hbg, withDefault_eq_of_stores hfs hn hcursor,
      withDefault_eq_of_stores hfs hn hsel, withDefault_eq_of_stores hfs hn hmatch,
      withDefault_eq_of_stores hfs hn hcurrent]
    rfl

/-! ### Entries that may be left out -/

theorem lookup_cons_if (name k : String) (v : Toml) (es : Entries) :
    ((name, v) :: es).lookup k = if k = name then some v else es.lookup k := by
  rw [List.lookup_cons]
  by_cases hk : k = name
  · rw [if_pos hk, beq_iff_eq.mpr hk]
  · rw [if_neg hk, beq_eq_false_iff_ne.mpr hk]

theorem lookup_optionEntry (name k : String) (text : Option String) :
    (optionEntry name text).lookup k = if k = name then text.map Toml.string else none := by
  cases text with
  | none => simp [optionEntry]
  | some s => simp [optionEntry, lookup_cons_if]

theorem lookup_entryUnless (omitted : Bool) (name k : String) (v : Toml) :
    (entryUnless omitted name v).lookup k = if k = name ∧ omitted = false then some v else none := by
  cases omitted <;> simp [entryUnless, lookup_cons_if]

theorem keys_optionEntry (name : String) (text : Option String) :
    ((optionEntry name text).map (·.1)).Sublist [name] := by
  cases text <;> simp [optionEntry]

theorem keys_entryUnless (omitted : Bool) (name : String) (v : Toml) :
    ((entryUnless omitted name v).map (·.1)).Sublist [name] := by
  cases omitted <;> simp [entryUnless]

theorem stores_option {es : Entries} {name : String} {text : Option String}
    (h : es.lookup name = text.map Toml.string) : Stores readString text es name := by
  rw [Stores, h]
  cases text with
  | none => rfl
  | some s => exact ⟨s, rfl, readsBack_string s⟩

/-! ### Profiles and keybindings -/

theorem readsBack_profile (p : ProfileConfig) : ReadsBack readProfile (profileToml p) p := by
  have hn : ((profileToml p).entries.map (·.1)).Nodup := by
    have hsub : ((profileToml p).entries.map (·.1)).Sublist ["name", "command", "directory", "icon"] := by
      simp only [profileToml, Toml.entries, List.map_append]
      exact ((List.Sublist.refl ["name", "command"]).append (keys_optionEntry _ _)).append
        (keys_optionEntry _ _)
    exact List.Nodup.sublist hsub (by decide)
  have hname : Stores readString (some p.name) (profileToml p).entries "name" :=
    ⟨_, rfl, readsBack_string _⟩
  have hcommand : Stores readString (some p.command) (profileToml p).entries "command" :=
    ⟨_, rfl, readsBack_string _⟩
  have hdir : Stores readString p.directory (profileToml p).entries "directory" := by
    apply stores_option
    simp [profileToml, Toml.entries, lookup_cons_if, List.lookup_append, lookup_optionEntry]
  have hicon : Stores readString p.icon (profileToml p).entries "icon" := by
    apply stores_option
    simp [profileToml, Toml.entries, lookup_cons_if, List.lookup_append, lookup_optionEntry]
  apply readsBack_table hn
  · simp only [profileChecks, List.forall_mem_cons]
    exact ⟨hname.stored, hcommand.stored, hdir.stored, hicon.stored, by simp⟩
  · intro fs hfs
    simp only [buildProfile, required_eq_of_stores hfs hn hname, required_eq_of_stores hfs hn hcommand,
      field_eq_of_stores hfs hn hdir, field_eq_of_stores hfs hn hicon]
    rfl

/-- Texts with keys of their own are put one behind the other. -/
theorem readTexts_map {m : TextMap} {kvs : List (String × String)}
    (hn : (kvs.map (·.1)).Nodup) (hm : ∀ e ∈ m.entries, e.1 ∉ kvs.map (·.1)) :
    ∃ m', readTexts m (kvs.map fun e => (e.1, .string e.2)) = .ok m' ∧
      m'.entries = m.entries ++ kvs := by
  induction kvs generalizing m with
  | nil => exact ⟨m, rfl, (List.append_nil _).symm⟩
  | cons e kvs ih =>
    obtain ⟨k, s⟩ := e
    rw [List.map_cons, List.nodup_cons] at hn
    have hfresh : m.entries.filter (·.1 ≠ k) = m.entries := by
      rw [List.filter_eq_self]
      intro e he
      have := hm e he
      simp only [List.map_cons, List.mem_cons, not_or] at this
      simpa using this.1
    have hinsert : (m.insert k s).entries = m.entries ++ [(k, s)] := by
      show m.entries.filter (·.1 ≠ k) ++ [(k, s)] = _
      rw [hfresh]
    obtain ⟨m', hread, hentries⟩ := @ih (m.insert k s) hn.2 (by
      rw [hinsert]
      intro e he
      rcases List.mem_append.mp he with he | he
      · have := hm e he
        simp only [List.map_cons, List.mem_cons, not_or] at this
        exact this.2
      · rw [List.mem_singleton.mp he]
        exact hn.1)
    refine ⟨m', hread, ?_⟩
    rw [hentries, hinsert, List.append_assoc, List.singleton_append]

/-- The keybindings as they are written. -/
def textEntries (kvs : List (String × String)) : Entries := kvs.map fun e => (e.1, .string e.2)

/-- Other arrangements of texts are texts in another order. -/
theorem perm_of_sameEntries {fs : Entries} {kvs : List (String × String)}
    (h : SameEntries fs (textEntries kvs)) : ∃ kvs', fs = textEntries kvs' ∧ kvs'.Perm kvs := by
  have htexts (kvs : List (String × String)) : entriesOf (textEntries kvs) = textEntries kvs := by
    rw [entriesOf_eq_map, textEntries, List.map_map]
    rfl
  rw [SameEntries, htexts] at h
  have hall : ∀ e ∈ fs, ∃ s, e = (e.1, Toml.string s) := by
    intro e he
    have hmem : (e.1, e.2.toValue) ∈ textEntries kvs := by
      apply h.mem_iff.mp
      rw [entriesOf_eq_map]
      exact List.mem_map_of_mem (f := fun e => (e.1, e.2.toValue)) he
    obtain ⟨kv, -, heq⟩ := List.mem_map.mp hmem
    exact ⟨kv.2, Prod.ext rfl (eq_of_toValue_string (Prod.mk.inj heq).2.symm)⟩
  have hfs : ∃ kvs', fs = textEntries kvs' := by
    clear h
    induction fs with
    | nil => exact ⟨[], rfl⟩
    | cons e fs ih =>
      rw [List.forall_mem_cons] at hall
      obtain ⟨s, hs⟩ := hall.1
      obtain ⟨kvs', rfl⟩ := ih hall.2
      exact ⟨(e.1, s) :: kvs', congrArg (· :: textEntries kvs') hs⟩
  obtain ⟨kvs', rfl⟩ := hfs
  refine ⟨kvs', rfl, ?_⟩
  rw [htexts, textEntries, textEntries] at h
  refine (List.map_perm_map_iff ?_).mp h
  rintro ⟨k, s⟩ ⟨k', s'⟩ heq
  simpa using heq

theorem readTextMap_of_sameEntries {m : TextMap} {fs : Entries}
    (h : SameEntries fs (textEntries m.entries)) :
    ∃ m', readTextMap (.table fs) = .ok m' ∧ m'.entries.Perm m.entries := by
  obtain ⟨kvs', rfl, hperm⟩ := perm_of_sameEntries h
  have hn : (kvs'.map (·.1)).Nodup := (hperm.map _).nodup_iff.mpr m.nodup
  obtain ⟨m', hread, hentries⟩ := @readTexts_map .empty kvs' hn (fun e he => by cases he)
  refine ⟨m', hread, ?_⟩
  rw [hentries]
  exact hperm

/-! ### The configuration -/

/-- What every configuration that has been read is like. -/
structure Produced (t : Themes) (c : Config) : Prop where
  theme : ∀ name, c.themeName = some name →
    (loadThemeByName t name).map (·.getD Theme.default) = .ok c.theme
  scrollbackLines : c.scrollbackLines.toNat < 2 ^ 63
  pasteWarnSize : c.pasteWarnSize.toNat < 2 ^ 63
  profiles : ∀ p ∈ c.profiles, p.name ≠ "" ∧ p.command ≠ ""

theorem lt_of_readUsize {v : Toml} {n : UInt64} (h : readUsize v = .ok n) : n.toNat < 2 ^ 63 := by
  rw [readUsize] at h
  cases v with
  | integer m =>
    rw [readBelow] at h
    split_ifs at h with hm
    · cases h
      have hlt : m.toInt < 2 ^ 63 := Int64.toInt_lt m
      have hmod : (UInt64.ofNat m.toInt.toNat).toNat = m.toInt.toNat % 2 ^ 64 := UInt64.toNat_ofNat'
      omega
    · cases h
  | _ => cases h

theorem lt_of_withDefault {name : String} {d n : UInt64} (hd : d.toNat < 2 ^ 63) {es : Entries}
    (h : withDefault readUsize name d es = .ok n) : n.toNat < 2 ^ 63 := by
  cases hv : es.lookup name with
  | none =>
    simp only [withDefault, field, hv] at h
    cases h
    exact hd
  | some v =>
    cases hr : readUsize v with
    | error e =>
      simp only [withDefault, field, hv, hr] at h
      cases h
    | ok m =>
      simp only [withDefault, field, hv, hr] at h
      cases h
      exact lt_of_readUsize hr

theorem lt_of_buildRawConfig {es : Entries} {raw : RawConfig} (h : buildRawConfig es = .ok raw) :
    raw.scrollbackLines.toNat < 2 ^ 63 ∧ raw.pasteWarnSize.toNat < 2 ^ 63 := by
  rw [buildRawConfig] at h
  obtain ⟨fontFamily, -, h⟩ := ok_of_bind h
  obtain ⟨fontSize, -, h⟩ := ok_of_bind h
  obtain ⟨theme, -, h⟩ := ok_of_bind h
  obtain ⟨shell, -, h⟩ := ok_of_bind h
  obtain ⟨scrollbackLines, hscrollback, h⟩ := ok_of_bind h
  obtain ⟨cursorStyle, -, h⟩ := ok_of_bind h
  obtain ⟨bellMode, -, h⟩ := ok_of_bind h
  obtain ⟨notificationMode, -, h⟩ := ok_of_bind h
  obtain ⟨keybindings, -, h⟩ := ok_of_bind h
  obtain ⟨onLaunch, -, h⟩ := ok_of_bind h
  obtain ⟨profiles, -, h⟩ := ok_of_bind h
  obtain ⟨defaultProfile, -, h⟩ := ok_of_bind h
  obtain ⟨pasteWarnSize, hpaste, h⟩ := ok_of_bind h
  obtain ⟨pasteWarnNewline, -, h⟩ := ok_of_bind h
  obtain ⟨sessionTrashDays, -, h⟩ := ok_of_bind h
  obtain ⟨byteLogRingKb, -, h⟩ := ok_of_bind h
  obtain ⟨byteLogMaxMb, -, h⟩ := ok_of_bind h
  cases h
  exact ⟨lt_of_withDefault (by decide) hscrollback, lt_of_withDefault (by decide) hpaste⟩

theorem theme_of_resolveTheme {t : Themes} {v : Option Toml} {theme : Theme} {name : String}
    (h : resolveTheme t v = .ok (theme, some name)) :
    (loadThemeByName t name).map (·.getD Theme.default) = .ok theme := by
  unfold resolveTheme at h
  split at h
  · rename_i found
    cases hload : loadThemeByName t found with
    | error e =>
      rw [hload] at h
      cases h
    | ok o =>
      rw [hload] at h
      cases h
      rw [hload]
      rfl
  · rename_i entries
    cases hattempt : attempt (readTheme (.table entries)) with
    | error e =>
      rw [hattempt] at h
      cases h
    | ok o =>
      rw [hattempt] at h
      cases h
  · cases h

theorem produced_of_deserialize {t : Themes} {entries : Entries} {c : Config}
    (h : deserialize t entries = .ok c) : Produced t c := by
  rw [deserialize] at h
  obtain ⟨raw, hraw, h⟩ := ok_of_bind h
  obtain ⟨⟨theme, themeName⟩, htheme, h⟩ := ok_of_bind h
  obtain ⟨-, -, hbuild⟩ := ok_of_bind hraw
  obtain ⟨hscrollback, hpaste⟩ := lt_of_buildRawConfig hbuild
  cases h
  constructor
  · rintro name rfl
    exact theme_of_resolveTheme htheme
  · exact hscrollback
  · exact hpaste
  · intro p hp
    simpa using (List.mem_filter.mp hp).2

/-- The entries that are written, with the two numbers that have to fit. -/
def configEntries (c : Config) (scrollbackLines pasteWarnSize : Toml) : Entries :=
  [("font_family", .string c.fontFamily), ("font_size", .float c.fontSize.convert),
      ("theme", match c.themeName with
        | some name => .string name
        | none => themeToml c.theme)] ++
    optionEntry "shell" c.shell ++
    [("scrollback_lines", scrollbackLines), ("cursor_style", .string c.cursorStyle.rename),
      ("bell_mode", .string c.bellMode.rename),
      ("notification_mode", .string c.notificationMode.rename),
      ("on_launch", .string c.onLaunch.rename)] ++
    entryUnless c.keybindings.entries.isEmpty "keybindings" (.table (textEntries c.keybindings.entries)) ++
    entryUnless c.profiles.isEmpty "profiles" (.array (c.profiles.map profileToml)) ++
    optionEntry "default_profile" c.defaultProfile ++
    [("paste_warn_size", pasteWarnSize), ("paste_warn_newline", .boolean c.pasteWarnNewline)] ++
    entryUnless (c.sessionTrashDays == 7) "session_trash_days" (u32Toml c.sessionTrashDays) ++
    entryUnless (c.byteLogRingKb == 1024) "byte_log_ring_kb" (u32Toml c.byteLogRingKb) ++
    entryUnless (c.byteLogMaxMb == 10) "byte_log_max_mb" (u32Toml c.byteLogMaxMb)

theorem serialize_eq {c : Config} {scrollbackLines pasteWarnSize : Toml}
    (hs : usizeToml c.scrollbackLines = some scrollbackLines)
    (hp : usizeToml c.pasteWarnSize = some pasteWarnSize) :
    serialize c = some (configEntries c scrollbackLines pasteWarnSize) := by
  rw [serialize, hs, hp]
  rfl

theorem nodup_configEntries (c : Config) (scrollbackLines pasteWarnSize : Toml) :
    ((configEntries c scrollbackLines pasteWarnSize).map (·.1)).Nodup := by
  have hsub : ((configEntries c scrollbackLines pasteWarnSize).map (·.1)).Sublist
      (["font_family", "font_size", "theme"] ++ ["shell"] ++ ["scrollback_lines", "cursor_style",
        "bell_mode", "notification_mode", "on_launch"] ++ ["keybindings"] ++ ["profiles"] ++
        ["default_profile"] ++ ["paste_warn_size", "paste_warn_newline"] ++ ["session_trash_days"] ++
        ["byte_log_ring_kb"] ++ ["byte_log_max_mb"]) := by
    simp only [configEntries, List.map_append]
    iterate 3 refine List.Sublist.append ?_ (keys_entryUnless _ _ _)
    refine List.Sublist.append ?_ (.refl _)
    refine List.Sublist.append ?_ (keys_optionEntry _ _)
    iterate 2 refine List.Sublist.append ?_ (keys_entryUnless _ _ _)
    refine List.Sublist.append ?_ (.refl _)
    exact List.Sublist.append (.refl _) (keys_optionEntry _ _)
  exact List.Nodup.sublist hsub (by decide)

theorem stores_some {α : Type} {read : Toml → Reads α} {es : Entries} {name : String} {v : Toml}
    {a : α} (h : es.lookup name = some v) (hread : ReadsBack read v a) :
    Stores read (some a) es name := by
  rw [Stores, h]
  exact ⟨a, rfl, hread⟩

theorem stores_unless {α : Type} {read : Toml → Reads α} {es : Entries} {name : String} {v : Toml}
    {a : α} {omitted : Bool} (h : es.lookup name = if omitted = false then some v else none)
    (hread : ReadsBack read v a) : Stores read (if omitted then none else some a) es name := by
  cases omitted with
  | false => exact stores_some h hread
  | true =>
    rw [Stores, h]
    rfl

/-- The keybindings are there in some order, or there are none. -/
theorem keybindings_read {c : Config} {s p : Toml} {fs : Entries}
    (h : SameEntries fs (configEntries c s p)) :
    ∃ m, withDefault readTextMap "keybindings" .empty fs = .ok m ∧
      m.entries.Perm c.keybindings.entries := by
  have hlookup := h.lookup (nodup_configEntries c s p) "keybindings"
  have hes : (configEntries c s p).lookup "keybindings" =
      if c.keybindings.entries.isEmpty = false then some (.table (textEntries c.keybindings.entries))
      else none := by
    simp [configEntries, lookup_cons_if, List.lookup_append, lookup_optionEntry, lookup_entryUnless]
  rw [hes] at hlookup
  split_ifs at hlookup with hempty
  · obtain ⟨w, hw, hsame⟩ := Option.map_eq_some_iff.mp hlookup
    obtain ⟨gs, rfl, hgs⟩ := of_toValue_table hsame
    obtain ⟨m, hread, hperm⟩ := readTextMap_of_sameEntries hgs
    refine ⟨m, ?_, hperm⟩
    simp only [withDefault, field, hw, hread]
    rfl
  · have hnil : c.keybindings.entries = [] := by simpa using hempty
    refine ⟨.empty, ?_, ?_⟩
    · simp only [withDefault, field, Option.map_eq_none_iff.mp hlookup]
      rfl
    · rw [hnil]
      exact List.Perm.nil

theorem stored_keybindings (c : Config) (s p : Toml) :
    Stored (configEntries c s p) ("keybindings", check readTextMap) := by
  intro v hv w hw
  have hes : (configEntries c s p).lookup "keybindings" =
      if c.keybindings.entries.isEmpty = false then some (.table (textEntries c.keybindings.entries))
      else none := by
    simp [configEntries, lookup_cons_if, List.lookup_append, lookup_optionEntry, lookup_entryUnless]
  rw [hes] at hv
  split_ifs at hv
  obtain rfl := Option.some.inj hv
  obtain ⟨gs, rfl, hgs⟩ := of_toValue_table hw
  obtain ⟨m, hread, -⟩ := readTextMap_of_sameEntries hgs
  show check readTextMap _ = _
  rw [check, hread]
  rfl

/-- The value under which the theme is stored. -/
def themeValue (c : Config) : Toml :=
  match c.themeName with
  | some name => .string name
  | none => themeToml c.theme

theorem resolveTheme_themeValue {t : Themes} {c : Config} (h : Produced t c) :
    resolveTheme t (some (themeValue c).toValue) = .ok (c.theme, c.themeName) := by
  rw [themeValue]
  cases hname : c.themeName with
  | some name =>
    have htheme := h.theme name hname
    show (loadThemeByName t name).map _ = _
    cases hload : loadThemeByName t name with
    | error e =>
      rw [hload] at htheme
      cases htheme
    | ok o =>
      rw [hload] at htheme
      exact congrArg (fun r : Reads Theme => r.map (·, some name)) htheme
  | none =>
    have hread := readsBack_theme c.theme _ (toValue_toValue (themeToml c.theme))
    show (attempt (readTheme (themeToml c.theme).toValue)).map _ = _
    rw [hread]
    rfl

theorem onLaunchOf_rename (o : OnLaunch) : onLaunchOf (some o.rename) = o := by
  cases o <;> rfl

theorem lookup_cursorStyle (s : CursorStyle) : CursorStyle.variants.lookup s.rename = some s := by
  cases s <;> rfl

theorem lookup_bellMode (m : BellMode) : BellMode.variants.lookup m.rename = some m := by
  cases m <;> rfl

theorem lookup_notificationMode (m : NotificationMode) :
    NotificationMode.variants.lookup m.rename = some m := by
  cases m <;> rfl

/-- The same settings. The keybindings have no order. -/
def Config.Equal (c c' : Config) : Prop :=
  { c' with keybindings := c.keybindings } = c ∧ c'.keybindings.entries.Perm c.keybindings.entries

/-- Each setting is there under its name, or is left out as its default. -/
structure Written (c : Config) (s p : Toml) (es : Entries) : Prop where
  fontFamily : Stores readString (some c.fontFamily) es "font_family"
  fontSize : Stores readF32 (some c.fontSize) es "font_size"
  theme : Stores readValue (some (themeValue c).toValue) es "theme"
  shell : Stores readString c.shell es "shell"
  scrollbackLines : Stores readUsize (some c.scrollbackLines) es "scrollback_lines"
  cursorStyle : Stores (readEnum CursorStyle.variants) (some c.cursorStyle) es "cursor_style"
  bellMode : Stores (readEnum BellMode.variants) (some c.bellMode) es "bell_mode"
  notificationMode :
    Stores (readEnum NotificationMode.variants) (some c.notificationMode) es "notification_mode"
  onLaunch : Stores readString (some c.onLaunch.rename) es "on_launch"
  profiles : Stores (readArray readProfile) (if c.profiles.isEmpty then none else some c.profiles) es
    "profiles"
  defaultProfile : Stores readString c.defaultProfile es "default_profile"
  pasteWarnSize : Stores readUsize (some c.pasteWarnSize) es "paste_warn_size"
  pasteWarnNewline : Stores readBool (some c.pasteWarnNewline) es "paste_warn_newline"
  sessionTrashDays : Stores readU32 (if c.sessionTrashDays == 7 then none
    else some c.sessionTrashDays) es "session_trash_days"
  byteLogRingKb : Stores readU32 (if c.byteLogRingKb == 1024 then none
    else some c.byteLogRingKb) es "byte_log_ring_kb"
  byteLogMaxMb : Stores readU32 (if c.byteLogMaxMb == 10 then none
    else some c.byteLogMaxMb) es "byte_log_max_mb"

theorem written_configEntries {c : Config} {s p : Toml} (hs : usizeToml c.scrollbackLines = some s)
    (hp : usizeToml c.pasteWarnSize = some p) : Written c s p (configEntries c s p) where
  fontFamily := stores_some rfl (readsBack_string _)
  fontSize := stores_some rfl (readsBack_f32 _)
  theme := stores_some rfl (readsBack_value _)
  shell := by
    apply stores_option
    simp [configEntries, lookup_cons_if, List.lookup_append, lookup_optionEntry, lookup_entryUnless]
  scrollbackLines := by
    apply stores_some _ (readsBack_usize hs)
    simp [configEntries, lookup_cons_if, List.lookup_append, lookup_optionEntry]
  cursorStyle := by
    apply stores_some _ (readsBack_variant (lookup_cursorStyle _))
    simp [configEntries, lookup_cons_if, List.lookup_append, lookup_optionEntry]
  bellMode := by
    apply stores_some _ (readsBack_variant (lookup_bellMode _))
    simp [configEntries, lookup_cons_if, List.lookup_append, lookup_optionEntry]
  notificationMode := by
    apply stores_some _ (readsBack_variant (lookup_notificationMode _))
    simp [configEntries, lookup_cons_if, List.lookup_append, lookup_optionEntry]
  onLaunch := by
    apply stores_some _ (readsBack_string _)
    simp [configEntries, lookup_cons_if, List.lookup_append, lookup_optionEntry]
  profiles := by
    apply stores_unless _ (readsBack_array fun p _ => readsBack_profile p)
    simp [configEntries, lookup_cons_if, List.lookup_append, lookup_optionEntry, lookup_entryUnless]
  defaultProfile := by
    apply stores_option
    simp [configEntries, lookup_cons_if, List.lookup_append, lookup_optionEntry, lookup_entryUnless]
  pasteWarnSize := by
    apply stores_some _ (readsBack_usize hp)
    simp [configEntries, lookup_cons_if, List.lookup_append, lookup_optionEntry, lookup_entryUnless]
  pasteWarnNewline := by
    apply stores_some _ (readsBack_bool _)
    simp [configEntries, lookup_cons_if, List.lookup_append, lookup_optionEntry, lookup_entryUnless]
  sessionTrashDays := by
    apply stores_unless _ (readsBack_u32 _)
    simp [configEntries, lookup_cons_if, List.lookup_append, lookup_optionEntry, lookup_entryUnless]
  byteLogRingKb := by
    apply stores_unless _ (readsBack_u32 _)
    simp [configEntries, lookup_cons_if, List.lookup_append, lookup_optionEntry, lookup_entryUnless]
  byteLogMaxMb := by
    apply stores_unless _ (readsBack_u32 _)
    simp [configEntries, lookup_cons_if, List.lookup_append, lookup_optionEntry, lookup_entryUnless]

theorem readEntries_of_written {c : Config} {s p : Toml} (hw : Written c s p (configEntries c s p))
    {fs : Entries} (h : SameEntries fs (configEntries c s p)) :
    readEntries rawConfigChecks fs = .ok () := by
  apply readEntries_of_stored h (nodup_configEntries c s p)
  simp only [rawConfigChecks, List.forall_mem_cons]
  exact ⟨hw.fontFamily.stored, hw.fontSize.stored, hw.theme.stored, hw.shell.stored,
    hw.scrollbackLines.stored, hw.cursorStyle.stored, hw.bellMode.stored,
    hw.notificationMode.stored, stored_keybindings c s p, hw.onLaunch.stored, hw.profiles.stored,
    hw.defaultProfile.stored, hw.pasteWarnSize.stored, hw.pasteWarnNewline.stored,
    hw.sessionTrashDays.stored, hw.byteLogRingKb.stored, hw.byteLogMaxMb.stored, by simp⟩

theorem getD_unless {α : Type} [BEq α] [LawfulBEq α] (a d : α) :
    (if a == d then none else some a).getD d = a := by
  by_cases h : a = d
  · rw [if_pos (beq_iff_eq.mpr h), h]
    rfl
  · rw [if_neg (by simpa using h)]
    rfl

theorem getD_unlessEmpty {α : Type} (as : List α) :
    (if as.isEmpty then none else some as).getD [] = as := by
  cases as <;> rfl

theorem buildRawConfig_of_written {c : Config} {s p : Toml}
    (hw : Written c s p (configEntries c s p)) {fs : Entries}
    (h : SameEntries fs (configEntries c s p)) {m : TextMap}
    (hm : withDefault readTextMap "keybindings" .empty fs = .ok m) :
    buildRawConfig fs = .ok
      { fontFamily := c.fontFamily
        fontSize := c.fontSize
        theme := some (themeValue c).toValue
        shell := c.shell
        scrollbackLines := c.scrollbackLines
        cursorStyle := c.cursorStyle
        bellMode := c.bellMode
        notificationMode := c.notificationMode
        keybindings := m
        onLaunch := some c.onLaunch.rename
        profiles := c.profiles
        defaultProfile := c.defaultProfile
        pasteWarnSize := c.pasteWarnSize
        pasteWarnNewline := c.pasteWarnNewline
        sessionTrashDays := c.sessionTrashDays
        byteLogRingKb := c.byteLogRingKb
        byteLogMaxMb := c.byteLogMaxMb } := by
  have hn := nodup_configEntries c s p
  simp only [buildRawConfig, hm, withDefault_eq_of_stores h hn hw.fontFamily,
    withDefault_eq_of_stores h hn hw.fontSize, field_eq_of_stores h hn hw.theme,
    field_eq_of_stores h hn hw.shell, withDefault_eq_of_stores h hn hw.scrollbackLines,
    withDefault_eq_of_stores h hn hw.cursorStyle, withDefault_eq_of_stores h hn hw.bellMode,
    withDefault_eq_of_stores h hn hw.notificationMode, field_eq_of_stores h hn hw.onLaunch,
    withDefault_eq_of_stores h hn hw.profiles, field_eq_of_stores h hn hw.defaultProfile,
    withDefault_eq_of_stores h hn hw.pasteWarnSize, withDefault_eq_of_stores h hn hw.pasteWarnNewline,
    withDefault_eq_of_stores h hn hw.sessionTrashDays,
    withDefault_eq_of_stores h hn hw.byteLogRingKb, withDefault_eq_of_stores h hn hw.byteLogMaxMb,
    defaultSessionTrashDays, defaultByteLogRingKb, defaultByteLogMaxMb, getD_unless,
    getD_unlessEmpty, Option.getD_some, bind, Except.bind]

theorem deserialize_configEntries {t : Themes} {c : Config} (hc : Produced t c) {s p : Toml}
    (hs : usizeToml c.scrollbackLines = some s) (hp : usizeToml c.pasteWarnSize = some p)
    {fs : Entries} (h : SameEntries fs (configEntries c s p)) :
    ∃ c', deserialize t fs = .ok c' ∧ c.Equal c' := by
  have hw := written_configEntries hs hp
  obtain ⟨m, hm, hperm⟩ := keybindings_read h
  have hraw := buildRawConfig_of_written hw h hm
  have hprofiles : (c.profiles.filter fun p => p.name ≠ "" ∧ p.command ≠ "") = c.profiles := by
    rw [List.filter_eq_self]
    intro p hp
    simpa using hc.profiles p hp
  refine ⟨{ c with keybindings := m }, ?_, rfl, hperm⟩
  simp only [deserialize, readRawConfig, readRecord, readEntries_of_written hw h, hraw,
    resolveTheme_themeValue hc, onLaunchOf_rename, hprofiles, bind, Except.bind]

/-- A number that has been read can be written. -/
theorem usizeToml_of_lt {n : UInt64} (h : n.toNat < 2 ^ 63) : ∃ v, usizeToml n = some v :=
  ⟨_, if_pos h⟩

/-- The text that is printed for the entries is read as these entries, in some order. -/
def PrintsBack (t : Themes) (print : Entries → Text) (entries : Entries) : Prop :=
  ∃ fs, t.parse (print entries) = some fs ∧ (Toml.table fs).toValue = (Toml.table entries).toValue

/-- A configuration that has been read can be written, and what is then read is equal to it. -/
theorem fromStr_print {t : Themes} {print : Entries → Text} {contents : Text} {c : Config}
    (h : fromStr t contents = .ok c)
    (hprint : ∀ entries, serialize c = some entries → PrintsBack t print entries) :
    ∃ entries c', serialize c = some entries ∧ fromStr t (print entries) = .ok c' ∧ c.Equal c' := by
  rw [fromStr] at h
  cases hparse : t.parse contents with
  | none =>
    rw [hparse] at h
    cases h
  | some es =>
    rw [hparse] at h
    have hc := produced_of_deserialize h
    obtain ⟨s, hs⟩ := usizeToml_of_lt hc.scrollbackLines
    obtain ⟨p, hp⟩ := usizeToml_of_lt hc.pasteWarnSize
    have hserialize := serialize_eq hs hp
    obtain ⟨fs, htext, hsame⟩ := hprint _ hserialize
    obtain ⟨fs', heq, hfs⟩ := of_toValue_table hsame
    cases heq
    obtain ⟨c', hread, hequal⟩ := deserialize_configEntries hc hs hp hfs
    refine ⟨_, c', hserialize, ?_, hequal⟩
    rw [fromStr, htext]
    exact hread

/-! ### A file that names its theme -/

def namedFile : Text := "theme = \"Mine\"\n".toList

def printedFile : Text :=
  "font_family = \"monospace\"\n".toList ++ "font_size = 12.0\n".toList ++
    "theme = \"Mine\"\n".toList ++ "scrollback_lines = 10000\n".toList ++
    "cursor_style = \"block\"\n".toList ++ "bell_mode = \"visual\"\n".toList ++
    "notification_mode = \"all\"\n".toList ++ "on_launch = \"restore\"\n".toList ++
    "paste_warn_size = 5120\n".toList ++ "paste_warn_newline = true\n".toList

def printedEntries : Entries := [("font_family", .string "monospace"),
  ("font_size", .float (.ofInt binary64 12)), ("theme", .string "Mine"),
  ("scrollback_lines", .integer 10000), ("cursor_style", .string "block"),
  ("bell_mode", .string "visual"), ("notification_mode", .string "all"),
  ("on_launch", .string "restore"), ("paste_warn_size", .integer 5120),
  ("paste_warn_newline", .boolean true)]

def parseNamed (contents : Text) : Option Entries :=
  if contents = namedFile then some [("theme", .string "Mine")]
  else if contents = printedFile then some printedEntries
  else none

/-- The two files, and no themes. -/
def namedThemes : Themes where
  parse := parseNamed
  bundled := []
  themesDir := []

def namedConfig : Config where
  fontFamily := defaultFontFamily
  fontSize := defaultFontSize
  theme := .default
  themeName := some "Mine"
  shell := none
  scrollbackLines := defaultScrollbackLines
  cursorStyle := .block
  bellMode := .visual
  notificationMode := .all
  keybindings := .empty
  onLaunch := .restore
  profiles := []
  defaultProfile := none
  pasteWarnSize := defaultPasteWarnSize
  pasteWarnNewline := defaultPasteWarnNewline
  sessionTrashDays := defaultSessionTrashDays
  byteLogRingKb := defaultByteLogRingKb
  byteLogMaxMb := defaultByteLogMaxMb

theorem fromStr_namedFile : fromStr namedThemes namedFile = .ok namedConfig := by
  rfl

theorem serialize_namedConfig : serialize namedConfig = some printedEntries := by
  rfl

theorem namedThemes_parse (contents : Text) : namedThemes.parse contents = parseNamed contents := rfl

theorem parse_printedFile : namedThemes.parse printedFile = some printedEntries := by
  have hne : printedFile ≠ namedFile := by decide +kernel
  rw [namedThemes_parse, parseNamed, if_neg hne, if_pos rfl]

theorem fromStr_print_named :
    ∃ entries c', serialize namedConfig = some entries ∧
      fromStr namedThemes ((fun _ => printedFile) entries) = .ok c' ∧ namedConfig.Equal c' :=
  @fromStr_print namedThemes (fun _ => printedFile) namedFile namedConfig fromStr_namedFile (by
    intro entries h
    rw [serialize_namedConfig] at h
    cases h
    exact ⟨printedEntries, parse_printedFile, rfl⟩)

end Forgetty.ConfigFile
