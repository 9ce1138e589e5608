import Forgetty.Core.HexColours
import Forgetty.Config.ReadBack

/-! Reading a file panics exactly if it comes to a colour that is cut inside a character. A record
is read entry by entry, so the colour is one with nothing in front of it that is not accepted. -/

namespace Forgetty.ConfigFile

open Forgetty.Core (Reads)

/-! ### What reading comes to -/

/-- A `#` and six or eight bytes, with a character that lies across the end of a pair. -/
def Cut (text : Text) : Prop :=
  ∃ digits, text = '#' :: digits ∧ (String.utf8Len digits = 6 ∨ String.utf8Len digits = 8) ∧
    Core.Straddles digits

/-- The entries of a record in the order in which they are read. -/
def recordEntries (checks : Checks) : Toml → Entries
  | .table entries => entries
  | .array elems => (checks.map (·.1)).zip elems
  | _ => []

/-- Reading the value comes to a text that is to be a colour: what stands in front of it is
accepted. -/
inductive ComesTo : (Toml → Reads Unit) → Toml → Text → Prop where
  | colour (text : String) : ComesTo (check readRgba) (.string text) text.toList
  | field {α : Type} {checks : Checks} {build : Entries → Reads α} {v w : Toml} {name : String}
      {before after : Entries} {c : Toml → Reads Unit} {text : Text} :
      recordEntries checks v = before ++ (name, w) :: after → readEntries checks before = .ok () →
      checks.lookup name = some c → ComesTo c w text → ComesTo (check (readRecord checks build)) v text
  | element {before after : List Toml} {w : Toml} {colours : List Core.Rgba} {text : Text} :
      before.length < 16 → readAll readRgba before = .ok colours → ComesTo (check readRgba) w text →
      ComesTo (check readPalette) (.array (before ++ w :: after)) text

theorem check_eq_panicked_iff {α : Type} {read : Toml → Reads α} {v : Toml} :
    check read v = .error .panicked ↔ read v = .error .panicked := by
  rw [check]
  cases read v <;> simp [Except.map]

theorem bind_eq_panicked_iff {α β : Type} {x : Reads α} {f : α → Reads β} :
    x >>= f = .error .panicked ↔ x = .error .panicked ∨ ∃ a, x = .ok a ∧ f a = .error .panicked := by
  cases x <;> simp [bind, Except.bind]

theorem map_eq_panicked_iff {α β : Type} {x : Reads α} {f : α → β} :
    x.map f = .error .panicked ↔ x = .error .panicked := by
  cases x <;> simp [Except.map]

/-- What the check of an entry ends in. -/
def checkEntry (checks : Checks) (e : String × Toml) : Reads Unit :=
  match checks.lookup e.1 with
  | some c => c e.2
  | none => .ok ()

theorem readEntries_cons (checks : Checks) (e : String × Toml) (es : Entries) :
    readEntries checks (e :: es) = checkEntry checks e >>= fun _ => readEntries checks es := by
  rw [readEntries, checkEntry]
  cases checks.lookup e.1 <;> rfl

theorem checkEntry_eq_panicked_iff {checks : Checks} {e : String × Toml} :
    checkEntry checks e = .error .panicked ↔
      ∃ c, checks.lookup e.1 = some c ∧ c e.2 = .error .panicked := by
  rw [checkEntry]
  cases checks.lookup e.1 <;> simp

theorem readEntries_eq_panicked_iff {checks : Checks} {es : Entries} :
    readEntries checks es = .error .panicked ↔ ∃ before e after, es = before ++ e :: after ∧
      readEntries checks before = .ok () ∧ checkEntry checks e = .error .panicked := by
  induction es with
  | nil => simp [readEntries]
  | cons e es ih =>
    rw [readEntries_cons, bind_eq_panicked_iff, ih]
    constructor
    · rintro (he | ⟨⟨⟩, he, before, e', after, rfl, hbefore, he'⟩)
      · exact ⟨[], e, es, rfl, rfl, he⟩
      · refine ⟨e :: before, e', after, rfl, ?_, he'⟩
        rw [readEntries_cons, he]
        exact hbefore
    · rintro ⟨_ | ⟨b, before⟩, e', after, heq, hbefore, he'⟩
      · cases heq
        exact .inl he'
      · cases heq
        rw [readEntries_cons] at hbefore
        obtain ⟨⟨⟩, he, hbefore⟩ := ok_of_bind hbefore
        exact .inr ⟨(), he, before, e', after, rfl, hbefore, he'⟩

theorem readAll_eq_panicked_iff {α : Type} {read : Toml → Reads α} {vs : List Toml} :
    readAll read vs = .error .panicked ↔ ∃ before w after as, vs = before ++ w :: after ∧
      readAll read before = .ok as ∧ read w = .error .panicked := by
  induction vs with
  | nil => simp [readAll]
  | cons v vs ih =>
    have hnext (a : α) : (do
        let as ← readAll read vs
        Except.ok (a :: as) : Reads (List α)) = .error .panicked ↔
        readAll read vs = .error .panicked := by
      cases readAll read vs <;> simp [bind, Except.bind]
    simp only [readAll, bind_eq_panicked_iff, hnext, ih]
    constructor
    · rintro (hv | ⟨a, hv, before, w, after, as, rfl, hbefore, hw⟩)
      · exact ⟨[], v, vs, [], rfl, rfl, hv⟩
      · refine ⟨v :: before, w, after, a :: as, rfl, ?_, hw⟩
        simp only [readAll, hv, hbefore, bind, Except.bind]
    · rintro ⟨_ | ⟨b, before⟩, w, after, as, heq, hbefore, hw⟩
      · cases heq
        exact .inl hw
      · cases heq
        obtain ⟨a, hv, hbefore⟩ := ok_of_bind hbefore
        obtain ⟨as', hbefore, -⟩ := ok_of_bind hbefore
        exact .inr ⟨a, hv, before, w, after, as', rfl, hbefore, hw⟩

/-! ### A colour that is cut makes the reading panic -/

theorem fromHex_eq_panicked_iff {text : Text} :
    Core.Rgba.fromHex text = .error .panicked ↔ Cut text := Core.fromHex_panicked_iff

theorem readRecord_eq_panicked {α : Type} {checks : Checks} {build : Entries → Reads α} {v : Toml}
    (h : readEntries checks (recordEntries checks v) = .error .panicked) :
    readRecord checks build v = .error .panicked := by
  cases v with
  | table entries =>
    show readEntries checks entries >>= _ = _
    exact bind_eq_panicked_iff.mpr (.inl h)
  | array elems =>
    show readEntries checks _ >>= _ = _
    exact bind_eq_panicked_iff.mpr (.inl h)
  | _ => cases h

theorem panicked_of_comesTo {c : Toml → Reads Unit} {v : Toml} {text : Text} (h : ComesTo c v text)
    (hcut : Cut text) : c v = .error .panicked := by
  induction h with
  | colour text => exact check_eq_panicked_iff.mpr (fromHex_eq_panicked_iff.mpr hcut)
  | @field α checks build v w name before after c text hv hbefore hc _ ih =>
    apply check_eq_panicked_iff.mpr
    apply readRecord_eq_panicked
    rw [readEntries_eq_panicked_iff]
    exact ⟨before, _, after, hv, hbefore, checkEntry_eq_panicked_iff.mpr ⟨c, hc, ih hcut⟩⟩
  | @element before after w colours text hlen hbefore _ ih =>
    have hw := check_eq_panicked_iff.mp (ih hcut)
    have htake : (before ++ w :: after).take 16 = before ++ w :: after.take (15 - before.length) := by
      rw [List.take_append, List.take_of_length_le hlen.le,
        show 16 - before.length = 15 - before.length + 1 by omega, List.take_succ_cons]
    apply check_eq_panicked_iff.mpr
    show readAll readRgba _ >>= _ = _
    rw [htake]
    exact bind_eq_panicked_iff.mpr
      (.inl (readAll_eq_panicked_iff.mpr ⟨before, w, _, colours, rfl, hbefore, hw⟩))

/-! ### Nothing else does -/

/-- If reading panics, it has come to a colour that is cut. -/
def PanicsAtCuts (c : Toml → Reads Unit) : Prop :=
  ∀ v, c v = .error .panicked → ∃ text, ComesTo c v text ∧ Cut text

theorem readBelow_ne_panicked (bound : ℕ) (v : Toml) : readBelow bound v ≠ .error .panicked := by
  unfold readBelow
  split
  · split_ifs <;> simp
  · simp

theorem readU8_ne_panicked (v : Toml) : readU8 v ≠ .error .panicked :=
  fun h => readBelow_ne_panicked _ v (map_eq_panicked_iff.mp h)

section Fields

variable {α : Type} {read : Toml → Reads α} {checks : Checks} {name : String} {es : Entries}

theorem checkEntry_of_readEntries (h : readEntries checks es = .ok ()) {e : String × Toml}
    (he : e ∈ es) : checkEntry checks e = .ok () := by
  induction es with
  | nil => cases he
  | cons e' es ih =>
    rw [readEntries_cons] at h
    obtain ⟨⟨⟩, he', h⟩ := ok_of_bind h
    rcases List.mem_cons.mp he with rfl | he
    · exact he'
    · exact ih h he

/-- A field that has been checked can be read. -/
theorem field_of_readEntries (h : readEntries checks es = .ok ())
    (hc : checks.lookup name = some (check read)) : ∃ o, field read name es = .ok o := by
  rw [field]
  cases hv : es.lookup name with
  | none => exact ⟨none, rfl⟩
  | some v =>
    obtain ⟨l₁, l₂, rfl, -⟩ := List.lookup_eq_some_iff.mp hv
    have hentry := checkEntry_of_readEntries h (e := (name, v)) (by simp)
    rw [checkEntry, hc] at hentry
    cases hr : read v with
    | error e =>
      simp only [check, hr] at hentry
      cases hentry
    | ok a => exact ⟨some a, by simp only [hr]; rfl⟩

theorem field_ne_panicked (h : readEntries checks es = .ok ())
    (hc : checks.lookup name = some (check read)) : field read name es ≠ .error .panicked := by
  obtain ⟨o, ho⟩ := field_of_readEntries h hc
  rw [ho]
  exact fun h => by cases h

theorem withDefault_ne_panicked (h : readEntries checks es = .ok ())
    (hc : checks.lookup name = some (check read)) (d : α) :
    withDefault read name d es ≠ .error .panicked :=
  fun hpanic => field_ne_panicked h hc (map_eq_panicked_iff.mp hpanic)

theorem required_ne_panicked (h : readEntries checks es = .ok ())
    (hc : checks.lookup name = some (check read)) : required read name es ≠ .error .panicked := by
  obtain ⟨o, ho⟩ := field_of_readEntries h hc
  rw [required, ho]
  cases o <;> exact fun h => by cases h

end Fields

theorem bind_ne_panicked {α β : Type} {x : Reads α} {f : α → Reads β} (hx : x ≠ .error .panicked)
    (hf : ∀ a, f a ≠ .error .panicked) : x >>= f ≠ .error .panicked := by
  intro h
  rcases bind_eq_panicked_iff.mp h with h | ⟨a, -, h⟩
  · exact hx h
  · exact hf a h

/-- A record panics at one of its entries: what is built of them is checked by then. -/
theorem readRecord_eq_panicked_iff {α : Type} {checks : Checks} {build : Entries → Reads α}
    (hbuild : ∀ es, readEntries checks es = .ok () → build es ≠ .error .panicked) {v : Toml} :
    readRecord checks build v = .error .panicked ↔
      readEntries checks (recordEntries checks v) = .error .panicked := by
  refine ⟨fun h => ?_, readRecord_eq_panicked⟩
  cases v with
  | table entries =>
    rcases bind_eq_panicked_iff.mp h with h | ⟨⟨⟩, hok, h⟩
    · exact h
    · exact absurd h (hbuild entries hok)
  | array elems =>
    rcases bind_eq_panicked_iff.mp h with h | ⟨⟨⟩, hok, h⟩
    · exact h
    · split_ifs at h
      · cases h
      · exact absurd h (hbuild _ hok)
  | _ => cases h

theorem mem_of_lookup {checks : Checks} {name : String} {c : Toml → Reads Unit}
    (hc : checks.lookup name = some c) : (name, c) ∈ checks := by
  obtain ⟨l₁, l₂, hsplit, -⟩ := List.lookup_eq_some_iff.mp hc
  simp [hsplit]

theorem panicsAtCuts_record {α : Type} {checks : Checks} {build : Entries → Reads α}
    (hchecks : ∀ p ∈ checks, PanicsAtCuts p.2)
    (hbuild : ∀ es, readEntries checks es = .ok () → build es ≠ .error .panicked) :
    PanicsAtCuts (check (readRecord checks build)) := by
  intro v hv
  have hentries := (readRecord_eq_panicked_iff hbuild).mp (check_eq_panicked_iff.mp hv)
  obtain ⟨before, ⟨name, w⟩, after, heq, hbefore, he⟩ := readEntries_eq_panicked_iff.mp hentries
  obtain ⟨c, hc, hw⟩ := checkEntry_eq_panicked_iff.mp he
  obtain ⟨text, htext, hcut⟩ := hchecks _ (mem_of_lookup hc) w hw
  exact ⟨text, .field heq hbefore hc htext, hcut⟩

theorem readEntries_ne_panicked {checks : Checks}
    (hchecks : ∀ p ∈ checks, ∀ v, p.2 v ≠ .error .panicked) (es : Entries) :
    readEntries checks es ≠ .error .panicked := by
  intro h
  obtain ⟨before, e, after, -, -, he⟩ := readEntries_eq_panicked_iff.mp h
  obtain ⟨c, hc, he⟩ := checkEntry_eq_panicked_iff.mp he
  exact hchecks _ (mem_of_lookup hc) _ he

theorem check_ne_panicked {α : Type} {read : Toml → Reads α} (h : ∀ v, read v ≠ .error .panicked)
    (v : Toml) : check read v ≠ .error .panicked :=
  fun hv => h v (check_eq_panicked_iff.mp hv)

theorem rgbaChecks_ne_panicked : ∀ p ∈ rgbaChecks, ∀ v, p.2 v ≠ .error .panicked := by
  simp only [rgbaChecks, List.forall_mem_cons]
  simp [check_ne_panicked readU8_ne_panicked]

theorem panicsAtCuts_rgba : PanicsAtCuts (check readRgba) := by
  intro v hv
  have hread := check_eq_panicked_iff.mp hv
  cases v with
  | string text => exact ⟨text.toList, .colour text, fromHex_eq_panicked_iff.mp hread⟩
  | table entries =>
    -- the channels are numbers, and reading those does not panic
    rcases bind_eq_panicked_iff.mp hread with h | ⟨⟨⟩, hok, h⟩
    · exact absurd h (readEntries_ne_panicked rgbaChecks_ne_panicked entries)
    · refine absurd h (bind_ne_panicked (required_ne_panicked hok rfl) fun r => ?_)
      refine bind_ne_panicked (required_ne_panicked hok rfl) fun g => ?_
      refine bind_ne_panicked (required_ne_panicked hok rfl) fun b => ?_
      exact bind_ne_panicked (required_ne_panicked hok rfl) fun a h => by cases h
  | _ => cases hread

theorem panicsAtCuts_ansiColors : PanicsAtCuts (check readAnsiColors) := by
  apply panicsAtCuts_record
  · simp only [ansiChecks, List.forall_mem_cons]
    simp [panicsAtCuts_rgba]
  · intro es h
    refine bind_ne_panicked (required_ne_panicked h rfl) fun black => ?_
    refine bind_ne_panicked (required_ne_panicked h rfl) fun red => ?_
    refine bind_ne_panicked (required_ne_panicked h rfl) fun green => ?_
    refine bind_ne_panicked (required_ne_panicked h rfl) fun yellow => ?_
    refine bind_ne_panicked (required_ne_panicked h rfl) fun blue => ?_
    refine bind_ne_panicked (required_ne_panicked h rfl) fun magenta => ?_
    refine bind_ne_panicked (required_ne_panicked h rfl) fun cyan => ?_
    exact bind_ne_panicked (required_ne_panicked h rfl) fun white h => by cases h

theorem panicsAtCuts_themeColors : PanicsAtCuts (check readThemeColors) := by
  apply panicsAtCuts_record
  · simp only [themeColorsChecks, List.forall_mem_cons]
    simp [panicsAtCuts_rgba, panicsAtCuts_ansiColors]
  · intro es h
    refine bind_ne_panicked (required_ne_panicked h rfl) fun foreground => ?_
    refine bind_ne_panicked (required_ne_panicked h rfl) fun background => ?_
    refine bind_ne_panicked (field_ne_panicked h rfl) fun cursor => ?_
    refine bind_ne_panicked (field_ne_panicked h rfl) fun selection => ?_
    refine bind_ne_panicked (field_ne_panicked h rfl) fun ansi => ?_
    exact bind_ne_panicked (field_ne_panicked h rfl) fun bright h => by cases h

theorem panicsAtCuts_themeFile : PanicsAtCuts (check readThemeFile) := by
  apply panicsAtCuts_record
  · simp [panicsAtCuts_themeColors]
  · intro es h hpanic
    exact required_ne_panicked h rfl (map_eq_panicked_iff.mp hpanic)

theorem panicsAtCuts_palette : PanicsAtCuts (check readPalette) := by
  intro v hv
  have hread := check_eq_panicked_iff.mp hv
  cases v with
  | array elems =>
    rcases bind_eq_panicked_iff.mp hread with h | ⟨colors, -, h⟩
    · obtain ⟨before, w, after, colours, heq, hbefore, hw⟩ := readAll_eq_panicked_iff.mp h
      have hlen : before.length < 16 := by
        have h16 := List.length_take_le 16 elems
        rw [heq, List.length_append, List.length_cons] at h16
        omega
      have helems : elems = before ++ w :: (after ++ elems.drop 16) := by
        rw [← List.cons_append, ← List.append_assoc, ← heq, List.take_append_drop]
      obtain ⟨text, htext, hcut⟩ := panicsAtCuts_rgba w (check_eq_panicked_iff.mpr hw)
      rw [helems]
      exact ⟨text, .element hlen hbefore htext, hcut⟩
    · split_ifs at h <;> cases h
  | _ => cases hread

theorem panicsAtCuts_theme : PanicsAtCuts (check readTheme) := by
  apply panicsAtCuts_record
  · simp only [themeChecks, List.forall_mem_cons]
    simp [panicsAtCuts_rgba, panicsAtCuts_palette]
  · intro es h
    refine bind_ne_panicked (withDefault_ne_panicked h rfl _) fun ansiColors => ?_
    refine bind_ne_panicked (withDefault_ne_panicked h rfl _) fun foreground => ?_
    refine bind_ne_panicked (withDefault_ne_panicked h rfl _) fun background => ?_
    refine bind_ne_panicked (withDefault_ne_panicked h rfl _) fun cursor => ?_
    refine bind_ne_panicked (withDefault_ne_panicked h rfl _) fun selection => ?_
    refine bind_ne_panicked (withDefault_ne_panicked h rfl _) fun searchMatch => ?_
    exact bind_ne_panicked (withDefault_ne_panicked h rfl _) fun searchCurrent h => by cases h

theorem panicked_iff {α : Type} {read : Toml → Reads α} (h : PanicsAtCuts (check read)) {v : Toml} :
    read v = .error .panicked ↔ ∃ text, ComesTo (check read) v text ∧ Cut text := by
  rw [← check_eq_panicked_iff]
  constructor
  · exact h v
  · rintro ⟨text, htext, hcut⟩
    exact panicked_of_comesTo htext hcut

/-! ### The settings have no colours -/

theorem readString_ne_panicked (v : Toml) : readString v ≠ .error .panicked := by
  cases v <;> exact fun h => by cases h

theorem readBool_ne_panicked (v : Toml) : readBool v ≠ .error .panicked := by
  cases v <;> exact fun h => by cases h

theorem readF32_ne_panicked (v : Toml) : readF32 v ≠ .error .panicked := by
  cases v <;> exact fun h => by cases h

theorem readVariant_ne_panicked (v : Toml) : readVariant v ≠ .error .panicked := by
  unfold readVariant
  split <;> exact fun h => by cases h

theorem readEnum_ne_panicked {α : Type} (variants : List (String × α)) (v : Toml) :
    readEnum variants v ≠ .error .panicked := by
  apply bind_ne_panicked (readVariant_ne_panicked v)
  intro name
  cases variants.lookup name <;> exact fun h => by cases h

theorem readTexts_ne_panicked (m : TextMap) (es : Entries) : readTexts m es ≠ .error .panicked := by
  induction es generalizing m with
  | nil => exact fun h => by cases h
  | cons e es ih => exact bind_ne_panicked (readString_ne_panicked _) fun text => ih _

theorem readTextMap_ne_panicked (v : Toml) : readTextMap v ≠ .error .panicked := by
  cases v with
  | table entries => exact readTexts_ne_panicked .empty entries
  | _ => exact fun h => by cases h

theorem readArray_ne_panicked {α : Type} {read : Toml → Reads α}
    (h : ∀ v, read v ≠ .error .panicked) (v : Toml) : readArray read v ≠ .error .panicked := by
  cases v with
  | array elems =>
    intro hpanic
    obtain ⟨before, w, after, as, -, -, hw⟩ := readAll_eq_panicked_iff.mp hpanic
    exact h w hw
  | _ => exact fun h => by cases h

theorem readRecord_ne_panicked {α : Type} {checks : Checks} {build : Entries → Reads α}
    (hchecks : ∀ p ∈ checks, ∀ v, p.2 v ≠ .error .panicked)
    (hbuild : ∀ es, readEntries checks es = .ok () → build es ≠ .error .panicked) (v : Toml) :
    readRecord checks build v ≠ .error .panicked :=
  fun h => readEntries_ne_panicked hchecks _ ((readRecord_eq_panicked_iff hbuild).mp h)

theorem readProfile_ne_panicked (v : Toml) : readProfile v ≠ .error .panicked := by
  apply readRecord_ne_panicked
  · simp only [profileChecks, List.forall_mem_cons]
    simp [check_ne_panicked readString_ne_panicked]
  · intro es h
    refine bind_ne_panicked (required_ne_panicked h rfl) fun name => ?_
    refine bind_ne_panicked (required_ne_panicked h rfl) fun command => ?_
    refine bind_ne_panicked (field_ne_panicked h rfl) fun directory => ?_
    exact bind_ne_panicked (field_ne_panicked h rfl) fun icon h => by cases h

theorem readU32_ne_panicked (v : Toml) : readU32 v ≠ .error .panicked :=
  fun h => readBelow_ne_panicked _ v (map_eq_panicked_iff.mp h)

theorem readUsize_ne_panicked (v : Toml) : readUsize v ≠ .error .panicked :=
  fun h => readBelow_ne_panicked _ v (map_eq_panicked_iff.mp h)

theorem readValue_ne_panicked (v : Toml) : readValue v ≠ .error .panicked :=
  fun h => by cases h

theorem rawConfigChecks_ne_panicked : ∀ p ∈ rawConfigChecks, ∀ v, p.2 v ≠ .error .panicked := by
  simp only [rawConfigChecks, List.forall_mem_cons]
  simp [check_ne_panicked readString_ne_panicked, check_ne_panicked readF32_ne_panicked,
    check_ne_panicked readValue_ne_panicked, check_ne_panicked readUsize_ne_panicked,
    check_ne_panicked (readEnum_ne_panicked _), check_ne_panicked readTextMap_ne_panicked,
    check_ne_panicked (readArray_ne_panicked readProfile_ne_panicked),
    check_ne_panicked readBool_ne_panicked, check_ne_panicked readU32_ne_panicked]

theorem withDefault_of_readEntries {α : Type} {read : Toml → Reads α} {checks : Checks}
    {name : String} {es : Entries} (h : readEntries checks es = .ok ())
    (hc : checks.lookup name = some (check read)) (d : α) :
    ∃ a, withDefault read name d es = .ok a := by
  obtain ⟨o, ho⟩ := field_of_readEntries h hc
  rw [withDefault, ho]
  exact ⟨o.getD d, rfl⟩

theorem field_readValue (name : String) (es : Entries) :
    field readValue name es = .ok ((es.lookup name).map Toml.toValue) := by
  rw [field]
  cases es.lookup name <;> rfl

theorem exists_of_bind {α β : Type} {x : Reads α} {f : α → Reads β} {P : β → Prop}
    (hx : ∃ a, x = .ok a) (hf : ∀ a, x = .ok a → ∃ b, f a = .ok b ∧ P b) :
    ∃ b, x >>= f = .ok b ∧ P b := by
  obtain ⟨a, rfl⟩ := hx
  exact hf a rfl

/-- Settings that are accepted make a configuration, with the theme as it stands. -/
theorem buildRawConfig_of_readEntries {es : Entries} (h : readEntries rawConfigChecks es = .ok ()) :
    ∃ raw, buildRawConfig es = .ok raw ∧ raw.theme = (es.lookup "theme").map Toml.toValue := by
  refine exists_of_bind (withDefault_of_readEntries h rfl _) fun fontFamily _ => ?_
  refine exists_of_bind (withDefault_of_readEntries h rfl _) fun fontSize _ => ?_
  refine exists_of_bind ⟨_, field_readValue _ _⟩ fun theme htheme => ?_
  refine exists_of_bind (field_of_readEntries h rfl) fun shell _ => ?_
  refine exists_of_bind (withDefault_of_readEntries h rfl _) fun scrollbackLines _ => ?_
  refine exists_of_bind (withDefault_of_readEntries h rfl _) fun cursorStyle _ => ?_
  refine exists_of_bind (withDefault_of_readEntries h rfl _) fun bellMode _ => ?_
  refine exists_of_bind (withDefault_of_readEntries h rfl _) fun notificationMode _ => ?_
  refine exists_of_bind (withDefault_of_readEntries h rfl _) fun keybindings _ => ?_
  refine exists_of_bind (field_of_readEntries h rfl) fun onLaunch _ => ?_
  refine exists_of_bind (withDefault_of_readEntries h rfl _) fun profiles _ => ?_
  refine exists_of_bind (field_of_readEntries h rfl) fun defaultProfile _ => ?_
  refine exists_of_bind (withDefault_of_readEntries h rfl _) fun pasteWarnSize _ => ?_
  refine exists_of_bind (withDefault_of_readEntries h rfl _) fun pasteWarnNewline _ => ?_
  refine exists_of_bind (withDefault_of_readEntries h rfl _) fun sessionTrashDays _ => ?_
  refine exists_of_bind (withDefault_of_readEntries h rfl _) fun byteLogRingKb _ => ?_
  refine exists_of_bind (withDefault_of_readEntries h rfl _) fun byteLogMaxMb _ => ?_
  rw [field_readValue] at htheme
  cases htheme
  exact ⟨_, rfl, rfl⟩

theorem readRawConfig_cases (es : Entries) :
    (readEntries rawConfigChecks es = .ok () ∧ ∃ raw, readRawConfig (.table es) = .ok raw ∧
        raw.theme = (es.lookup "theme").map Toml.toValue) ∨
      readEntries rawConfigChecks es ≠ .ok () ∧ readRawConfig (.table es) = .error .invalid := by
  cases h : readEntries rawConfigChecks es with
  | ok =>
    obtain ⟨raw, hraw, htheme⟩ := buildRawConfig_of_readEntries h
    refine .inl ⟨rfl, raw, ?_, htheme⟩
    rw [readRawConfig, readRecord, h]
    exact hraw
  | error e =>
    cases e with
    | invalid =>
      refine .inr ⟨fun h => (by cases h), ?_⟩
      rw [readRawConfig, readRecord, h]
      rfl
    | panicked => exact absurd h (readEntries_ne_panicked rawConfigChecks_ne_panicked es)

/-! ### Files -/

theorem attempt_eq_panicked_iff {α : Type} {r : Reads α} :
    attempt r = .error .panicked ↔ r = .error .panicked := by
  rcases r with (_ | _) | a <;> simp [attempt]

/-- A theme file in which reading comes to a colour that is cut. -/
def CutTheme (t : Themes) (contents : Text) : Prop :=
  ∃ entries text, t.parse contents = some entries ∧
    ComesTo (check readThemeFile) (.table entries) text ∧ Cut text

theorem parseThemeFile_eq_panicked_iff {t : Themes} {contents : Text} :
    parseThemeFile t contents = .error .panicked ↔ CutTheme t contents := by
  rw [parseThemeFile, CutTheme]
  cases hparse : t.parse contents with
  | none => simp
  | some entries => simpa using panicked_iff panicsAtCuts_themeFile

theorem previewFromToml_eq_panicked_iff {t : Themes} {contents : Text} :
    previewFromToml t contents = .error .panicked ↔ CutTheme t contents := by
  rw [previewFromToml, map_eq_panicked_iff, attempt_eq_panicked_iff, parseThemeFile_eq_panicked_iff]

/-- All the theme files: the bundled ones and the readable ones of the user. -/
def themeFiles (t : Themes) : List Text :=
  t.bundled.map (·.2) ++ (customThemes t).map (·.contents)

theorem collect_eq_panicked_iff {α β : Type} {f : α → Reads (Option β)} {l : List α}
    (hf : ∀ a ∈ l, f a ≠ .error .invalid) :
    collect f l = .error .panicked ↔ ∃ a ∈ l, f a = .error .panicked := by
  induction l with
  | nil => simp [collect]
  | cons a as ih =>
    rw [List.forall_mem_cons] at hf
    have hrest (b : Option β) : (do
        let bs ← collect f as
        Except.ok (b.toList ++ bs) : Reads (List β)) = .error .panicked ↔
        collect f as = .error .panicked := by
      cases collect f as <;> simp [bind, Except.bind]
    simp only [collect, bind_eq_panicked_iff, hrest, ih hf.2, List.exists_mem_cons_iff]
    rcases ha : f a with (_ | _) | b
    · exact absurd ha hf.1
    · simp
    · simp

theorem collect_ne_invalid {α β : Type} {f : α → Reads (Option β)} {l : List α}
    (hf : ∀ a ∈ l, f a ≠ .error .invalid) : collect f l ≠ .error .invalid := by
  induction l with
  | nil => exact fun h => by cases h
  | cons a as ih =>
    rw [List.forall_mem_cons] at hf
    rw [collect]
    rcases ha : f a with (_ | _) | b
    · exact absurd ha hf.1
    · exact fun h => by cases h
    · rcases has : collect f as with (_ | _) | bs
      · exact absurd has (ih hf.2)
      · exact fun h => by cases h
      · exact fun h => by cases h

theorem map_eq_invalid_iff {α β : Type} {x : Reads α} {f : α → β} :
    x.map f = .error .invalid ↔ x = .error .invalid := by
  cases x <;> simp [Except.map]

theorem previewFromToml_ne_invalid (t : Themes) (contents : Text) :
    previewFromToml t contents ≠ .error .invalid := by
  rw [previewFromToml]
  rcases parseThemeFile t contents with (_ | _) | theme <;> exact fun h => by cases h

/-- The catalogue reads all the files, and goes on behind one that is no theme. -/
theorem loadThemeCatalog_eq_panicked_iff (u : CaseTables) {t : Themes} :
    loadThemeCatalog u t = .error .panicked ↔ ∃ file ∈ themeFiles t, CutTheme t file := by
  have hbundledEntry : ∀ theme ∈ t.bundled, bundledEntry t theme ≠ .error .invalid :=
    fun _ _ h => previewFromToml_ne_invalid _ _ (map_eq_invalid_iff.mp h)
  have hcustomEntry : ∀ file ∈ customThemes t, customEntry t file ≠ .error .invalid :=
    fun _ _ h => previewFromToml_ne_invalid _ _ (map_eq_invalid_iff.mp h)
  have hbundled := collect_eq_panicked_iff hbundledEntry
  have hcustom := collect_eq_panicked_iff hcustomEntry
  simp only [bundledEntry, customEntry, map_eq_panicked_iff, previewFromToml_eq_panicked_iff]
    at hbundled hcustom
  have hfiles : (∃ file ∈ themeFiles t, CutTheme t file) ↔
      (∃ theme ∈ t.bundled, CutTheme t theme.2) ∨
        ∃ file ∈ customThemes t, CutTheme t file.contents := by
    simp only [themeFiles, List.mem_append, List.mem_map]
    constructor
    · rintro ⟨file, ⟨theme, htheme, rfl⟩ | ⟨custom, hmem, rfl⟩, hcut⟩
      · exact .inl ⟨theme, htheme, hcut⟩
      · exact .inr ⟨custom, hmem, hcut⟩
    · rintro (⟨theme, htheme, hcut⟩ | ⟨custom, hmem, hcut⟩)
      · exact ⟨_, .inl ⟨theme, htheme, rfl⟩, hcut⟩
      · exact ⟨_, .inr ⟨custom, hmem, rfl⟩, hcut⟩
  rw [hfiles, ← hbundled, ← hcustom, loadThemeCatalog, bind_eq_panicked_iff]
  rcases hb : collect (bundledEntry t) t.bundled with (_ | _) | bundled
  · exact absurd hb (collect_ne_invalid hbundledEntry)
  · exact iff_of_true (.inl rfl) (.inl rfl)
  · rcases hc : collect (customEntry t) (customThemes t) with (_ | _) | custom
    · exact absurd hc (collect_ne_invalid hcustomEntry)
    · exact iff_of_true (.inr ⟨bundled, rfl, rfl⟩) (.inr rfl)
    · apply iff_of_false
      · rintro (h | ⟨_, -, h⟩) <;> cases h
      · rintro (h | h) <;> cases h

/-- The file that a theme is loaded from. -/
def themeText (t : Themes) (name : String) : Option Text :=
  if name = "Default Dark" then none
  else
    match (customThemes t).find? fun f => f.displayName = name ∨ f.displayName = resolveAlias name with
    | some file => some file.contents
    | none =>
      (t.bundled.find? fun theme => theme.1 = name ∨ theme.1 = resolveAlias name).map (·.2)

theorem loadThemeByName_eq_panicked_iff {t : Themes} {name : String} :
    loadThemeByName t name = .error .panicked ↔
      ∃ file, themeText t name = some file ∧ CutTheme t file := by
  unfold loadThemeByName themeText
  split_ifs with hdefault
  · simp
  · dsimp only
    cases (customThemes t).find? fun f => f.displayName = name ∨ f.displayName = resolveAlias name with
    | some file => simp [attempt_eq_panicked_iff, parseThemeFile_eq_panicked_iff]
    | none =>
      cases t.bundled.find? fun theme => theme.1 = name ∨ theme.1 = resolveAlias name with
      | some theme => simp [attempt_eq_panicked_iff, parseThemeFile_eq_panicked_iff]
      | none => simp

/-- A configuration with settings that are accepted and a theme with a colour that is cut: in a
table of its own, whose entries are sorted first, or in the file that it names. -/
def CutConfig (t : Themes) (contents : Text) : Prop :=
  ∃ entries theme, t.parse contents = some entries ∧
    readEntries rawConfigChecks entries = .ok () ∧ entries.lookup "theme" = some theme ∧
    ((∃ name file, theme = .string name ∧ themeText t name = some file ∧ CutTheme t file) ∨
      ∃ colours text, theme.toValue = .table colours ∧
        ComesTo (check readTheme) (.table colours) text ∧ Cut text)

theorem resolveTheme_eq_panicked_iff {t : Themes} {theme : Toml} :
    resolveTheme t (some theme.toValue) = .error .panicked ↔
      (∃ name file, theme = .string name ∧ themeText t name = some file ∧ CutTheme t file) ∨
      ∃ colours text, theme.toValue = .table colours ∧
        ComesTo (check readTheme) (.table colours) text ∧ Cut text := by
  have htheme {es : Entries} : readTheme (.table es) = .error .panicked ↔
      ∃ text, ComesTo (check readTheme) (.table es) text ∧ Cut text :=
    panicked_iff panicsAtCuts_theme
  cases theme with
  | string name =>
    simp [Toml.toValue, resolveTheme, map_eq_panicked_iff, loadThemeByName_eq_panicked_iff]
  | table es =>
    simp [Toml.toValue, resolveTheme, map_eq_panicked_iff, attempt_eq_panicked_iff, htheme]
  | _ => simp [Toml.toValue, resolveTheme]

theorem fromStr_eq_panicked_iff {t : Themes} {contents : Text} :
    fromStr t contents = .error .panicked ↔ CutConfig t contents := by
  rw [fromStr, CutConfig]
  cases hparse : t.parse contents with
  | none => simp
  | some entries =>
    rcases readRawConfig_cases entries with ⟨hread, raw, hraw, htheme⟩ | ⟨hread, hraw⟩
    · have hresolve : deserialize t entries = .error .panicked ↔
          resolveTheme t raw.theme = .error .panicked := by
        rw [deserialize, hraw]
        show (resolveTheme t raw.theme >>= _) = _ ↔ _
        rcases resolveTheme t raw.theme with e | ⟨theme, name⟩ <;> simp [bind, Except.bind]
      simp only [hresolve, htheme]
      cases hv : entries.lookup "theme" with
      | none => simp [resolveTheme, hv]
      | some theme =>
        simp only [Option.map_some, resolveTheme_eq_panicked_iff]
        simp [hread, hv]
    · simp [deserialize, hread, hraw, bind, Except.bind]

/-! ### Colours and files -/

/-- Without a panic, and a colour comes exactly of the texts that spell it. -/
def Exact (s : Text) : Prop :=
  Core.Rgba.fromHex s ≠ .error .panicked ∧ ∀ c, Core.Rgba.fromHex s = .ok c ↔ Core.Spells s c

/-- Colours are read exactly where no slice ends inside a character and no digit has a sign. And
the files are read without a panic exactly where reading them does not come to a colour with such a
slice. -/
theorem colours_iff (u : CaseTables) (t : Themes) (s contents : Text) :
    (Exact s ↔ ∀ digits, s = '#' :: digits →
      String.utf8Len digits = 6 ∨ String.utf8Len digits = 8 →
        ¬Core.Straddles digits ∧ ¬Core.Signed digits) ∧
    (parseThemeFile t contents ≠ .error .panicked ↔ ¬CutTheme t contents) ∧
    (loadThemeCatalog u t ≠ .error .panicked ↔ ∀ file ∈ themeFiles t, ¬CutTheme t file) ∧
    (fromStr t contents ≠ .error .panicked ↔ ¬CutConfig t contents) := by
  refine ⟨Core.fromHex_exact_iff s, parseThemeFile_eq_panicked_iff.not, ?_,
    fromStr_eq_panicked_iff.not⟩
  rw [Ne, loadThemeCatalog_eq_panicked_iff]
  simp

/-- Two characters of three bytes each are as long as six digits. -/
theorem not_exact_euro :
    ¬((∀ s, Exact s) ∧ ∀ u t contents, parseThemeFile t contents ≠ .error .panicked ∧
      loadThemeCatalog u t ≠ .error .panicked ∧ fromStr t contents ≠ .error .panicked) := by
  intro h
  exact (h.1 ['#', '€', '€']).1 (by decide)

/-- A sign in front of each digit is taken for a digit. -/
example : Core.Rgba.fromHex "#+1+2+3".toList = .ok ⟨1, 2, 3, 255⟩ := by decide

end Forgetty.ConfigFile
