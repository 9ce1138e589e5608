import Mathlib.Data.List.Nodup
import Forgetty.Config.Theme

/-! Whether every entry of the catalogue can be loaded. The catalogue skips the files that are no
themes and compares names in lower case; the loader takes the first file with the exact name, and
gives up if it is no theme. -/

namespace Forgetty.ConfigFile

open Forgetty.Core (Reads)

/-! ### What is collected -/

theorem attempt_eq_some_iff {α : Type} {r : Reads α} {a : α} :
    attempt r = .ok (some a) ↔ r = .ok a := by
  rcases r with (_ | _) | b <;> simp [attempt]

theorem attempt_eq_none_iff {α : Type} {r : Reads α} :
    attempt r = .ok none ↔ r = .error .invalid := by
  rcases r with (_ | _) | b <;> simp [attempt]

section Collect

variable {α β : Type}

/-- If no element panics, what comes of them is collected. -/
theorem collect_eq_filterMap {f : α → Reads (Option β)} {g : α → Option β} {l : List α}
    (h : ∀ a ∈ l, f a = .ok (g a)) : collect f l = .ok (l.filterMap g) := by
  induction l with
  | nil => rfl
  | cons a as ih =>
    rw [List.forall_mem_cons] at h
    rw [collect, h.1, ih h.2, List.filterMap_cons]
    cases g a <;> rfl

theorem ok_of_collect {f : α → Reads (Option β)} {l : List α} {bs : List β}
    (h : collect f l = .ok bs) : ∀ a ∈ l, ∃ b, f a = .ok b := by
  induction l generalizing bs with
  | nil => simp
  | cons a as ih =>
    rw [collect] at h
    rw [List.forall_mem_cons]
    rcases ha : f a with e | b
    · rw [ha] at h
      cases h
    · rcases has : collect f as with e | bs'
      · rw [ha, has] at h
        cases h
      · exact ⟨⟨b, rfl⟩, ih has⟩

end Collect

/-- The theme in a text, if it is one. -/
def themeOf (t : Themes) (contents : Text) : Option Theme :=
  match parseThemeFile t contents with
  | .ok theme => some theme
  | .error _ => none

theorem themeOf_eq_some_iff {t : Themes} {contents : Text} {theme : Theme} :
    themeOf t contents = some theme ↔ parseThemeFile t contents = .ok theme := by
  unfold themeOf
  rcases parseThemeFile t contents with e | theme' <;> simp

theorem previewFromToml_eq {t : Themes} {contents : Text}
    (h : parseThemeFile t contents ≠ .error .panicked) :
    previewFromToml t contents = .ok ((themeOf t contents).map Theme.preview) := by
  rw [previewFromToml, themeOf]
  rcases hp : parseThemeFile t contents with (_ | _) | theme
  · rfl
  · exact absurd hp h
  · rfl

theorem not_panicked_of_previewFromToml {t : Themes} {contents : Text}
    {preview : Option PreviewColors} (h : previewFromToml t contents = .ok preview) :
    parseThemeFile t contents ≠ .error .panicked := by
  intro hp
  rw [previewFromToml, hp] at h
  cases h

def bundledEntryOf (t : Themes) (theme : String × Text) : Option ThemeCatalogEntry :=
  (themeOf t theme.2).map fun found =>
    { name := theme.1, source := .bundled, previewColors := found.preview }

def customEntryOf (t : Themes) (file : CustomTheme) : Option ThemeCatalogEntry :=
  (themeOf t file.contents).map fun found =>
    { name := file.displayName, source := .custom file.path, previewColors := found.preview }

theorem bundledEntry_eq {t : Themes} {theme : String × Text}
    (h : parseThemeFile t theme.2 ≠ .error .panicked) :
    bundledEntry t theme = .ok (bundledEntryOf t theme) := by
  rw [bundledEntry, previewFromToml_eq h, bundledEntryOf]
  cases themeOf t theme.2 <;> rfl

theorem customEntry_eq {t : Themes} {file : CustomTheme}
    (h : parseThemeFile t file.contents ≠ .error .panicked) :
    customEntry t file = .ok (customEntryOf t file) := by
  rw [customEntry, previewFromToml_eq h, customEntryOf]
  cases themeOf t file.contents <;> rfl

/-! ### The aliases -/

section Aliases

variable (u : CaseTables) (customNames : List Text) (base : List ThemeCatalogEntry)

/-- The entry of an alias, next to the themes proper. -/
def aliasEntryOf (aliased : String × String) : Option ThemeCatalogEntry :=
  if lowerName u aliased.1 ∈ customNames ∨ base.any fun e => eqIgnoreAsciiCase e.name aliased.1 then
    none
  else (base.find? (·.name = aliased.2)).map fun upstream => { upstream with name := aliased.1 }

theorem pushAlias_append {added : List ThemeCatalogEntry} {aliased : String × String}
    (h : ∀ e ∈ added, ¬eqIgnoreAsciiCase e.name aliased.1 ∧ e.name ≠ aliased.2) :
    pushAlias u customNames (base ++ added) aliased =
      base ++ (added ++ (aliasEntryOf u customNames base aliased).toList) := by
  have hany : (base ++ added).any (fun e => eqIgnoreAsciiCase e.name aliased.1) =
      base.any fun e => eqIgnoreAsciiCase e.name aliased.1 := by
    have hnone : (added.any fun e => eqIgnoreAsciiCase e.name aliased.1) = false :=
      List.any_eq_false.mpr fun e he => (h e he).1
    rw [List.any_append, hnone, Bool.or_false]
  have hfind : (base ++ added).find? (·.name = aliased.2) = base.find? (·.name = aliased.2) := by
    have hnone : added.find? (·.name = aliased.2) = none :=
      List.find?_eq_none.mpr fun e he => by simpa using (h e he).2
    rw [List.find?_append, hnone, Option.or_none]
  unfold pushAlias aliasEntryOf
  rw [hany, hfind]
  by_cases hmem : lowerName u aliased.1 ∈ customNames
  · simp [hmem]
  · by_cases hbase : base.any fun e => eqIgnoreAsciiCase e.name aliased.1
    · simp [hbase]
    · rw [if_neg hmem, if_neg hbase, if_neg (not_or.mpr ⟨hmem, hbase⟩)]
      cases base.find? (·.name = aliased.2) <;> simp

/-- Aliases have names apart from one another and from the themes they stand for. -/
theorem foldl_pushAlias {aliases : List (String × String)}
    (h : aliases.Pairwise fun a b => ¬eqIgnoreAsciiCase a.1 b.1 ∧ a.1 ≠ b.2) :
    aliases.foldl (pushAlias u customNames) base =
      base ++ aliases.filterMap (aliasEntryOf u customNames base) := by
  suffices ∀ added : List ThemeCatalogEntry,
      (∀ e ∈ added, ∀ a ∈ aliases, ¬eqIgnoreAsciiCase e.name a.1 ∧ e.name ≠ a.2) →
      aliases.foldl (pushAlias u customNames) (base ++ added) =
        base ++ (added ++ aliases.filterMap (aliasEntryOf u customNames base)) by
    simpa using this [] (by simp)
  induction aliases with
  | nil => simp
  | cons a as ih =>
    intro added hadded
    obtain ⟨ha, has⟩ := List.pairwise_cons.mp h
    rw [List.foldl_cons, pushAlias_append _ _ _ fun e he => hadded e he a List.mem_cons_self,
      ih has, List.filterMap_cons]
    · cases aliasEntryOf u customNames base a <;> simp
    · intro e he b hb
      rcases List.mem_append.mp he with he | he
      · exact hadded e he b (List.mem_cons_of_mem _ hb)
      · have hname : e.name = a.1 := by
          rw [Option.mem_toList, aliasEntryOf] at he
          split_ifs at he
          obtain ⟨upstream, -, rfl⟩ := Option.map_eq_some_iff.mp he
          rfl
        rw [hname]
        exact ha b hb

end Aliases

theorem pairwise_themeAliases :
    themeAliases.Pairwise fun a b => ¬eqIgnoreAsciiCase a.1 b.1 ∧ a.1 ≠ b.2 := by decide

theorem eqIgnoreAsciiCase_refl (name : String) : eqIgnoreAsciiCase name name = true := by
  simp [eqIgnoreAsciiCase]

/-! ### The entries of the catalogue -/

def defaultEntry : ThemeCatalogEntry :=
  { name := "Default Dark", source := .bundled, previewColors := Theme.default.preview }

/-- The file has a theme in it. -/
def IsTheme (t : Themes) (f : CustomTheme) : Prop := ∃ theme, parseThemeFile t f.contents = .ok theme

theorem isTheme_of_customEntryOf {t : Themes} {f : CustomTheme} {e : ThemeCatalogEntry}
    (h : customEntryOf t f = some e) : IsTheme t f ∧ e.name = f.displayName := by
  obtain ⟨theme, htheme, rfl⟩ := Option.map_eq_some_iff.mp h
  exact ⟨⟨theme, themeOf_eq_some_iff.mp htheme⟩, rfl⟩

theorem customEntryOf_of_ok {t : Themes} {f : CustomTheme} {theme : Theme}
    (h : parseThemeFile t f.contents = .ok theme) :
    customEntryOf t f =
      some { name := f.displayName, source := .custom f.path, previewColors := theme.preview } := by
  rw [customEntryOf, themeOf_eq_some_iff.mpr h]
  rfl

section Entries

variable (u : CaseTables) (t : Themes)

/-- What the bundled themes are to be for the catalogue: themes under names of their own, none of
which is an alias. -/
structure BundledOk : Prop where
  distinct : (t.bundled.map fun b => lowerName u b.1).Nodup
  parses : ∀ b ∈ t.bundled, ∃ theme, parseThemeFile t b.2 = .ok theme
  notDefault : ∀ b ∈ t.bundled, b.1 ≠ "Default Dark"
  notAlias : ∀ b ∈ t.bundled, ∀ a ∈ themeAliases, ¬eqIgnoreAsciiCase b.1 a.1

/-- No theme of the user's has the name, in whatever case. -/
def Unshadowed (name : String) : Prop :=
  ∀ f ∈ customThemes t, IsTheme t f → lowerName u f.displayName ≠ lowerName u name

def customEntries : List ThemeCatalogEntry :=
  sortByName u ((customThemes t).filterMap (customEntryOf t))

def customNames : List Text := (customEntries u t).map fun e => lowerName u e.name

def bundledEntries : List ThemeCatalogEntry :=
  (sortByName u (t.bundled.filterMap (bundledEntryOf t))).filter fun e =>
    lowerName u e.name ∉ customNames u t

def baseEntries : List ThemeCatalogEntry :=
  defaultEntry :: bundledEntries u t ++ customEntries u t

def aliasEntries : List ThemeCatalogEntry :=
  themeAliases.filterMap (aliasEntryOf u (customNames u t) (baseEntries u t))

variable {u t}

theorem loadThemeCatalog_eq (hb : BundledOk u t)
    (hc : ∀ f ∈ customThemes t, parseThemeFile t f.contents ≠ .error .panicked) :
    loadThemeCatalog u t = .ok (sortByName u (baseEntries u t ++ aliasEntries u t)) := by
  have hbundled : collect (bundledEntry t) t.bundled =
      .ok (t.bundled.filterMap (bundledEntryOf t)) := by
    apply collect_eq_filterMap
    intro b hmem
    obtain ⟨theme, htheme⟩ := hb.parses b hmem
    apply bundledEntry_eq
    rw [htheme]
    exact fun h => by cases h
  have hcustom : collect (customEntry t) (customThemes t) =
      .ok ((customThemes t).filterMap (customEntryOf t)) :=
    collect_eq_filterMap fun f hf => customEntry_eq (hc f hf)
  rw [loadThemeCatalog, hbundled, hcustom]
  simp only [bind, Except.bind]
  rw [foldl_pushAlias _ _ _ pairwise_themeAliases]
  rfl

theorem mem_customEntries {e : ThemeCatalogEntry} :
    e ∈ customEntries u t ↔ ∃ f ∈ customThemes t, customEntryOf t f = some e := by
  rw [customEntries, sortByName, List.mem_mergeSort, List.mem_filterMap]

theorem not_mem_customNames_iff {name : String} :
    lowerName u name ∉ customNames u t ↔ Unshadowed u t name := by
  rw [customNames, List.mem_map]
  constructor
  · rintro h f hf ⟨theme, htheme⟩ heq
    exact h ⟨_, mem_customEntries.mpr ⟨f, hf, customEntryOf_of_ok htheme⟩, heq⟩
  · rintro h ⟨e, he, heq⟩
    obtain ⟨f, hf, hentry⟩ := mem_customEntries.mp he
    obtain ⟨htheme, hname⟩ := isTheme_of_customEntryOf hentry
    exact h f hf htheme (hname ▸ heq)

theorem mem_bundledEntries {e : ThemeCatalogEntry} :
    e ∈ bundledEntries u t ↔ ∃ b ∈ t.bundled, Unshadowed u t b.1 ∧
      ∃ theme, parseThemeFile t b.2 = .ok theme ∧
        e = { name := b.1, source := .bundled, previewColors := theme.preview } := by
  rw [bundledEntries, List.mem_filter, sortByName, List.mem_mergeSort, List.mem_filterMap,
    decide_eq_true_eq]
  constructor
  · rintro ⟨⟨b, hmem, hentry⟩, hfree⟩
    obtain ⟨theme, htheme, rfl⟩ := Option.map_eq_some_iff.mp hentry
    exact ⟨b, hmem, not_mem_customNames_iff.mp hfree, theme, themeOf_eq_some_iff.mp htheme, rfl⟩
  · rintro ⟨b, hmem, hfree, theme, htheme, rfl⟩
    refine ⟨⟨b, hmem, ?_⟩, not_mem_customNames_iff.mpr hfree⟩
    rw [bundledEntryOf, themeOf_eq_some_iff.mpr htheme]
    rfl

/-- The name of an alias that nobody uses. -/
def Free (u : CaseTables) (t : Themes) (name : String) : Prop :=
  Unshadowed u t name ∧
    ∀ f ∈ customThemes t, IsTheme t f → ¬eqIgnoreAsciiCase f.displayName name

theorem not_default_of_alias :
    ∀ a ∈ themeAliases, ¬eqIgnoreAsciiCase "Default Dark" a.1 ∧ "Default Dark" ≠ a.2 := by decide

theorem aliasEntryOf_eq_some_iff (hb : BundledOk u t) {a : String × String} (ha : a ∈ themeAliases)
    {e : ThemeCatalogEntry} :
    aliasEntryOf u (customNames u t) (baseEntries u t) a = some e ↔
      Free u t a.1 ∧ ∃ upstream, (baseEntries u t).find? (·.name = a.2) = some upstream ∧
        e = { upstream with name := a.1 } := by
  have hany : ((baseEntries u t).any fun e => eqIgnoreAsciiCase e.name a.1) = false ↔
      ∀ f ∈ customThemes t, IsTheme t f → ¬eqIgnoreAsciiCase f.displayName a.1 := by
    rw [List.any_eq_false]
    constructor
    · rintro h f hf ⟨theme, htheme⟩
      apply h { name := f.displayName, source := .custom f.path, previewColors := theme.preview }
      exact List.mem_append_right _ (mem_customEntries.mpr ⟨f, hf, customEntryOf_of_ok htheme⟩)
    · intro h e he
      rw [baseEntries, List.cons_append, List.mem_cons, List.mem_append] at he
      rcases he with rfl | he | he
      · exact (not_default_of_alias a ha).1
      · obtain ⟨b, hmem, -, theme, -, rfl⟩ := mem_bundledEntries.mp he
        exact hb.notAlias b hmem a ha
      · obtain ⟨f, hf, hentry⟩ := mem_customEntries.mp he
        obtain ⟨htheme, hname⟩ := isTheme_of_customEntryOf hentry
        exact hname ▸ h f hf htheme
  rw [aliasEntryOf, Free, ← hany, ← not_mem_customNames_iff]
  by_cases hmem : lowerName u a.1 ∈ customNames u t
  · simp [hmem]
  · cases hbase : (baseEntries u t).any fun e => eqIgnoreAsciiCase e.name a.1
    · simp [hmem, eq_comm]
    · simp [hmem]

theorem mem_aliasEntries (hb : BundledOk u t) {e : ThemeCatalogEntry} :
    e ∈ aliasEntries u t ↔ ∃ a ∈ themeAliases, Free u t a.1 ∧
      ∃ upstream, (baseEntries u t).find? (·.name = a.2) = some upstream ∧
        e = { upstream with name := a.1 } := by
  rw [aliasEntries, List.mem_filterMap]
  exact exists_congr fun a => and_congr_right fun ha => aliasEntryOf_eq_some_iff hb ha

/-! ### Names -/

theorem nodup_customEntries_iff :
    ((customEntries u t).map (·.name)).Nodup ↔
      (customThemes t).Pairwise fun f g => IsTheme t f → IsTheme t g →
        f.displayName ≠ g.displayName := by
  have hperm : (customEntries u t).Perm ((customThemes t).filterMap (customEntryOf t)) :=
    List.mergeSort_perm _ _
  rw [(hperm.map _).nodup_iff, List.Nodup, List.pairwise_map, List.pairwise_filterMap]
  apply List.Pairwise.iff
  intro f g
  constructor
  · rintro h ⟨theme, htheme⟩ ⟨theme', htheme'⟩
    exact h _ (customEntryOf_of_ok htheme) _ (customEntryOf_of_ok htheme')
  · intro h e he e' he'
    obtain ⟨htheme, hname⟩ := isTheme_of_customEntryOf he
    obtain ⟨htheme', hname'⟩ := isTheme_of_customEntryOf he'
    rw [hname, hname']
    exact h htheme htheme'

theorem nodup_bundledEntries (hb : BundledOk u t) : ((bundledEntries u t).map (·.name)).Nodup := by
  have hperm : (sortByName u (t.bundled.filterMap (bundledEntryOf t))).Perm
      (t.bundled.filterMap (bundledEntryOf t)) := List.mergeSort_perm _ _
  have hall : ((t.bundled.filterMap (bundledEntryOf t)).map (·.name)).Nodup := by
    rw [List.Nodup, List.pairwise_map, List.pairwise_filterMap]
    apply (List.pairwise_map.mp hb.distinct).imp
    intro b b' hne e he e' he' heq
    obtain ⟨theme, -, rfl⟩ := Option.map_eq_some_iff.mp he
    obtain ⟨theme', -, rfl⟩ := Option.map_eq_some_iff.mp he'
    exact hne (congrArg (lowerName u) heq)
  exact ((hperm.map _).nodup_iff.mpr hall).sublist (List.filter_sublist.map _)

theorem nodup_aliasEntries (hb : BundledOk u t) : ((aliasEntries u t).map (·.name)).Nodup := by
  rw [List.Nodup, List.pairwise_map, aliasEntries, List.pairwise_filterMap]
  apply pairwise_themeAliases.imp_of_mem
  intro a a' ha ha' hne e he e' he' heq
  obtain ⟨-, upstream, -, rfl⟩ := (aliasEntryOf_eq_some_iff hb ha).mp he
  obtain ⟨-, upstream', -, rfl⟩ := (aliasEntryOf_eq_some_iff hb ha').mp he'
  have hname : a.1 = a'.1 := heq
  rw [hname] at hne
  exact hne.1 (eqIgnoreAsciiCase_refl _)

theorem default_notMem_bundledEntries (hb : BundledOk u t) :
    "Default Dark" ∉ (bundledEntries u t).map (·.name) := by
  intro h
  obtain ⟨e, he, hname⟩ := List.mem_map.mp h
  obtain ⟨b, hmem, -, theme, -, rfl⟩ := mem_bundledEntries.mp he
  exact hb.notDefault b hmem hname

theorem default_notMem_customEntries_iff : "Default Dark" ∉ (customEntries u t).map (·.name) ↔
    ∀ f ∈ customThemes t, IsTheme t f → f.displayName ≠ "Default Dark" := by
  rw [List.mem_map, not_exists]
  constructor
  · rintro h f hf ⟨theme, htheme⟩ hname
    exact h _ ⟨mem_customEntries.mpr ⟨f, hf, customEntryOf_of_ok htheme⟩, hname⟩
  · rintro h e ⟨he, hname⟩
    obtain ⟨f, hf, hentry⟩ := mem_customEntries.mp he
    obtain ⟨htheme, hfname⟩ := isTheme_of_customEntryOf hentry
    exact h f hf htheme (hfname ▸ hname)

/-- The bundled themes with a name of the user's are left out. -/
theorem disjoint_bundled_custom :
    ((bundledEntries u t).map (·.name)).Disjoint ((customEntries u t).map (·.name)) := by
  intro name hbundled hcust
  obtain ⟨e, he, rfl⟩ := List.mem_map.mp hbundled
  obtain ⟨e', he', hname⟩ := List.mem_map.mp hcust
  obtain ⟨b, -, hfree, theme, -, rfl⟩ := mem_bundledEntries.mp he
  obtain ⟨f, hf, hentry⟩ := mem_customEntries.mp he'
  obtain ⟨htheme, hfname⟩ := isTheme_of_customEntryOf hentry
  exact hfree f hf htheme (congrArg (lowerName u) (hfname.symm.trans hname))

/-- An alias with a name of the themes proper is left out. -/
theorem disjoint_base_alias (hb : BundledOk u t) :
    ((baseEntries u t).map (·.name)).Disjoint ((aliasEntries u t).map (·.name)) := by
  intro name hbase hal
  obtain ⟨e, he, rfl⟩ := List.mem_map.mp hbase
  obtain ⟨e', he', hname⟩ := List.mem_map.mp hal
  obtain ⟨a, ha, hfree, upstream, -, rfl⟩ := (mem_aliasEntries hb).mp he'
  have hname' : a.1 = e.name := hname
  rw [baseEntries, List.cons_append, List.mem_cons, List.mem_append] at he
  rcases he with rfl | he | he
  · exact (not_default_of_alias a ha).1 (hname' ▸ eqIgnoreAsciiCase_refl _)
  · obtain ⟨b, hmem, -, theme, -, rfl⟩ := mem_bundledEntries.mp he
    exact hb.notAlias b hmem a ha (hname' ▸ eqIgnoreAsciiCase_refl _)
  · obtain ⟨f, hf, hentry⟩ := mem_customEntries.mp he
    obtain ⟨htheme, hfname⟩ := isTheme_of_customEntryOf hentry
    exact hfree.2 f hf htheme (hfname ▸ hname' ▸ eqIgnoreAsciiCase_refl _)

/-- The names are distinct if those of the user's themes are, and none of them is the default
one's. -/
theorem nodup_entries_iff (hb : BundledOk u t) :
    ((baseEntries u t ++ aliasEntries u t).map (·.name)).Nodup ↔
      ((customThemes t).Pairwise fun f g => IsTheme t f → IsTheme t g →
        f.displayName ≠ g.displayName) ∧
      ∀ f ∈ customThemes t, IsTheme t f → f.displayName ≠ "Default Dark" := by
  have halias := And.intro (nodup_aliasEntries hb) (disjoint_base_alias hb)
  rw [List.map_append, List.nodup_append', and_iff_left halias, baseEntries,
    List.cons_append, List.map_cons, List.nodup_cons, List.map_append, List.mem_append, not_or,
    List.nodup_append', nodup_customEntries_iff]
  constructor
  · rintro ⟨⟨-, hno⟩, -, hpair, -⟩
    exact ⟨hpair, default_notMem_customEntries_iff.mp hno⟩
  · rintro ⟨hpair, hno⟩
    exact ⟨⟨default_notMem_bundledEntries hb, default_notMem_customEntries_iff.mpr hno⟩,
      nodup_bundledEntries hb, hpair, disjoint_bundled_custom⟩

/-! ### Loading what the catalogue shows -/

/-- The file that is taken for a name. -/
def firstNamed (t : Themes) (name resolved : String) : Option CustomTheme :=
  (customThemes t).find? fun f => f.displayName = name ∨ f.displayName = resolved

theorem loadThemeByName_of_file {t : Themes} {name : String} (hname : name ≠ "Default Dark")
    {f : CustomTheme} (h : firstNamed t name (resolveAlias name) = some f) :
    loadThemeByName t name = attempt (parseThemeFile t f.contents) := by
  rw [firstNamed] at h
  simp only [loadThemeByName, if_neg hname, h]

theorem loadThemeByName_of_bundled {t : Themes} {name : String} (hname : name ≠ "Default Dark")
    (h : firstNamed t name (resolveAlias name) = none) {b : String × Text}
    (hfind : (t.bundled.find? fun b => b.1 = name ∨ b.1 = resolveAlias name) = some b) :
    loadThemeByName t name = attempt (parseThemeFile t b.2) := by
  rw [firstNamed] at h
  simp only [loadThemeByName, if_neg hname, h, hfind]

end Entries

/-- The catalogue can be shown, no two of its entries have the same name, and every one of them can
be loaded with the colours that it shows. -/
def CatalogueOk (u : CaseTables) (t : Themes) : Prop :=
  ∃ entries, loadThemeCatalog u t = .ok entries ∧ (entries.map (·.name)).Nodup ∧
    ∀ e ∈ entries, ∃ theme, loadThemeByName t e.name = .ok (some theme) ∧
      theme.preview = e.previewColors

/-- What the files of the user are to be. None panics. Those with a theme in them have names of
their own, other than the default one's. And the first file under the name of an entry, or under
the name that an alias stands for, is a theme with the colours of the entry. -/
structure FilesOk (u : CaseTables) (t : Themes) : Prop where
  noPanic : ∀ f ∈ customThemes t, parseThemeFile t f.contents ≠ .error .panicked
  distinct : (customThemes t).Pairwise fun f g => IsTheme t f → IsTheme t g →
    f.displayName ≠ g.displayName
  notDefault : ∀ f ∈ customThemes t, IsTheme t f → f.displayName ≠ "Default Dark"
  own : ∀ f ∈ customThemes t, ∀ theme, parseThemeFile t f.contents = .ok theme →
    ∀ g, firstNamed t f.displayName (resolveAlias f.displayName) = some g →
      ∃ theme', parseThemeFile t g.contents = .ok theme' ∧ theme'.preview = theme.preview
  bundled : ∀ b ∈ t.bundled, Unshadowed u t b.1 → ∀ f ∈ customThemes t, f.displayName ≠ b.1
  aliases : ∀ a ∈ themeAliases, Free u t a.1 →
    (∃ f ∈ customThemes t, IsTheme t f ∧ f.displayName = a.2) ∨
      (∃ b ∈ t.bundled, b.1 = a.2) ∧ Unshadowed u t a.2 →
    ∀ g, firstNamed t a.1 a.2 = some g → IsTheme t g

section Main

variable {u : CaseTables} {t : Themes}

theorem noPanic_of_loadThemeCatalog {entries : List ThemeCatalogEntry}
    (h : loadThemeCatalog u t = .ok entries) :
    ∀ f ∈ customThemes t, parseThemeFile t f.contents ≠ .error .panicked := by
  intro f hf hpanic
  rcases hb : collect (bundledEntry t) t.bundled with e | bs
  · rw [loadThemeCatalog, hb] at h
    cases h
  rcases hc : collect (customEntry t) (customThemes t) with e | cs
  · rw [loadThemeCatalog, hb, hc] at h
    cases h
  obtain ⟨entry, hentry⟩ := ok_of_collect hc f hf
  rw [customEntry, previewFromToml, hpanic] at hentry
  cases hentry

theorem find?_of_nodup {entries : List ThemeCatalogEntry} (hn : (entries.map (·.name)).Nodup)
    {e : ThemeCatalogEntry} (he : e ∈ entries) : entries.find? (·.name = e.name) = some e := by
  induction entries with
  | nil => cases he
  | cons d ds ih =>
    rw [List.map_cons, List.nodup_cons] at hn
    rcases List.mem_cons.mp he with rfl | he
    · exact List.find?_cons_of_pos (by simp)
    · rw [List.find?_cons_of_neg, ih hn.2 he]
      have hne : d.name ≠ e.name := fun heq => hn.1 (heq ▸ List.mem_map_of_mem he)
      simpa using hne

theorem resolveAlias_of_bundled (hb : BundledOk u t) {b : String × Text} (hmem : b ∈ t.bundled) :
    resolveAlias b.1 = b.1 := by
  have hnone : themeAliases.lookup b.1 = none := by
    rw [List.lookup_eq_none_iff]
    intro a ha
    rw [bne_iff_ne]
    rintro heq
    exact hb.notAlias b hmem a ha (heq ▸ eqIgnoreAsciiCase_refl _)
  rw [resolveAlias, hnone]
  rfl

theorem resolveAlias_of_alias : ∀ a ∈ themeAliases, resolveAlias a.1 = a.2 := by decide

theorem find?_bundled (hb : BundledOk u t) {b : String × Text} (hmem : b ∈ t.bundled)
    {name : String} (hname : ∀ c ∈ t.bundled, c.1 = name → c.1 = b.1) :
    (t.bundled.find? fun c => c.1 = name ∨ c.1 = b.1) = some b := by
  cases hfind : t.bundled.find? fun c => c.1 = name ∨ c.1 = b.1 with
  | none => simpa using List.find?_eq_none.mp hfind b hmem
  | some c =>
    have hc := List.mem_of_find?_eq_some hfind
    have hfirst : c.1 = name ∨ c.1 = b.1 := by simpa using List.find?_some hfind
    have heq : c.1 = b.1 := hfirst.elim (hname c hc) id
    rw [List.inj_on_of_nodup_map hb.distinct hc hmem (congrArg (lowerName u) heq)]

theorem catalogueOk_iff_entries (hb : BundledOk u t)
    (hc : ∀ f ∈ customThemes t, parseThemeFile t f.contents ≠ .error .panicked) :
    CatalogueOk u t ↔ ((baseEntries u t ++ aliasEntries u t).map (·.name)).Nodup ∧
      ∀ e ∈ baseEntries u t ++ aliasEntries u t, ∃ theme,
        loadThemeByName t e.name = .ok (some theme) ∧ theme.preview = e.previewColors := by
  have hperm : (sortByName u (baseEntries u t ++ aliasEntries u t)).Perm
      (baseEntries u t ++ aliasEntries u t) := List.mergeSort_perm _ _
  rw [CatalogueOk, loadThemeCatalog_eq hb hc]
  constructor
  · rintro ⟨entries, hload, hnodup, hall⟩
    cases hload
    exact ⟨(hperm.map _).nodup_iff.mp hnodup, fun e he => hall e (hperm.mem_iff.mpr he)⟩
  · rintro ⟨hnodup, hall⟩
    exact ⟨_, rfl, (hperm.map _).nodup_iff.mpr hnodup, fun e he => hall e (hperm.mem_iff.mp he)⟩

theorem ne_default_of_alias {a : String × String} (ha : a ∈ themeAliases) : a.1 ≠ "Default Dark" := by
  rintro heq
  exact (not_default_of_alias a ha).1 (heq ▸ eqIgnoreAsciiCase_refl _)

theorem mem_baseEntries_of_custom {f : CustomTheme} (hf : f ∈ customThemes t) {theme : Theme}
    (htheme : parseThemeFile t f.contents = .ok theme) :
    { name := f.displayName, source := .custom f.path, previewColors := theme.preview } ∈
      baseEntries u t :=
  List.mem_append_right _ (mem_customEntries.mpr ⟨f, hf, customEntryOf_of_ok htheme⟩)

theorem exists_baseEntry_of_bundled (hb : BundledOk u t) {b : String × Text} (hmem : b ∈ t.bundled)
    (hfree : Unshadowed u t b.1) : ∃ e ∈ baseEntries u t, e.name = b.1 := by
  obtain ⟨theme, htheme⟩ := hb.parses b hmem
  refine ⟨{ name := b.1, source := .bundled, previewColors := theme.preview }, ?_, rfl⟩
  exact List.mem_append_left _
    (List.mem_cons_of_mem _ (mem_bundledEntries.mpr ⟨b, hmem, hfree, theme, htheme, rfl⟩))

/-- The theme that an alias stands for is in the catalogue. -/
theorem exists_baseEntry_of_alias (hb : BundledOk u t) {name : String}
    (h : (∃ f ∈ customThemes t, IsTheme t f ∧ f.displayName = name) ∨
      (∃ b ∈ t.bundled, b.1 = name) ∧ Unshadowed u t name) :
    ∃ e ∈ baseEntries u t, e.name = name := by
  rcases h with ⟨f, hf, ⟨theme, htheme⟩, hname⟩ | ⟨⟨b, hmem, hname⟩, hshown⟩
  · exact ⟨_, mem_baseEntries_of_custom hf htheme, hname⟩
  · rw [← hname] at hshown
    obtain ⟨e, he, hename⟩ := exists_baseEntry_of_bundled hb hmem hshown
    exact ⟨e, he, hename.trans hname⟩

theorem filesOk_of_catalogueOk (hb : BundledOk u t) (h : CatalogueOk u t) : FilesOk u t := by
  obtain ⟨entries, hload, -⟩ := id h
  have hc := noPanic_of_loadThemeCatalog hload
  obtain ⟨hnodup, hall⟩ := (catalogueOk_iff_entries hb hc).mp h
  obtain ⟨hdistinct, hdefault⟩ := (nodup_entries_iff hb).mp hnodup
  have hbase : ((baseEntries u t).map (·.name)).Nodup := by
    rw [List.map_append] at hnodup
    exact (List.nodup_append'.mp hnodup).1
  constructor
  · exact hc
  · exact hdistinct
  · exact hdefault
  · intro f hf theme htheme g hg
    obtain ⟨theme', hload', hpreview⟩ :=
      hall _ (List.mem_append_left _ (mem_baseEntries_of_custom hf htheme))
    rw [loadThemeByName_of_file (hdefault f hf ⟨theme, htheme⟩) hg, attempt_eq_some_iff] at hload'
    exact ⟨theme', hload', hpreview⟩
  · intro b hmem hfree f hf hname
    obtain ⟨e, he, hename⟩ := exists_baseEntry_of_bundled hb hmem hfree
    obtain ⟨theme, hload', -⟩ := hall e (List.mem_append_left _ he)
    cases hg : firstNamed t b.1 (resolveAlias b.1) with
    | none =>
      have := List.find?_eq_none.mp hg f hf
      simp [hname] at this
    | some g =>
      rw [hename, loadThemeByName_of_file (hb.notDefault b hmem) hg, attempt_eq_some_iff] at hload'
      have hgname : g.displayName = b.1 := by
        have := List.find?_some hg
        rw [resolveAlias_of_bundled hb hmem] at this
        simpa using this
      exact hfree g (List.mem_of_find?_eq_some hg) ⟨theme, hload'⟩ (congrArg (lowerName u) hgname)
  · intro a ha hfree hupstream g hg
    obtain ⟨up, hup, hname⟩ := exists_baseEntry_of_alias hb hupstream
    have hfind := find?_of_nodup hbase hup
    rw [hname] at hfind
    have hentry := (mem_aliasEntries hb).mpr ⟨a, ha, hfree, up, hfind, rfl⟩
    obtain ⟨theme, hload', -⟩ := hall _ (List.mem_append_right _ hentry)
    rw [← resolveAlias_of_alias a ha] at hg
    rw [loadThemeByName_of_file (ne_default_of_alias ha) hg, attempt_eq_some_iff] at hload'
    exact ⟨theme, hload'⟩

theorem firstNamed_cases {name resolved : String} {g : CustomTheme}
    (h : firstNamed t name resolved = some g) :
    g ∈ customThemes t ∧ (g.displayName = name ∨ g.displayName = resolved) :=
  ⟨List.mem_of_find?_eq_some h, by simpa using List.find?_some h⟩

theorem exists_firstNamed {f : CustomTheme} (hf : f ∈ customThemes t) {name resolved : String}
    (h : f.displayName = name ∨ f.displayName = resolved) :
    ∃ g, firstNamed t name resolved = some g := by
  cases hg : firstNamed t name resolved with
  | none =>
    have := List.find?_eq_none.mp hg f hf
    simp [h] at this
  | some g => exact ⟨g, rfl⟩

/-- Two themes of the user's with one name are the same. -/
theorem eq_of_displayName (h : FilesOk u t) {f g : CustomTheme} (hf : f ∈ customThemes t)
    (hg : g ∈ customThemes t) (hft : IsTheme t f) (hgt : IsTheme t g)
    (hname : f.displayName = g.displayName) : f = g := by
  by_contra hne
  have hsymm : Std.Symm fun f g : CustomTheme => IsTheme t f → IsTheme t g →
      f.displayName ≠ g.displayName := ⟨fun _ _ h hg hf => (h hf hg).symm⟩
  exact h.distinct.forall hf hg hne hft hgt hname

/-- A file that is taken for an alias has the name that the alias stands for. -/
theorem displayName_of_alias {a : String × String} (hfree : Free u t a.1) {g : CustomTheme}
    (hg : firstNamed t a.1 a.2 = some g) (htheme : IsTheme t g) : g.displayName = a.2 := by
  obtain ⟨hgmem, hgname | hgname⟩ := firstNamed_cases hg
  · exact absurd (congrArg (lowerName u) hgname) (hfree.1 g hgmem htheme)
  · exact hgname

/-- A bundled theme is loaded under its own name, or under that of an alias. -/
theorem load_bundled (hb : BundledOk u t) {b : String × Text} (hmem : b ∈ t.bundled) {name : String}
    (hname : ∀ c ∈ t.bundled, c.1 = name → c.1 = b.1) (hne : name ≠ "Default Dark")
    (hres : resolveAlias name = b.1) (hnone : firstNamed t name (resolveAlias name) = none)
    {theme : Theme} (htheme : parseThemeFile t b.2 = .ok theme) :
    loadThemeByName t name = .ok (some theme) := by
  have hfind := find?_bundled hb hmem hname
  rw [← hres] at hfind
  rw [loadThemeByName_of_bundled hne hnone hfind]
  exact attempt_eq_some_iff.mpr htheme

theorem load_alias_of_bundled (hb : BundledOk u t) (h : FilesOk u t) {a : String × String}
    (ha : a ∈ themeAliases) (hfree : Free u t a.1) {b : String × Text} (hmem : b ∈ t.bundled)
    (hshown : Unshadowed u t b.1) (hname : b.1 = a.2) {theme : Theme}
    (htheme : parseThemeFile t b.2 = .ok theme) : loadThemeByName t a.1 = .ok (some theme) := by
  have hres := resolveAlias_of_alias a ha
  refine load_bundled hb hmem ?_ (ne_default_of_alias ha) (hres.trans hname.symm) ?_ htheme
  · intro c hc hcname
    exact absurd (hcname ▸ eqIgnoreAsciiCase_refl _) (hb.notAlias c hc a ha)
  · rw [hres]
    cases hg : firstNamed t a.1 a.2 with
    | none => rfl
    | some g =>
      have hgtheme := h.aliases a ha hfree (.inr ⟨⟨b, hmem, hname⟩, hname ▸ hshown⟩) g hg
      have hgname := displayName_of_alias hfree hg hgtheme
      exact absurd (congrArg (lowerName u) (hgname.trans hname.symm))
        (hshown g (firstNamed_cases hg).1 hgtheme)

theorem load_alias_of_custom (h : FilesOk u t) {a : String × String} (ha : a ∈ themeAliases)
    (hfree : Free u t a.1) {f : CustomTheme} (hf : f ∈ customThemes t) {theme : Theme}
    (htheme : parseThemeFile t f.contents = .ok theme) (hname : f.displayName = a.2) :
    loadThemeByName t a.1 = .ok (some theme) := by
  obtain ⟨g, hg⟩ := @exists_firstNamed t f hf a.1 a.2 (.inr hname)
  have hgtheme := h.aliases a ha hfree (.inl ⟨f, hf, ⟨theme, htheme⟩, hname⟩) g hg
  obtain rfl := eq_of_displayName h (firstNamed_cases hg).1 hf hgtheme ⟨theme, htheme⟩
    ((displayName_of_alias hfree hg hgtheme).trans hname.symm)
  rw [← resolveAlias_of_alias a ha] at hg
  rw [loadThemeByName_of_file (ne_default_of_alias ha) hg]
  exact attempt_eq_some_iff.mpr htheme

theorem catalogueOk_of_filesOk (hb : BundledOk u t) (h : FilesOk u t) : CatalogueOk u t := by
  rw [catalogueOk_iff_entries hb h.noPanic]
  refine ⟨(nodup_entries_iff hb).mpr ⟨h.distinct, h.notDefault⟩, fun e he => ?_⟩
  rcases List.mem_append.mp he with he | he
  · rw [baseEntries, List.cons_append, List.mem_cons, List.mem_append] at he
    rcases he with rfl | he | he
    · exact ⟨Theme.default, rfl, rfl⟩
    · obtain ⟨b, hmem, hfree, theme, htheme, rfl⟩ := mem_bundledEntries.mp he
      have hres := resolveAlias_of_bundled hb hmem
      have hnone : firstNamed t b.1 (resolveAlias b.1) = none := by
        rw [firstNamed, List.find?_eq_none, hres]
        exact fun f hf => by simpa using h.bundled b hmem hfree f hf
      exact ⟨theme, load_bundled hb hmem (fun c _ hc => hc) (hb.notDefault b hmem) hres hnone htheme,
        rfl⟩
    · obtain ⟨f, hf, hentry⟩ := mem_customEntries.mp he
      obtain ⟨theme, htheme, rfl⟩ := Option.map_eq_some_iff.mp hentry
      rw [themeOf_eq_some_iff] at htheme
      obtain ⟨g, hg⟩ := @exists_firstNamed t f hf f.displayName (resolveAlias f.displayName) (.inl rfl)
      obtain ⟨theme', htheme', hpreview⟩ := h.own f hf theme htheme g hg
      refine ⟨theme', ?_, hpreview⟩
      rw [loadThemeByName_of_file (h.notDefault f hf ⟨theme, htheme⟩) hg]
      exact attempt_eq_some_iff.mpr htheme'
  · obtain ⟨a, ha, hfree, up, hup, rfl⟩ := (mem_aliasEntries hb).mp he
    have hupname : up.name = a.2 := by simpa using List.find?_some hup
    have hupmem := List.mem_of_find?_eq_some hup
    rw [baseEntries, List.cons_append, List.mem_cons, List.mem_append] at hupmem
    rcases hupmem with rfl | hupmem | hupmem
    · exact absurd hupname (not_default_of_alias a ha).2
    · obtain ⟨b, hmem, hshown, theme, htheme, rfl⟩ := mem_bundledEntries.mp hupmem
      exact ⟨theme, load_alias_of_bundled hb h ha hfree hmem hshown hupname htheme, rfl⟩
    · obtain ⟨f, hf, hentry⟩ := mem_customEntries.mp hupmem
      obtain ⟨theme, htheme, rfl⟩ := Option.map_eq_some_iff.mp hentry
      rw [themeOf_eq_some_iff] at htheme
      exact ⟨theme, load_alias_of_custom h ha hfree hf htheme hupname, rfl⟩

/-- The catalogue is loadable and its names are distinct exactly if the user's files are in
order. -/
theorem catalogueOk_iff (hb : BundledOk u t) : CatalogueOk u t ↔ FilesOk u t :=
  ⟨filesOk_of_catalogueOk hb, catalogueOk_of_filesOk hb⟩

end Main

/-! ### Two files with one name -/

def sampleFile : Text :=
  "name = \"Mine\"\n[colors]\nforeground = \"#fcfcfa\"\nbackground = \"#262427\"\n".toList

/-- A bundled theme, and a directory of themes with the same contents. -/
def sampleThemes (fileNames : List Text) : Themes where
  parse contents :=
    if contents = sampleFile then
      some [("name", .string "Mine"),
        ("colors", .table [("foreground", .string "#fcfcfa"), ("background", .string "#262427")])]
    else none
  bundled := [("0x96f", sampleFile)]
  themesDir := fileNames.map fun name => { fileName := name, contents := some sampleFile }

theorem bundledOk_sampleThemes (fileNames : List Text) :
    BundledOk Grapheme.latinCases (sampleThemes fileNames) := by
  constructor
  · exact List.nodup_singleton _
  · intro b hb
    rw [List.mem_singleton.mp hb]
    exact ⟨_, rfl⟩
  · intro b hb
    rw [List.mem_singleton.mp hb]
    decide
  · intro b hb
    rw [List.mem_singleton.mp hb]
    decide

theorem catalogueOk_iff_sample :
    BundledOk Grapheme.latinCases (sampleThemes ["mine.toml".toList]) ∧
      (CatalogueOk Grapheme.latinCases (sampleThemes ["mine.toml".toList]) ↔
        FilesOk Grapheme.latinCases (sampleThemes ["mine.toml".toList])) :=
  ⟨bundledOk_sampleThemes _, catalogueOk_iff (bundledOk_sampleThemes _)⟩

/-- Two files with the same name are two entries with the same name. -/
theorem not_catalogueOk_twice :
    ¬∀ (u : CaseTables) (t : Themes), BundledOk u t → CatalogueOk u t := by
  intro h
  have hfiles := filesOk_of_catalogueOk (bundledOk_sampleThemes ["a.toml".toList, "b.toml".toList])
    (h _ _ (bundledOk_sampleThemes ["a.toml".toList, "b.toml".toList]))
  have hcustom : customThemes (sampleThemes ["a.toml".toList, "b.toml".toList]) =
      [⟨"Mine", "a.toml".toList, sampleFile⟩, ⟨"Mine", "b.toml".toList, sampleFile⟩] := by
    rfl
  have hpair := hfiles.distinct
  rw [hcustom, List.pairwise_cons] at hpair
  exact hpair.1 _ List.mem_cons_self ⟨_, rfl⟩ ⟨_, rfl⟩ rfl

end Forgetty.ConfigFile
