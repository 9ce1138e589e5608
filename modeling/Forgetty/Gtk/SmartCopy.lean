import Mathlib.Data.List.Chain
import Forgetty.Gtk.Clipboard

/-! When the text on the clipboard is clean. The lines are stripped before a carriage return
that stands alone ends a line, and a blank in front of one stays. Of the line breaks that a text
ends with, each run of the pipeline takes one. -/

namespace Forgetty

open Lib

namespace Clipboard

/-- No box-drawing, no carriage return, no blank at the end of a line, and nothing left for the
pipeline to do. -/
structure Clean (text : Text) : Prop where
  noBoxDrawing : ∀ c ∈ text, isBoxDrawing c = false
  noReturn : '\r' ∉ text
  trimmed : ∀ line ∈ lines [] text, ∀ c, line.getLast? = some c → isWhitespace c = false
  stable : smartCopyPipeline text = text

/-! ### Lines and what joins them -/

theorem trimEnd_eq_self_iff {line : Text} :
    trimEnd line = line ↔ ∀ c, line.getLast? = some c → isWhitespace c = false := by
  rw [trimEnd, List.rdropWhile_eq_self_iff]
  constructor
  · intro h c hc
    have hne : line ≠ [] := by
      rintro rfl
      cases hc
    rw [List.getLast?_eq_some_getLast hne, Option.some.injEq] at hc
    exact hc ▸ eq_false_of_ne_true (h hne)
  · intro h hne
    exact Bool.not_eq_true _ ▸ h _ (List.getLast?_eq_some_getLast hne)

theorem last_trimEnd {line : Text} {c : Char} (h : (trimEnd line).getLast? = some c) :
    isWhitespace c = false :=
  trimEnd_eq_self_iff.mp (List.rdropWhile_idempotent ..) c h

theorem mem_of_mem_stripCr {c : Char} {line : Text} (h : c ∈ stripCr line) : c ∈ line := by
  unfold stripCr at h
  split_ifs at h
  · exact List.dropLast_subset line h
  · exact h

theorem stripCr_of_no_return {line : Text} (h : '\r' ∉ line) : stripCr line = line :=
  if_neg fun hlast => h (List.mem_of_getLast? hlast)

theorem mem_lines {line text l : Text} (hline : '\n' ∉ line) (hl : l ∈ lines line text) :
    '\n' ∉ l ∧ ∀ c ∈ l, c ∈ line ++ text := by
  induction text generalizing line with
  | nil =>
    rw [lines] at hl
    split_ifs at hl
    · cases hl
    · rw [List.mem_singleton.mp hl]
      exact ⟨hline, fun c hc => List.mem_append_left _ hc⟩
  | cons d ds ih =>
    rw [lines] at hl
    split_ifs at hl with hd
    · rcases List.mem_cons.mp hl with rfl | hl
      · exact ⟨fun h => hline (mem_of_mem_stripCr h),
          fun c hc => List.mem_append_left _ (mem_of_mem_stripCr hc)⟩
      · obtain ⟨hn, hmem⟩ := ih (by simp) hl
        refine ⟨hn, fun c hc => List.mem_append_right _ (List.mem_cons_of_mem _ ?_)⟩
        simpa using hmem c hc
    · obtain ⟨hn, hmem⟩ := ih (by simpa [hline] using Ne.symm hd) hl
      exact ⟨hn, fun c hc => by simpa using hmem c hc⟩

theorem mem_intercalate {c : Char} {ls : List Text} (h : c ∈ ['\n'].intercalate ls) :
    c = '\n' ∨ ∃ l ∈ ls, c ∈ l := by
  induction ls with
  | nil => cases h
  | cons l ls ih =>
    cases ls with
    | nil => exact .inr ⟨l, List.mem_cons_self, by simpa using h⟩
    | cons l' ls =>
      rw [List.intercalate_cons_cons, List.mem_append, List.mem_append, List.mem_singleton] at h
      rcases h with (h | h) | h
      · exact .inr ⟨l, List.mem_cons_self, h⟩
      · exact .inl h
      · exact (ih h).imp_right fun ⟨l, hl, hc⟩ => ⟨l, List.mem_cons_of_mem _ hl, hc⟩

/-- The last of the joined lines ends the text. -/
theorem intercalate_concat (ls : List Text) (l : Text) :
    ['\n'].intercalate (ls ++ [l]) =
      (if ls = [] then [] else ['\n'].intercalate ls ++ ['\n']) ++ l := by
  induction ls with
  | nil => simp
  | cons k ls ih =>
    cases ls with
    | nil => simp [List.intercalate_cons_cons]
    | cons k' ls =>
      rw [List.cons_append, List.cons_append, List.intercalate_cons_cons, ← List.cons_append, ih,
        List.intercalate_cons_cons]
      simp only [reduceCtorEq, if_false, List.append_assoc]

/-- Whatever a line break may stand in front of, the lines of a text are looked at one by one. -/
theorem isChain_intercalate {R : Char → Char → Prop} (hR : ∀ d, R '\n' d) (ls : List Text) :
    (['\n'].intercalate ls ++ ['\n']).IsChain R ↔ ∀ l ∈ ls, (l ++ ['\n']).IsChain R := by
  induction ls with
  | nil => simp
  | cons l ls ih =>
    rw [List.forall_mem_cons, ← ih]
    cases ls with
    | nil => simp
    | cons l' ls =>
      rw [List.intercalate_cons_cons, List.append_assoc, List.append_assoc, List.singleton_append,
        List.isChain_split, List.isChain_cons]
      exact and_congr_right fun _ => and_iff_right fun d _ => hR d

theorem isChain_trimEnd_append {R : Char → Char → Prop}
    (hR : ∀ c, isWhitespace c = false → R c '\n') (line : Text) :
    (trimEnd line ++ ['\n']).IsChain R ↔ (trimEnd line).IsChain R := by
  rw [List.isChain_append]
  refine and_iff_left ⟨List.isChain_singleton _, fun c hc d hd => ?_⟩
  obtain rfl : '\n' = d := by simpa using hd
  exact hR c (last_trimEnd hc)

/-! ### What the pipeline gives -/

theorem isChain_of_no_newline {R : Char → Char → Prop} (hR : ∀ c d, d ≠ '\n' → R c d) {line : Text}
    (h : '\n' ∉ line) : line.IsChain R := by
  rw [List.isChain_iff_forall_rel_of_append_cons_cons]
  rintro c d l₁ l₂ rfl
  refine hR c d fun hd => h ?_
  simp [hd]

/-- A blank is no neighbour of a line break behind it, unless it is one itself. -/
abbrev Tight (c d : Char) : Prop := d = '\n' → isWhitespace c = true → c = '\n'

theorem isChain_tight_line_iff {line : Text} (h : '\n' ∉ line) :
    (line ++ ['\n']).IsChain Tight ↔ ∀ c, line.getLast? = some c → isWhitespace c = false := by
  rw [List.isChain_append]
  constructor
  · intro htight c hc
    refine eq_false_of_ne_true fun hw => h ?_
    exact htight.2.2 c hc '\n' rfl rfl hw ▸ List.mem_of_getLast? hc
  · intro htrimmed
    refine ⟨isChain_of_no_newline (fun c d hd hbreak => absurd hbreak hd) h,
      List.isChain_singleton _, fun c hc d _ _ hw => ?_⟩
    rw [htrimmed c hc] at hw
    cases hw

theorem trimmed_lines_iff {line text : Text} (hline : '\n' ∉ line) (hr : '\r' ∉ line ++ text) :
    (∀ l ∈ lines line text, ∀ c, l.getLast? = some c → isWhitespace c = false) ↔
      (line ++ (text ++ ['\n'])).IsChain Tight := by
  induction text generalizing line with
  | nil =>
    rw [lines, List.nil_append]
    split_ifs with hempty
    · rw [List.isEmpty_iff.mp hempty]
      simp
    · rw [List.forall_mem_singleton, isChain_tight_line_iff hline]
  | cons d ds ih =>
    rw [lines]
    split_ifs with hd
    · subst hd
      have hr' : '\r' ∉ line ∧ '\r' ∉ ds := by simpa using hr
      have hrest := @ih [] (by simp) (by simpa using hr'.2)
      rw [List.forall_mem_cons, stripCr_of_no_return hr'.1, ← isChain_tight_line_iff hline, hrest,
        List.nil_append, List.cons_append]
      rw [@List.isChain_split _ _ _ line (ds ++ ['\n']), @List.isChain_cons _ _ '\n' (ds ++ ['\n'])]
      exact and_congr_right fun _ => (and_iff_right fun _ _ _ _ => rfl).symm
    · have hrest := @ih (line ++ [d]) (by simpa [hline] using Ne.symm hd) (by simpa using hr)
      rw [hrest, List.append_assoc, List.singleton_append, List.cons_append]

theorem lines_ne_nil {line text : Text} (h : line ++ text ≠ []) : lines line text ≠ [] := by
  induction text generalizing line with
  | nil =>
    rw [lines, if_neg (by simpa using h)]
    exact List.cons_ne_nil _ _
  | cons d ds ih =>
    rw [lines]
    split_ifs
    · exact List.cons_ne_nil _ _
    · exact ih (by simp)

/-- Joined again, the lines give the text but for a line break at its end. -/
theorem intercalate_lines {line text : Text} (hline : '\n' ∉ line) (hr : '\r' ∉ line ++ text) :
    ['\n'].intercalate (lines line text) ++
      (if (line ++ text).getLast? = some '\n' then ['\n'] else []) = line ++ text := by
  induction text generalizing line with
  | nil =>
    rw [lines, List.append_nil, if_neg fun h => hline (List.mem_of_getLast? h), List.append_nil]
    split_ifs with hempty
    · exact (List.isEmpty_iff.mp hempty).symm
    · exact List.intercalate_singleton
  | cons d ds ih =>
    by_cases hd : d = '\n'
    · subst hd
      have hr' : '\r' ∉ line ∧ '\r' ∉ ds := by simpa using hr
      have hrest := @ih [] (by simp) (by simpa using hr'.2)
      rw [lines, if_pos rfl, stripCr_of_no_return hr'.1]
      cases ds with
      | nil => simp [lines]
      | cons e es =>
        rw [List.intercalate_cons_of_ne_nil (lines_ne_nil (by simp))]
        rw [List.nil_append] at hrest
        rw [List.getLast?_append_of_ne_nil _ (List.cons_ne_nil _ _), List.getLast?_cons_cons,
          List.append_assoc, List.append_assoc, hrest, List.singleton_append]
    · have hrest := @ih (line ++ [d]) (by simpa [hline] using Ne.symm hd) (by simpa using hr)
      rw [lines, if_neg hd]
      simpa using hrest

theorem replaceCrLf_of_isChain {text : Text}
    (h : text.IsChain fun c d => ¬(c = '\r' ∧ d = '\n')) : replaceCrLf text = text := by
  induction text using replaceCrLf.induct with
  | case1 => rfl
  | case2 c => rfl
  | case3 c d cs hcr ih => exact absurd hcr (List.isChain_cons_cons.mp h).1
  | case4 c d cs hcr ih => rw [replaceCrLf, if_neg hcr, ih (List.isChain_cons_cons.mp h).2]

/-- What is left of the lines has no carriage return before a line break. -/
theorem normalizeLineEndings_stripTrailingWhitespace (text : Text) :
    normalizeLineEndings (stripTrailingWhitespace text) =
      (stripTrailingWhitespace text).map fun c => if c = '\r' then '\n' else c := by
  have hchain : (stripTrailingWhitespace text ++ ['\n']).IsChain
      fun c d => ¬(c = '\r' ∧ d = '\n') := by
    rw [stripTrailingWhitespace, isChain_intercalate (fun d h => absurd h.1 (by decide)),
      List.forall_mem_map]
    intro line hl
    rw [isChain_trimEnd_append]
    · exact isChain_of_no_newline (fun _ _ hd => not_and_of_not_right _ hd)
        fun hmem => (mem_lines (by simp) hl).1 (mem_of_mem_trimEnd hmem)
    · rintro c hc ⟨rfl, -⟩
      exact absurd hc (by decide)
  rw [normalizeLineEndings, replaceCrLf_of_isChain (List.isChain_append.mp hchain).1]

theorem stripTrailingWhitespace_eq_self_iff {text : Text} (hr : '\r' ∉ text) :
    stripTrailingWhitespace text = text ↔
      (∀ line ∈ lines [] text, ∀ c, line.getLast? = some c → isWhitespace c = false) ∧
        text.getLast? ≠ some '\n' := by
  have hjoin := @intercalate_lines [] text (by simp) hr
  rw [List.nil_append] at hjoin
  have hmap (h : ∀ line ∈ lines [] text, ∀ c, line.getLast? = some c → isWhitespace c = false) :
      stripTrailingWhitespace text = ['\n'].intercalate (lines [] text) := by
    rw [stripTrailingWhitespace]
    congr 1
    exact (List.map_congr_left fun line hl => trimEnd_eq_self_iff.mpr (h line hl)).trans
      (List.map_id _)
  constructor
  · intro hself
    have htrimmed : ∀ line ∈ lines [] text, ∀ c, line.getLast? = some c → isWhitespace c = false := by
      rw [trimmed_lines_iff (by simp) hr, List.nil_append, ← hself, stripTrailingWhitespace,
        isChain_intercalate (fun _ _ _ => rfl), List.forall_mem_map]
      intro line hl
      rw [isChain_tight_line_iff fun hmem =>
        (mem_lines (by simp) hl).1 (mem_of_mem_trimEnd hmem)]
      exact fun c => last_trimEnd
    refine ⟨htrimmed, fun hlast => ?_⟩
    rw [if_pos hlast, ← hmap htrimmed, hself] at hjoin
    simp at hjoin
  · rintro ⟨htrimmed, hlast⟩
    rw [if_neg hlast, List.append_nil] at hjoin
    rw [hmap htrimmed, hjoin]

/-! ### A clean copy -/

theorem mem_stripTrailingWhitespace {c : Char} {text : Text}
    (h : c ∈ stripTrailingWhitespace text) : c = '\n' ∨ c ∈ text := by
  refine (mem_intercalate h).imp_right ?_
  rintro ⟨_, hl, hc⟩
  obtain ⟨line, hline, rfl⟩ := List.mem_map.mp hl
  simpa using (mem_lines (by simp) hline).2 c (mem_of_mem_trimEnd hc)

theorem no_return_smartCopyPipeline (text : Text) : '\r' ∉ smartCopyPipeline text := by
  rw [smartCopyPipeline, normalizeLineEndings_stripTrailingWhitespace, List.mem_map]
  rintro ⟨c, -, hc⟩
  split_ifs at hc with hr
  · cases hc
  · exact hr hc

theorem no_box_smartCopyPipeline {text : Text} {c : Char} (h : c ∈ smartCopyPipeline text) :
    isBoxDrawing c = false := by
  rw [smartCopyPipeline, normalizeLineEndings_stripTrailingWhitespace, List.mem_map] at h
  obtain ⟨d, hd, rfl⟩ := h
  split_ifs
  · decide
  · rcases mem_stripTrailingWhitespace hd with rfl | hd
    · decide
    · simpa using List.of_mem_filter hd

/-- Of a copied text a second run only strips the lines. -/
theorem smartCopyPipeline_of_copied {text : Text} (hbox : ∀ c ∈ text, isBoxDrawing c = false)
    (hr : '\r' ∉ text) : smartCopyPipeline text = stripTrailingWhitespace text := by
  have hnone : stripBoxDrawing text = text :=
    List.filter_eq_self.mpr fun c hc => by simpa using hbox c hc
  rw [smartCopyPipeline, hnone, normalizeLineEndings_stripTrailingWhitespace]
  refine (List.map_congr_left fun c hc => if_neg ?_).trans (List.map_id _)
  rintro rfl
  exact (mem_stripTrailingWhitespace hc).elim (by decide) hr

/-- A carriage return that stands alone has no other blank directly before it. -/
abbrev TightReturn (c d : Char) : Prop := d = '\r' → isWhitespace c = true → c = '\r'

theorem trimmed_smartCopyPipeline_iff (text : Text) :
    (∀ line ∈ lines [] (smartCopyPipeline text),
        ∀ c, line.getLast? = some c → isWhitespace c = false) ↔
      ∀ line ∈ lines [] (stripBoxDrawing text), (trimEnd line).IsChain TightReturn := by
  rw [trimmed_lines_iff (by simp) (no_return_smartCopyPipeline text), List.nil_append,
    smartCopyPipeline, normalizeLineEndings_stripTrailingWhitespace]
  have hend : ['\n'] = ['\n'].map fun c => if c = '\r' then '\n' else c := rfl
  rw [hend, ← List.map_append, List.isChain_map, stripTrailingWhitespace, isChain_intercalate,
    List.forall_mem_map]
  · refine forall₂_congr fun line hl => ?_
    rw [isChain_trimEnd_append]
    · refine List.IsChain.iff_of_mem_imp fun c d hc hd => ?_
      have hn : ∀ c ∈ trimEnd line, c ≠ '\n' := by
        rintro c hc rfl
        exact (mem_lines (by simp) hl).1 (mem_of_mem_trimEnd hc)
      have hc' := hn c hc
      have hd' := hn d hd
      by_cases hcr : c = '\r' <;> by_cases hdr : d = '\r' <;> simp [Tight, TightReturn, *]
    · intro c hc _ hw
      split_ifs at hw ⊢ with hcr
      · rfl
      · rw [hc] at hw
        cases hw
  · intro d _ _
    rfl

theorem last_smartCopyPipeline_iff (text : Text) :
    (smartCopyPipeline text).getLast? ≠ some '\n' ↔
      ∀ init last, lines [] (stripBoxDrawing text) = init ++ [last] →
        init = [] ∨ ∃ c ∈ last, isWhitespace c = false := by
  rw [smartCopyPipeline, normalizeLineEndings_stripTrailingWhitespace, stripTrailingWhitespace]
  rcases List.eq_nil_or_concat (lines [] (stripBoxDrawing text)) with hnil | ⟨init, last, hlast⟩
  · simp [hnil]
  · rw [List.concat_eq_append] at hlast
    have hblank : trimEnd last = [] ↔ ¬∃ c ∈ last, isWhitespace c = false := by
      simp [trimEnd, List.rdropWhile_eq_nil_iff]
    have hjoin : (∀ init' last', init ++ [last] = init' ++ [last'] →
        init' = [] ∨ ∃ c ∈ last', isWhitespace c = false) ↔ init = [] ∨ trimEnd last ≠ [] := by
      rw [ne_eq, hblank, not_not]
      constructor
      · exact fun h => h init last rfl
      · rintro h init' last' heq
        obtain ⟨rfl, hl⟩ := List.append_inj' heq rfl
        obtain rfl : last = last' := by simpa using hl
        exact h
    rw [hlast, hjoin, List.map_append, List.map_singleton, intercalate_concat, List.getLast?_map]
    rcases List.eq_nil_or_concat (trimEnd last) with hempty | ⟨ds, d, hd⟩
    · rw [hempty, List.append_nil]
      by_cases hinit : init = []
      · simp [hinit]
      · simp [hinit]
    · rw [List.concat_eq_append] at hd
      have hw : isWhitespace d = false := @last_trimEnd last d (by rw [hd]; simp)
      have hd' : d ≠ '\n' ∧ d ≠ '\r' := by
        constructor <;> rintro rfl <;> exact absurd hw (by decide)
      simp [hd, ← List.append_assoc, hd'.1, hd'.2]

/-- The copy is clean if in no line a blank stands before a carriage return and something else
behind it, and if the last line is not blank, or is all there is. -/
theorem clean_smartCopyPipeline_iff (text : Text) :
    Clean (smartCopyPipeline text) ↔
      (∀ line ∈ lines [] (stripBoxDrawing text), (trimEnd line).IsChain TightReturn) ∧
      ∀ init last, lines [] (stripBoxDrawing text) = init ++ [last] →
        init = [] ∨ ∃ c ∈ last, isWhitespace c = false := by
  have hr := no_return_smartCopyPipeline text
  have hself := smartCopyPipeline_of_copied (fun c => no_box_smartCopyPipeline) hr
  have hstrip := stripTrailingWhitespace_eq_self_iff hr
  rw [← trimmed_smartCopyPipeline_iff, ← last_smartCopyPipeline_iff, ← hstrip]
  constructor
  · exact fun h => hself.symm.trans h.stable
  · exact fun h => ⟨fun c => no_box_smartCopyPipeline, hr, (hstrip.mp h).1, hself.trans h⟩

/-- A blank in front of a carriage return comes to stand at the end of a line, and only a second
run takes it away. -/
theorem not_clean_smartCopyPipeline_return :
    ¬∀ text, Clean (smartCopyPipeline text) := by
  intro h
  have hstable := (h ['a', ' ', '\r', 'b']).stable
  exact absurd hstable (by decide)

end Clipboard

end Forgetty
