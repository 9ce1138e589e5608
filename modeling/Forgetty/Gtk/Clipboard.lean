import Forgetty.Lib.Gaps
import Forgetty.Core.Text

/-! The passes over a text on its way to the clipboard: box-drawing characters and blanks at
the ends of lines are stripped, and line endings made the same. None of them touches another
character, nor the blanks between two of them except to leave fewer. -/

namespace Forgetty

open Lib

/-- U+2500 to U+257F. -/
def isBoxDrawing (c : Char) : Bool := 0x2500 ≤ c.toNat && c.toNat ≤ 0x257f

/-- Characters of the text proper. -/
def isText (c : Char) : Bool := !isWhitespace c && !isBoxDrawing c

namespace Clipboard

def stripBoxDrawing (text : Text) : Text := text.filter fun c => !isBoxDrawing c

def stripTrailingWhitespace (text : Text) : Text := ['\n'].intercalate ((lines [] text).map trimEnd)

def replaceCrLf : Text → Text
  | [] => []
  | [c] => [c]
  | c :: d :: cs => if c = '\r' ∧ d = '\n' then '\n' :: replaceCrLf cs else c :: replaceCrLf (d :: cs)

def normalizeLineEndings (text : Text) : Text :=
  (replaceCrLf text).map fun c => if c = '\r' then '\n' else c

def smartCopyPipeline (text : Text) : Text :=
  normalizeLineEndings (stripTrailingWhitespace (stripBoxDrawing text))

/-! ### What the passes keep -/

/-- The characters of the text proper, each with whether a blank stands before it. -/
abbrev words (b : Bool) (text : Text) : List (Char × Bool) := marks isText isWhitespace b text

/-- Whether a blank stands behind the last character of the text proper. -/
abbrev blankPending (b : Bool) (text : Text) : Bool := pending isText isWhitespace b text

theorem words_append (b : Bool) (text text' : Text) :
    words b (text ++ text') = words b text ++ words (blankPending b text) text' := marks_append ..

theorem isText_of_isWhitespace (c : Char) (h : isWhitespace c = true) : isText c = false := by
  simp [isText, h]

theorem words_trimEnd (b : Bool) (text : Text) : words b (trimEnd text) = words b text :=
  marks_rdropWhile isText_of_isWhitespace b text

theorem isWhitespace_of_isBoxDrawing {c : Char} (h : isBoxDrawing c = true) :
    isWhitespace c = false := by
  simp only [isBoxDrawing, Bool.and_eq_true, decide_eq_true_eq] at h
  simp only [isWhitespace, Bool.or_eq_false_iff, Bool.and_eq_false_iff, decide_eq_false_iff_not,
    beq_eq_false_iff_ne, ne_eq]
  omega

theorem words_stripBoxDrawing (b : Bool) (text : Text) :
    words b (stripBoxDrawing text) = words b text := by
  refine marks_filter (fun c hc => ?_) b text
  simp only [Bool.not_eq_eq_eq_not, Bool.not_false] at hc
  exact ⟨by simp [isText, hc], isWhitespace_of_isBoxDrawing hc⟩

theorem trimEnd_stripCr (line : Text) : trimEnd (stripCr line) = trimEnd line := by
  unfold stripCr
  split_ifs with h
  · have hsplit := List.dropLast_append_getLast? '\r' h
    conv_rhs => rw [← hsplit, trimEnd, List.rdropWhile_concat_pos _ _ _ (by decide)]
    rfl
  · rfl

/-- A line break is a blank. -/
theorem words_newline (b : Bool) (text : Text) : words b ('\n' :: text) = words true text := by
  rw [words, marks_cons_of_dropped (by decide), show isWhitespace '\n' = true by decide,
    Bool.or_true]

theorem words_return (b : Bool) (text : Text) : words b ('\r' :: text) = words true text := by
  rw [words, marks_cons_of_dropped (by decide), show isWhitespace '\r' = true by decide,
    Bool.or_true]

theorem words_append_newline (b : Bool) (line text : Text) :
    words b (line ++ '\n' :: text) = words b line ++ words true text := by
  rw [words_append, words_newline]

theorem words_lines (b : Bool) (line text : Text) :
    words b (['\n'].intercalate ((lines line text).map trimEnd)) = words b (line ++ text) := by
  induction text generalizing b line with
  | nil =>
    rw [lines, List.append_nil]
    split_ifs with h
    · rw [List.isEmpty_iff.mp h]
      rfl
    · rw [List.map_singleton, List.intercalate_singleton, words_trimEnd]
  | cons c cs ih =>
    rw [lines]
    split_ifs with hc
    · subst hc
      have hrest := ih true []
      rw [List.nil_append] at hrest
      rw [List.map_cons, trimEnd_stripCr, words_append_newline, ← hrest, ← words_trimEnd b line]
      cases (lines [] cs).map trimEnd with
      | nil => simp [words, marks]
      | cons l ls =>
        rw [List.intercalate_cons_cons, List.append_assoc, List.singleton_append,
          words_append_newline]
    · rw [ih b (line ++ [c]), List.append_assoc, List.singleton_append]

theorem words_stripTrailingWhitespace (b : Bool) (text : Text) :
    words b (stripTrailingWhitespace text) = words b text := words_lines b [] text

theorem words_replaceCrLf (b : Bool) (text : Text) : words b (replaceCrLf text) = words b text := by
  induction text using replaceCrLf.induct generalizing b with
  | case1 => rfl
  | case2 c => rfl
  | case3 c d cs h ih =>
    obtain ⟨rfl, rfl⟩ := h
    rw [replaceCrLf, if_pos ⟨rfl, rfl⟩, words_newline, ih, words_return, words_newline]
  | case4 c d cs h ih =>
    rw [replaceCrLf, if_neg h]
    exact marks_cons_congr ih b c

theorem words_normalizeLineEndings (b : Bool) (text : Text) :
    words b (normalizeLineEndings text) = words b text := by
  have hreturn : isText '\n' = isText '\r' ∧ isWhitespace '\n' = isWhitespace '\r' := by decide
  rw [normalizeLineEndings, words, marks_map_of_kept, ← words, words_replaceCrLf]
  · intro c
    split_ifs with h
    · rw [h, hreturn.1]
    · rfl
  · intro c
    split_ifs with h
    · rw [h, hreturn.2]
    · rfl
  · intro c hc
    rw [if_neg]
    rintro rfl
    exact absurd hc (by decide)

/-- The clipboard gets the characters of the text, apart where they were apart. -/
theorem words_smartCopyPipeline (b : Bool) (text : Text) :
    words b (smartCopyPipeline text) = words b text := by
  rw [smartCopyPipeline, words_normalizeLineEndings, words_stripTrailingWhitespace,
    words_stripBoxDrawing]

/-! ### A single line -/

theorem mem_of_mem_trimEnd {c : Char} {text : Text} (h : c ∈ trimEnd text) : c ∈ text :=
  (List.rdropWhile_prefix _ text).subset h

theorem trimEnd_append_blank {blank : Text} (h : ∀ c ∈ blank, isWhitespace c = true) (text : Text) :
    trimEnd (text ++ blank) = trimEnd text := by
  rw [trimEnd, List.rdropWhile, List.reverse_append, List.dropWhile_append_of_pos (by simpa using h)]
  rfl

/-- Blanks at the end of a line are no box-drawing, and go in the end. -/
theorem trimEnd_stripBoxDrawing_append {blank : Text} (h : ∀ c ∈ blank, isWhitespace c = true)
    (text : Text) : trimEnd (stripBoxDrawing (text ++ blank)) = trimEnd (stripBoxDrawing text) := by
  rw [stripBoxDrawing, List.filter_append]
  exact trimEnd_append_blank (fun c hc => h c (List.mem_of_mem_filter hc)) _

theorem lines_of_no_newline {text : Text} (h : '\n' ∉ text) (line : Text) :
    lines line text = if (line ++ text).isEmpty then [] else [line ++ text] := by
  induction text generalizing line with
  | nil => rw [lines, List.append_nil]
  | cons c cs ih =>
    rw [List.mem_cons, not_or] at h
    rw [lines, if_neg (Ne.symm h.1), ih h.2, List.append_assoc, List.singleton_append]

theorem replaceCrLf_of_no_return {text : Text} (h : '\r' ∉ text) : replaceCrLf text = text := by
  induction text using replaceCrLf.induct with
  | case1 => rfl
  | case2 c => rfl
  | case3 c d cs hcr ih => exact absurd (hcr.1 ▸ List.mem_cons_self) h
  | case4 c d cs hcr ih => rw [replaceCrLf, if_neg hcr, ih fun hd => h (List.mem_cons_of_mem c hd)]

/-- A line is only stripped. -/
theorem smartCopyPipeline_line {line : Text} (hn : '\n' ∉ line) (hr : '\r' ∉ line) :
    smartCopyPipeline line = trimEnd (stripBoxDrawing line) := by
  have hmem : ∀ c ∈ trimEnd (stripBoxDrawing line), c ∈ line := fun c hc =>
    List.mem_of_mem_filter (mem_of_mem_trimEnd hc)
  have hbox : '\n' ∉ stripBoxDrawing line := fun hc => hn (List.mem_of_mem_filter hc)
  have hlines : stripTrailingWhitespace (stripBoxDrawing line) = trimEnd (stripBoxDrawing line) := by
    rw [stripTrailingWhitespace, lines_of_no_newline hbox, List.nil_append]
    split_ifs with hempty
    · rw [List.isEmpty_iff.mp hempty]
      rfl
    · rw [List.map_singleton, List.intercalate_singleton]
  rw [smartCopyPipeline, hlines, normalizeLineEndings,
    replaceCrLf_of_no_return fun hc => hr (hmem _ hc)]
  refine (List.map_congr_left fun c hc => ?_).trans (List.map_id _)
  rw [if_neg, id]
  rintro rfl
  exact hr (hmem _ hc)

end Clipboard

end Forgetty
