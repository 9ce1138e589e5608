import Forgetty.Gtk.Clipboard
import Forgetty.Gtk.CopySelection

/-! The text of a copied selection. The rows are joined, those that are wrapped without a line
break and without the indentation of the row that goes on. What is copied has the selected
characters in order, and they are apart where they were, unless all that was between them was
such an indentation. -/

namespace Forgetty

open Lib Vt Clipboard

namespace CopySelection

/-- The joined rows, behind one that is wrapped or not. -/
def joinLines : Bool → List CopiedRow → Text
  | _, [] => []
  | continued, row :: rows =>
    let text := if continued then trimStart row.line else row.line
    if row.isWrapped then
      let trimmed := trimEnd text
      trimmed ++ (if trimmed.length < text.length then [' '] else []) ++ joinLines true rows
    else text ++ (if rows.isEmpty then [] else ['\n']) ++ joinLines false rows

/-- What is put on the clipboard, if anything is. -/
def clipboardText (lines : List CopiedRow) : Option Text :=
  let rawText := joinLines false lines
  if rawText.isEmpty then none
  else
    let cleaned := smartCopyPipeline rawText
    if cleaned.isEmpty then none else some cleaned

def copySelection (sel : Selection) (rounds : ℕ) (t : Scrollback) :
    Option (Scrollback × Option Text) :=
  (copyRows sel rounds t).map fun (t, lines) => (t, clipboardText lines)

/-! ### The selection -/

/-- What a selection consists of: the characters of its cells, and the ends of its rows. A
character may belong to the indentation of a row that goes on from the one before. -/
inductive SelectedItem where
  | char (c : Char) (indent : Bool)
  | rowEnd (wrapped : Bool)
  deriving DecidableEq, Repr

namespace SelectedItem

def char? : SelectedItem → Option Char
  | char c _ => some c
  | rowEnd _ => none

def isText : SelectedItem → Bool
  | char c _ => Forgetty.isText c
  | rowEnd _ => false

def isBlank : SelectedItem → Bool
  | char c _ => isWhitespace c
  | rowEnd _ => false

def isRowEnd : SelectedItem → Bool
  | char _ _ => false
  | rowEnd _ => true

/-- Indentations and the ends of wrapped rows are no separators. -/
def separates : SelectedItem → Bool
  | char c indent => isWhitespace c && !indent
  | rowEnd wrapped => !wrapped

end SelectedItem

/-- The text of the cells of a row that are in the selection. -/
def selectedText (sel : Selection) (absRow : ℕ) (cells : List Cell) : Text :=
  (cells.zipIdx.filter fun (_, col) => sel.contains absRow col).flatMap (·.1.grapheme)

/-- A selected row of the terminal. -/
def selectedRow (sel : Selection) (t : Scrollback) (absRow : ℕ) : CopiedRow :=
  let cells := (t.rows[absRow]?.map (·.cells)).getD []
  let flag := (t.rows[absRow]?.map (·.wrapped)).getD false
  { absRow := absRow
    line := selectedText sel absRow cells
    isWrapped := isWrapped sel t.cols absRow cells flag }

def selectedRows (sel : Selection) (t : Scrollback) : List CopiedRow :=
  (List.range' sel.startRow (sel.endRow + 1 - sel.startRow)).map (selectedRow sel t)

def rowItems (continued : Bool) (line : Text) : List SelectedItem :=
  if continued then
    (line.takeWhile isWhitespace).map (.char · true) ++ (trimStart line).map (.char · false)
  else line.map (.char · false)

def items : Bool → List CopiedRow → List SelectedItem
  | _, [] => []
  | continued, row :: rows =>
    rowItems continued row.line ++ (if rows.isEmpty then [] else [.rowEnd row.isWrapped]) ++
      items row.isWrapped rows

/-! ### What is to hold -/

/-- Blanks between two characters are not all lost, and two that follow one another in a row
stay together. -/
structure Parted (between : List SelectedItem) (between' : Text) : Prop where
  apart : between.any (·.isBlank) = true → between'.any isWhitespace = true
  together : (∀ i ∈ between, i.isBlank = false ∧ i.isRowEnd = false) →
    between'.any isWhitespace = false

/-- The text has the characters of the selection, in order, and between every two of them what
it should have. -/
structure Carries (selected : List SelectedItem) (text : Text) : Prop where
  chars : (gaps SelectedItem.isText [] selected).map (·.1.char?) =
    (gaps isText [] text).map fun g => some g.1
  between : List.Forall₂ Parted ((gaps SelectedItem.isText [] selected).tail.map (·.2))
    ((gaps isText [] text).tail.map (·.2))

/-- All blanks are indentations of rows that go on, and no row ends otherwise. -/
structure OnlyIndented (between : List SelectedItem) : Prop where
  blank : between.any (·.isBlank) = true
  indented : ∀ i ∈ between, i.separates = false

/-! ### Joining rows -/

/-- The text of a row behind one that is wrapped or not. -/
def rowText (continued : Bool) (line : Text) : Text := if continued then trimStart line else line

abbrev itemMarks (b : Bool) (selected : List SelectedItem) : List (SelectedItem × Bool) :=
  marks SelectedItem.isText SelectedItem.separates b selected

abbrev itemPending (b : Bool) (selected : List SelectedItem) : Bool :=
  pending SelectedItem.isText SelectedItem.separates b selected

theorem itemMarks_append (b : Bool) (selected selected' : List SelectedItem) :
    itemMarks b (selected ++ selected') =
      itemMarks b selected ++ itemMarks (itemPending b selected) selected' := marks_append ..

/-- An item and its mark as the text has them. -/
def wordOf (m : SelectedItem × Bool) : Option Char × Bool := (m.1.char?, m.2)

theorem itemMarks_plain (b : Bool) (text : Text) :
    (itemMarks b (text.map (.char · false))).map wordOf =
      (words b text).map fun m => (some m.1, m.2) := by
  rw [itemMarks, marks_map, List.map_map]
  simp only [SelectedItem.isText, SelectedItem.separates, Bool.not_false, Bool.and_true]
  rfl

theorem itemPending_plain (b : Bool) (text : Text) :
    itemPending b (text.map (.char · false)) = blankPending b text := by
  rw [itemPending, pending_map]
  simp [SelectedItem.isText, SelectedItem.separates]

theorem isText_indent (line : Text) : ∀ i ∈ (line.takeWhile isWhitespace).map
    (SelectedItem.char · true), i.isText = false := by
  intro i hi
  obtain ⟨c, hc, rfl⟩ := List.mem_map.mp hi
  exact isText_of_isWhitespace c (List.mem_takeWhile_imp hc)

theorem separates_indent (line : Text) : ((line.takeWhile isWhitespace).map
    (SelectedItem.char · true)).any SelectedItem.separates = false := by
  simp [SelectedItem.separates]

theorem itemMarks_rowItems (continued b : Bool) (line : Text) :
    (itemMarks b (rowItems continued line)).map wordOf =
      (words b (rowText continued line)).map fun m => (some m.1, m.2) := by
  cases continued with
  | false => exact itemMarks_plain b line
  | true =>
    simp only [rowItems, if_true]
    rw [itemMarks, marks_append, marks_of_dropped (isText_indent line),
      pending_of_dropped (isText_indent line), separates_indent, Bool.or_false, List.nil_append]
    exact itemMarks_plain b (trimStart line)

theorem itemPending_rowItems (continued b : Bool) (line : Text) :
    itemPending b (rowItems continued line) = blankPending b (rowText continued line) := by
  cases continued with
  | false => exact itemPending_plain b line
  | true =>
    simp only [rowItems, if_true]
    rw [itemPending, pending_append, pending_of_dropped (isText_indent line), separates_indent,
      Bool.or_false]
    exact itemPending_plain b (trimStart line)

/-- The end of a row stands between characters if the row is not wrapped. -/
theorem itemMarks_rowEnd (b wrapped : Bool) (selected : List SelectedItem) :
    itemMarks b (.rowEnd wrapped :: selected) = itemMarks (b || !wrapped) selected := by
  rw [itemMarks, marks_cons_of_dropped rfl]
  rfl

/-- What is left of a wrapped row, with one blank for those at its end. -/
def joinedRow (text : Text) : Text :=
  trimEnd text ++ if (trimEnd text).length < text.length then [' '] else []

theorem words_joinedRow (b : Bool) (text : Text) : words b (joinedRow text) = words b text := by
  have hblank : ∀ c ∈ (if (trimEnd text).length < text.length then [' '] else [] : Text),
      isText c = false := by
    intro c hc
    split_ifs at hc with h
    · obtain rfl := List.mem_singleton.mp hc
      decide
    · cases hc
  rw [joinedRow, words_append, words_trimEnd, words, words, marks_of_dropped hblank,
    List.append_nil]

theorem blankPending_joinedRow (b : Bool) (text : Text) :
    blankPending b (joinedRow text) = blankPending b text :=
  pending_rdropWhile_append isText_of_isWhitespace (by decide) b text

theorem joinLines_cons (continued : Bool) (row : CopiedRow) (rows : List CopiedRow) :
    joinLines continued (row :: rows) =
      if row.isWrapped then joinedRow (rowText continued row.line) ++ joinLines true rows
      else rowText continued row.line ++ (if rows.isEmpty then [] else ['\n']) ++
        joinLines false rows := by
  rw [joinLines]
  rfl

/-- The joined rows have the words of the selection. -/
theorem itemMarks_items (continued b : Bool) (rows : List CopiedRow) :
    (itemMarks b (items continued rows)).map wordOf =
      (words b (joinLines continued rows)).map fun m => (some m.1, m.2) := by
  induction rows generalizing continued b with
  | nil => rfl
  | cons row rows ih =>
    have hrow := itemMarks_rowItems continued b row.line
    have hpending := itemPending_rowItems continued b row.line
    rw [items, joinLines_cons, List.append_assoc, itemMarks_append, List.map_append, hrow, hpending]
    cases hw : row.isWrapped with
    | true =>
      rw [if_pos rfl, words_append, List.map_append, words_joinedRow, blankPending_joinedRow, ← ih]
      congr 1
      cases rows with
      | nil => rfl
      | cons r rs =>
        rw [List.isEmpty_cons, if_neg (by simp), List.singleton_append, itemMarks_rowEnd,
          Bool.not_true, Bool.or_false]
    | false =>
      rw [if_neg Bool.false_ne_true]
      cases rows with
      | nil => simp [items, joinLines, marks]
      | cons r rs =>
        rw [List.isEmpty_cons, if_neg (by simp), if_neg (by simp), List.singleton_append,
          List.append_assoc, List.singleton_append, words_append_newline, List.map_append, ← ih,
          itemMarks_rowEnd, Bool.not_false, Bool.or_true]

/-- Also where it is empty, the text put on the clipboard has the words of the joined rows. -/
theorem words_clipboardText (lines : List CopiedRow) :
    words false ((clipboardText lines).getD []) = words false (joinLines false lines) := by
  simp only [clipboardText]
  split_ifs with hraw hcleaned
  · rw [List.isEmpty_iff.mp hraw]
    rfl
  · have hwords := words_smartCopyPipeline false (joinLines false lines)
    rw [List.isEmpty_iff.mp hcleaned] at hwords
    exact hwords
  · exact words_smartCopyPipeline false _

theorem getD_clipboardText (lines : List CopiedRow) :
    (clipboardText lines).getD [] = smartCopyPipeline (joinLines false lines) := by
  simp only [clipboardText]
  split_ifs with hraw hcleaned
  · rw [List.isEmpty_iff.mp hraw]
    rfl
  · exact (List.isEmpty_iff.mp hcleaned).symm
  · rfl

/-- A row on its own is stripped, wrapped or not. -/
theorem getD_clipboardText_row {row : CopiedRow} (hn : '\n' ∉ row.line) (hr : '\r' ∉ row.line) :
    (clipboardText [row]).getD [] = trimEnd (stripBoxDrawing row.line) := by
  rw [getD_clipboardText, joinLines_cons, rowText, if_neg Bool.false_ne_true]
  cases hw : row.isWrapped with
  | true =>
    have hmem : ∀ c ∈ joinedRow row.line, c ∈ row.line ∨ c = ' ' := by
      intro c hc
      rcases List.mem_append.mp hc with hc | hc
      · exact .inl (mem_of_mem_trimEnd hc)
      · split_ifs at hc
        · exact .inr (List.mem_singleton.mp hc)
        · cases hc
    have hbreak : ∀ c ∈ [('\n' : Char), '\r'], c ∉ row.line → c ∉ joinedRow row.line := by
      intro c hc hline hjoined
      rcases hmem c hjoined with h | rfl
      · exact hline h
      · exact absurd hc (by decide)
    have hend : trimEnd row.line ++ row.line.rtakeWhile isWhitespace = row.line :=
      List.rdropWhile_append_rtakeWhile
    rw [if_pos rfl, joinLines, List.append_nil, smartCopyPipeline_line (hbreak _ (by simp) hn)
      (hbreak _ (by simp) hr), joinedRow, trimEnd_stripBoxDrawing_append]
    · conv_rhs => rw [← hend, trimEnd_stripBoxDrawing_append fun c hc => List.mem_rtakeWhile_imp hc]
    · intro c hc
      split_ifs at hc
      · rw [List.mem_singleton.mp hc]
        decide
      · cases hc
  | false => simp [joinLines, smartCopyPipeline_line hn hr]

/-! ### Selected cells -/

/-- The elements at the places of an interval are cut out by its bounds. -/
theorem filter_zipIdx_interval {α : Type*} (l : List α) (k a b : ℕ) :
    ((l.zipIdx k).filter fun (_, i) => a ≤ i ∧ i < b).map Prod.fst =
      (l.take (b - k)).drop (a - k) := by
  induction l generalizing k with
  | nil => simp
  | cons x l ih =>
    rw [List.zipIdx_cons, List.filter_cons]
    by_cases hb : k < b
    · rw [show b - k = b - (k + 1) + 1 by omega, List.take_succ_cons]
      by_cases ha : a ≤ k
      · rw [if_pos (by simp [ha, hb]), List.map_cons, ih, show a - k = 0 by omega,
          show a - (k + 1) = 0 by omega]
        rfl
      · rw [if_neg (by simp [ha]), ih, show a - k = a - (k + 1) + 1 by omega, List.drop_succ_cons]
    · rw [if_neg (by simp [hb]), ih, show b - k = 0 by omega, show b - (k + 1) = 0 by omega]
      simp

/-- The columns read are those in the selection. -/
theorem contains_iff {sel : Selection} {absRow col numCols : ℕ} (hcol : col < numCols)
    (hstart : sel.startRow ≤ absRow) (hend : absRow ≤ sel.endRow) :
    sel.contains absRow col = true ↔ (columns sel numCols absRow).1 ≤ col ∧
      col < min (columns sel numCols absRow).2 (numCols - 1) + 1 := by
  unfold Selection.contains columns
  cases sel.mode with
  | normal => split_ifs <;> simp only [decide_eq_true_eq] <;> omega
  | word => split_ifs <;> simp only [decide_eq_true_eq] <;> omega
  | block =>
    simp only [decide_eq_true_eq]
    omega
  | line =>
    simp only [decide_eq_true_eq]
    omega

/-- The copied line is made of the cells in the selection. -/
theorem selectedLine_eq {sel : Selection} {absRow numCols : ℕ} {cells : List Cell}
    (hlen : cells.length = numCols) (hstart : sel.startRow ≤ absRow) (hend : absRow ≤ sel.endRow) :
    selectedLine sel numCols absRow cells = selectedText sel absRow cells := by
  have hfilter : (cells.zipIdx.filter fun (_, col) => sel.contains absRow col) =
      cells.zipIdx.filter fun (_, col) => (columns sel numCols absRow).1 ≤ col ∧
        col < min (columns sel numCols absRow).2 (numCols - 1) + 1 := by
    refine List.filter_congr fun c hc => ?_
    have hcol : c.2 < numCols := by
      have := List.snd_lt_of_mem_zipIdx hc
      omega
    rw [Bool.eq_iff_iff, contains_iff hcol hstart hend, decide_eq_true_eq]
  have hcut := filter_zipIdx_interval cells 0 (columns sel numCols absRow).1
    (min (columns sel numCols absRow).2 (numCols - 1) + 1)
  rw [Nat.sub_zero, Nat.sub_zero] at hcut
  simp only [selectedText, selectedLine]
  rw [hfilter, hlen, ← hcut, List.flatMap_map]

theorem copiedRow_eq {sel : Selection} {t : Scrollback} {absRow : ℕ}
    (her : sel.endRow < t.rows.length) (hstart : sel.startRow ≤ absRow)
    (hend : absRow ≤ sel.endRow) : copiedRow sel t absRow = selectedRow sel t absRow := by
  have hrow : t.rows[absRow]? = some t.rows[absRow] := List.getElem?_eq_getElem (by omega)
  have hlen := t.length_cells _ (List.mem_of_getElem? hrow)
  rw [copiedRow, selectedRow, readRow]
  simp only [hrow, Option.map_some, Option.getD_some]
  rw [selectedLine_eq hlen hstart hend]

/-- The rows read are the selected ones. -/
theorem readPages_selectedRows {sel : Selection} {t : Scrollback}
    (her : sel.endRow < t.rows.length) : ∃ rounds u,
      readPages sel rounds sel.startRow t [] = some (u, selectedRows sel t) := by
  obtain ⟨u, hpages, -, -⟩ := readPages_spec her
    (Nat.lt_succ_self (sel.endRow + 1 - sel.startRow)) []
  have hrows : (List.range' sel.startRow (sel.endRow + 1 - sel.startRow)).map (copiedRow sel t) =
      selectedRows sel t := by
    refine List.map_congr_left fun r hr => ?_
    rw [List.mem_range'_1] at hr
    exact copiedRow_eq her hr.1 (by omega)
  rw [List.nil_append, hrows] at hpages
  exact ⟨_, u, hpages⟩

/-- The copy of rows that exist ends, with the text that their join gives. -/
theorem copySelection_some {sel : Selection} {t : Scrollback} (her : sel.endRow < t.rows.length) :
    ∃ rounds t', copySelection sel rounds t = some (t', clipboardText (selectedRows sel t)) := by
  obtain ⟨rounds, u, hpages⟩ := readPages_selectedRows her
  refine ⟨rounds, scrollTo t.offset u, ?_⟩
  rw [copySelection, copyRows, hpages]
  rfl

theorem copySelection_eq {sel : Selection} {t t' : Scrollback} {rounds : ℕ} {text : Option Text}
    (her : sel.endRow < t.rows.length) (h : copySelection sel rounds t = some (t', text)) :
    text = clipboardText (selectedRows sel t) := by
  obtain ⟨rounds', u, hpages⟩ := readPages_selectedRows her
  simp only [copySelection, copyRows, Option.map_map, Option.map_eq_some_iff] at h
  obtain ⟨result, hresult, heq⟩ := h
  rw [readPages_unique hresult hpages] at heq
  exact (Prod.mk.inj heq).2.symm

/-! ### What stands between two characters -/

/-- A relation that looks only at a property of the second list that is also one of the first. -/
theorem forall₂_iff_of_map_eq {α β : Type*} {R : α → β → Prop} {Q : α → Bool → Prop} {p : α → Bool}
    {q : β → Bool} (hR : ∀ a b, R a b ↔ Q a (q b)) {l : List α} {m : List β}
    (h : l.map p = m.map q) : List.Forall₂ R l m ↔ ∀ a ∈ l, Q a (p a) := by
  induction l generalizing m with
  | nil =>
    obtain rfl := List.map_eq_nil_iff.mp h.symm
    simp
  | cons a l ih =>
    cases m with
    | nil => simp at h
    | cons b m =>
      rw [List.map_cons, List.map_cons, List.cons.injEq] at h
      rw [List.forall₂_cons, ih h.2, hR, ← h.1, List.forall_mem_cons]

/-- An item separates if it is a blank in its own right or the end of a row of its own. -/
theorem separates_eq_false {i : SelectedItem} (h : i.isBlank = false) (hrow : i.isRowEnd = false) :
    i.separates = false := by
  cases i with
  | char c indent =>
    simp only [SelectedItem.isBlank] at h
    simp [SelectedItem.separates, h]
  | rowEnd wrapped => simp [SelectedItem.isRowEnd] at hrow

/-- With a mark where something separates, only blanks that are all indentations are lost. -/
theorem parted_iff (between : List SelectedItem) :
    ((between.any (·.isBlank) = true → between.any (·.separates) = true) ∧
      ((∀ i ∈ between, i.isBlank = false ∧ i.isRowEnd = false) →
        between.any (·.separates) = false)) ↔ ¬ OnlyIndented between := by
  have htogether : (∀ i ∈ between, i.isBlank = false ∧ i.isRowEnd = false) →
      between.any (·.separates) = false := by
    intro h
    rw [List.any_eq_false]
    intro i hi
    rw [separates_eq_false (h i hi).1 (h i hi).2]
    exact Bool.false_ne_true
  rw [and_iff_left htogether]
  constructor
  · intro h hindented
    obtain ⟨i, hi, hs⟩ := List.any_eq_true.mp (h hindented.blank)
    rw [hindented.indented i hi] at hs
    cases hs
  · intro h hblank
    by_contra hs
    refine h ⟨hblank, fun i hi => ?_⟩
    rw [Bool.not_eq_true, List.any_eq_false] at hs
    exact Bool.eq_false_iff.mpr (hs i hi)

/-- A text with the words of a selection carries it, unless somewhere all blanks between two
characters are indentations of rows that go on. -/
theorem carries_iff {selected : List SelectedItem} {text : Text}
    (h : (itemMarks false selected).map wordOf = (words false text).map fun m => (some m.1, m.2)) :
    Carries selected text ↔
      ∀ g ∈ (gaps SelectedItem.isText [] selected).tail, ¬ OnlyIndented g.2 := by
  set sg := gaps SelectedItem.isText [] selected with hsg
  set tg := gaps isText [] text with htg
  have hmarks : sg.map (fun g => (g.1.char?, g.2.any SelectedItem.separates)) =
      tg.map fun g => (some g.1, g.2.any isWhitespace) := by
    have hs : (gaps SelectedItem.isText [] selected).map
        (fun g => (g.1, g.2.any SelectedItem.separates)) = itemMarks false selected :=
      map_gaps [] selected
    have ht : (gaps isText [] text).map (fun g => (g.1, g.2.any isWhitespace)) =
      words false text := map_gaps [] text
    rw [← hs, ← ht, List.map_map, List.map_map] at h
    exact h
  have hchars : sg.map (·.1.char?) = tg.map fun g => some g.1 := by
    have := congrArg (List.map Prod.fst) hmarks
    rwa [List.map_map, List.map_map] at this
  have hbetween : (sg.tail.map (·.2)).map (·.any SelectedItem.separates) =
      (tg.tail.map (·.2)).map (·.any isWhitespace) := by
    have := congrArg (fun l => (l.map Prod.snd).tail) hmarks
    simp only [List.map_map] at this
    rw [List.map_map, List.map_map, List.map_tail, List.map_tail]
    exact this
  have hiff := forall₂_iff_of_map_eq (R := Parted)
    (Q := fun between b => (between.any (·.isBlank) = true → b = true) ∧
      ((∀ i ∈ between, i.isBlank = false ∧ i.isRowEnd = false) → b = false))
    (fun _ _ => ⟨fun p => ⟨p.apart, p.together⟩, fun p => ⟨p.1, p.2⟩⟩) hbetween
  have hforall : Carries selected text ↔ List.Forall₂ Parted (sg.tail.map (·.2)) (tg.tail.map (·.2)) :=
    ⟨fun c => c.between, fun hb => ⟨hchars, hb⟩⟩
  rw [hforall, hiff, List.forall_mem_map]
  exact forall₂_congr fun g _ => parted_iff g.2

/-- For a selection whose rows exist there is a text to be copied, and it carries the selection
exactly if nowhere in it all that is between two characters is blanks that are the indentation
of rows that go on. -/
theorem copySelection_carries_iff {sel : Selection} {t : Scrollback}
    (her : sel.endRow < t.rows.length) :
    (∃ rounds t' text, copySelection sel rounds t = some (t', text)) ∧
      ∀ rounds t' text, copySelection sel rounds t = some (t', text) →
        (Carries (items false (selectedRows sel t)) (text.getD []) ↔
          ∀ g ∈ (gaps SelectedItem.isText [] (items false (selectedRows sel t))).tail,
            ¬ OnlyIndented g.2) := by
  obtain ⟨rounds, t', hcopy⟩ := copySelection_some her
  refine ⟨⟨rounds, t', _, hcopy⟩, fun rounds t' text h => carries_iff ?_⟩
  rw [copySelection_eq her h, words_clipboardText, itemMarks_items]

def letters (text : Text) : List Cell := text.map fun c => { grapheme := [c], attrs := {} }

/-- Two rows of two columns, the first one wrapped. -/
def wrappedRows (first second : Char × Char) : Scrollback where
  rows := [{ cells := letters [first.1, first.2], wrapped := true },
    { cells := letters [second.1, second.2], wrapped := false }]
  cols := 2
  offset := 0
  len := 2
  len_pos := by decide
  len_le := by simp
  offset_le := by simp
  rows_lt := by simp
  length_cells := by simp [letters]
  grapheme_ne_nil := by simp [letters]

def bothRows : Selection := { start := (0, 0), stop := (1, 1), mode := .normal }

theorem copySelection_carries_abc :
    (∃ rounds t' text, copySelection bothRows rounds (wrappedRows ('a', ' ') ('b', 'c')) =
      some (t', text)) ∧
      ∀ rounds t' text,
        copySelection bothRows rounds (wrappedRows ('a', ' ') ('b', 'c')) = some (t', text) →
        (Carries (items false (selectedRows bothRows (wrappedRows ('a', ' ') ('b', 'c'))))
          (text.getD []) ↔
          ∀ g ∈ (gaps SelectedItem.isText []
            (items false (selectedRows bothRows (wrappedRows ('a', ' ') ('b', 'c'))))).tail,
            ¬ OnlyIndented g.2) :=
  copySelection_carries_iff (by decide)

/-- The blank at the beginning of the second row is lost, and two words become one. -/
theorem not_carries_indent : ¬ ∀ sel t, sel.endRow < t.rows.length → ∀ rounds t' text,
    copySelection sel rounds t = some (t', text) →
      Carries (items false (selectedRows sel t)) (text.getD []) := by
  intro h
  have hcarries := h bothRows (wrappedRows ('a', 'b') (' ', 'c')) (by decide) 2 _ _ rfl
  have hbetween : List.Forall₂ Parted [[], [.rowEnd true, .char ' ' true]] [[], []] :=
    hcarries.between
  rw [List.forall₂_cons, List.forall₂_cons] at hbetween
  exact absurd (hbetween.2.1.apart (by decide)) (by decide)

end CopySelection

end Forgetty
