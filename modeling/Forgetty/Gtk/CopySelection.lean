import Forgetty.Lib.Splice
import Forgetty.Vt.Scrollback
import Forgetty.Vt.Selection
import Mathlib.Data.List.TakeWhile

/-! The rows of a selection that are to be copied. The screen shows only some of the rows, so
it is scrolled page by page until the last selected row was read, and then back. The selection
has rows of its own, which need not be there any more. -/

namespace Forgetty

open Lib Vt

/-- A row that was read: its selected text, and whether it is taken to go on in the next one. -/
structure CopiedRow where
  absRow : ℕ
  line : Text
  isWrapped : Bool
  deriving DecidableEq, Repr

namespace CopySelection

/-- The first and the last selected column of a row. -/
def columns (sel : Selection) (numCols absRow : ℕ) : ℕ × ℕ :=
  match sel.mode with
  | .line => (0, numCols - 1)
  | .block => (min sel.startCol sel.endCol, min (max sel.startCol sel.endCol) (numCols - 1))
  | .normal | .word =>
    (if absRow = sel.startRow then sel.startCol else 0,
      if absRow = sel.endRow then min sel.endCol (numCols - 1) else numCols - 1)

/-- The text of the selected cells. -/
def selectedLine (sel : Selection) (numCols absRow : ℕ) (cells : List Cell) : Text :=
  let range := columns sel numCols absRow
  let upper := min range.2 (cells.length - 1)
  ((cells.take (upper + 1)).drop range.1).flatMap (·.grapheme)

/-- A row counts as wrapped by its flag, or if the text nearly fills it and it is not the last
one selected. -/
def isWrapped (sel : Selection) (numCols absRow : ℕ) (cells : List Cell) (flag : Bool) : Bool :=
  if flag then true
  else if absRow < sel.endRow ∧ numCols > 10 then
    let trailingSpaces := (cells.reverse.takeWhile (·.grapheme = [' '])).length
    trailingSpaces < numCols / 5
  else false

def readRow (sel : Selection) (numCols absRow : ℕ) (cells : List Cell) (flag : Bool) : CopiedRow :=
  { absRow := absRow
    line := selectedLine sel numCols absRow cells
    isWrapped := isWrapped sel numCols absRow cells flag }

/-- The rows of the page from the cursor on. A row that the screen does not have ends the
page. -/
def readPage (sel : Selection) (cursor pageEnd : ℕ) (t : Scrollback) : List CopiedRow :=
  let screen := t.screen
  ((List.range' cursor (pageEnd + 1 - cursor)).takeWhile fun absRow =>
      absRow - t.offset < screen.rows).map fun absRow =>
    let screenRow := absRow - t.offset
    readRow sel screen.cols absRow (screen.row screenRow) (screen.isRowWrapped screenRow)

/-- The screen is scrolled so that the row is at its top, where it can be. -/
def scrollTo (row : ℕ) (t : Scrollback) : Scrollback :=
  if rowDelta row t.offset ≠ 0 then t.scrollViewportDelta (rowDelta row t.offset) else t

/-- The loop over the pages. Without a result it has not ended within the given number of
rounds. -/
def readPages (sel : Selection) : ℕ → ℕ → Scrollback → List CopiedRow →
    Option (Scrollback × List CopiedRow)
  | 0, _, _, _ => none
  | rounds + 1, cursor, t, lines =>
    if cursor ≤ sel.endRow then
      let t := scrollTo cursor t
      let pageEnd := min sel.endRow (t.offset + (t.len - 1))
      readPages sel rounds (pageEnd + 1) t (lines ++ readPage sel cursor pageEnd t)
    else some (t, lines)

/-- All rows of the selection, and the terminal scrolled back. -/
def copyRows (sel : Selection) (rounds : ℕ) (t : Scrollback) :
    Option (Scrollback × List CopiedRow) :=
  (readPages sel rounds sel.startRow t []).map fun (t', lines) => (scrollTo t.offset t', lines)

/-! ### What is to hold -/

/-- The selected rows that exist. -/
def existingRows (sel : Selection) (t : Scrollback) : List ℕ :=
  (List.range t.rows.length).filter fun r => sel.startRow ≤ r ∧ r ≤ sel.endRow

/-- The copy ends, with each selected row that exists read once and in order, and with the
screen where it was. -/
def Completes (sel : Selection) (t : Scrollback) : Prop :=
  ∃ rounds t' lines, copyRows sel rounds t = some (t', lines) ∧
    lines.map (·.absRow) = existingRows sel t ∧ t'.offset = t.offset

/-! ### Scrolling -/

variable {sel : Selection} {t : Scrollback}

@[simp] theorem rows_scrollTo (row : ℕ) : (scrollTo row t).rows = t.rows := by
  unfold scrollTo
  split_ifs
  · exact t.rows_scrollViewportDelta _
  · rfl

@[simp] theorem len_scrollTo (row : ℕ) : (scrollTo row t).len = t.len := by
  unfold scrollTo
  split_ifs
  · exact t.len_scrollViewportDelta _
  · rfl

@[simp] theorem cols_scrollTo (row : ℕ) : (scrollTo row t).cols = t.cols := by
  unfold scrollTo
  split_ifs
  · exact t.cols_scrollViewportDelta _
  · rfl

@[simp] theorem maxOffset_scrollTo (row : ℕ) : (scrollTo row t).maxOffset = t.maxOffset := by
  simp [Scrollback.maxOffset]

/-- A row in memory comes to the top of the screen, or as near to it as the last page lets it. -/
theorem offset_scrollTo {row : ℕ} (h : row < 2 ^ 63) :
    (scrollTo row t).offset = min row t.maxOffset := by
  have hdelta := rowDelta_of_lt h t.offset_lt
  have hoff := t.offset_le
  unfold scrollTo
  rw [hdelta]
  split_ifs with hz
  · rw [Scrollback.offset_scrollViewportDelta, show (t.offset + (row - t.offset : ℤ)).toNat = row by
      omega]
  · have hrow : row = t.offset := by omega
    rw [hrow]
    exact (Nat.min_eq_left hoff).symm

/-! ### Pages -/

/-- A row as it is read from the terminal. -/
def copiedRow (sel : Selection) (t : Scrollback) (absRow : ℕ) : CopiedRow :=
  readRow sel t.cols absRow ((t.rows[absRow]?.map (·.cells)).getD [])
    ((t.rows[absRow]?.map (·.wrapped)).getD false)

/-- A page that the screen shows is read whole. -/
theorem readPage_eq {cursor pageEnd : ℕ} (h : t.offset ≤ cursor) (hp : pageEnd < t.offset + t.len) :
    readPage sel cursor pageEnd t =
      (List.range' cursor (pageEnd + 1 - cursor)).map (copiedRow sel t) := by
  have hshown : ∀ r ∈ List.range' cursor (pageEnd + 1 - cursor),
      t.offset ≤ r ∧ r - t.offset < t.len := by
    intro r hr
    rw [List.mem_range'_1] at hr
    omega
  have hall : ∀ r ∈ List.range' cursor (pageEnd + 1 - cursor),
      decide (r - t.offset < t.screen.rows) = true := fun r hr => decide_eq_true (hshown r hr).2
  unfold readPage
  simp only []
  rw [List.takeWhile_eq_self_iff.mpr hall]
  refine List.map_congr_left fun r hr => ?_
  obtain ⟨hle, hlt⟩ := hshown r hr
  rw [t.row_screen hlt, t.isRowWrapped_screen hlt, Nat.add_sub_cancel' hle]
  rfl

theorem copiedRow_scrollTo (row : ℕ) : copiedRow sel (scrollTo row t) = copiedRow sel t := by
  funext r
  simp [copiedRow]

/-- One round reads at least the row at the cursor. -/
theorem page_bounds {cursor : ℕ} (h : cursor ≤ sel.endRow) (her : sel.endRow < t.rows.length) :
    let pageEnd := min sel.endRow ((scrollTo cursor t).offset + ((scrollTo cursor t).len - 1))
    (scrollTo cursor t).offset ≤ cursor ∧ cursor ≤ pageEnd ∧ pageEnd ≤ sel.endRow ∧
      pageEnd < (scrollTo cursor t).offset + (scrollTo cursor t).len := by
  have hlt := t.rows_lt
  have hpos := t.len_pos
  have hmax := t.add_maxOffset
  rw [offset_scrollTo (by omega), len_scrollTo]
  simp only
  omega

theorem range'_split {a b c : ℕ} (hab : a ≤ b) (hbc : b ≤ c) :
    List.range' a (b + 1 - a) ++ List.range' (b + 1) (c - b) = List.range' a (c + 1 - a) := by
  have h := List.range'_append_1 (s := a) (m := b + 1 - a) (n := c - b)
  rw [show a + (b + 1 - a) = b + 1 by omega] at h
  rw [h]
  congr 1
  omega

/-- While the rows are there, the loop reads them from the cursor to the last. -/
theorem readPages_spec {rounds cursor : ℕ} (her : sel.endRow < t.rows.length)
    (hr : sel.endRow + 1 - cursor < rounds) (lines : List CopiedRow) :
    ∃ t', readPages sel rounds cursor t lines =
        some (t', lines ++ (List.range' cursor (sel.endRow + 1 - cursor)).map (copiedRow sel t)) ∧
      t'.rows = t.rows ∧ t'.len = t.len := by
  induction rounds generalizing cursor t lines with
  | zero => omega
  | succ rounds ih =>
    rw [readPages]
    split
    · next hc =>
      obtain ⟨htop, hcur, hend, hshown⟩ := page_bounds hc her
      set u := scrollTo cursor t with hu
      set pageEnd := min sel.endRow (u.offset + (u.len - 1)) with hpage
      have hrows : u.rows = t.rows := rows_scrollTo cursor
      obtain ⟨t', hrest, hrows', hlen'⟩ := ih (show sel.endRow < u.rows.length by rw [hrows]; exact her)
        (show sel.endRow + 1 - (pageEnd + 1) < rounds by omega)
        (lines ++ readPage sel cursor pageEnd u)
      refine ⟨t', ?_, hrows'.trans hrows, hlen'.trans (len_scrollTo cursor)⟩
      rw [hrest, readPage_eq htop hshown, List.append_assoc, ← List.map_append,
        Nat.succ_sub_succ, range'_split hcur hend, hu, copiedRow_scrollTo]
    · next hc =>
      refine ⟨t, ?_, rfl, rfl⟩
      rw [show sel.endRow + 1 - cursor = 0 by omega]
      simp

/-- More rounds do not change what the loop ends with. -/
theorem readPages_le {rounds rounds' cursor : ℕ} {lines : List CopiedRow}
    {result : Scrollback × List CopiedRow} (hle : rounds ≤ rounds')
    (h : readPages sel rounds cursor t lines = some result) :
    readPages sel rounds' cursor t lines = some result := by
  induction rounds generalizing rounds' cursor t lines with
  | zero => cases h
  | succ rounds ih =>
    obtain ⟨rounds', rfl⟩ : ∃ m, rounds' = m + 1 := ⟨rounds' - 1, by omega⟩
    rw [readPages] at h ⊢
    split_ifs at h ⊢ with hc
    · exact ih (Nat.le_of_succ_le_succ hle) h
    · exact h

theorem readPages_unique {rounds rounds' cursor : ℕ} {lines : List CopiedRow}
    {result result' : Scrollback × List CopiedRow}
    (h : readPages sel rounds cursor t lines = some result)
    (h' : readPages sel rounds' cursor t lines = some result') : result = result' := by
  have hm := readPages_le (Nat.le_max_left rounds rounds') h
  have hm' := readPages_le (Nat.le_max_right rounds rounds') h'
  exact Option.some.inj (hm.symm.trans hm')

theorem copyRows_unique {rounds rounds' : ℕ} {result result' : Scrollback × List CopiedRow}
    (h : copyRows sel rounds t = some result) (h' : copyRows sel rounds' t = some result') :
    result = result' := by
  obtain ⟨pages, hpages, rfl⟩ := Option.map_eq_some_iff.mp h
  obtain ⟨pages', hpages', rfl⟩ := Option.map_eq_some_iff.mp h'
  rw [readPages_unique hpages hpages']

/-- With a row selected behind the last one the cursor stays where the terminal ends. -/
theorem readPages_eq_none (her : t.rows.length ≤ sel.endRow) {cursor : ℕ}
    (hc : cursor ≤ sel.endRow) (rounds : ℕ) (lines : List CopiedRow) :
    readPages sel rounds cursor t lines = none := by
  induction rounds generalizing cursor t lines with
  | zero => rfl
  | succ rounds ih =>
    have hoff := (scrollTo cursor t).offset_le
    have hlen := (scrollTo cursor t).len_le
    have hpos := (scrollTo cursor t).len_pos
    have hrows := rows_scrollTo (t := t) cursor
    rw [readPages, if_pos hc]
    refine ih (by rw [hrows]; exact her) ?_ _
    rw [hrows] at hoff hlen
    omega

theorem existingRows_eq (her : sel.endRow < t.rows.length) :
    existingRows sel t = List.range' sel.startRow (sel.endRow + 1 - sel.startRow) := by
  rw [existingRows, filter_range_between, Nat.min_eq_left her]

/-- A copy ends and is complete exactly if the last selected row exists. -/
theorem completes_iff (sel : Selection) (t : Scrollback) :
    Completes sel t ↔ sel.endRow < t.rows.length := by
  constructor
  · rintro ⟨rounds, t', lines, h, -⟩
    by_contra hge
    rw [copyRows, readPages_eq_none (Nat.not_lt.mp hge) sel.startRow_le_endRow] at h
    simp at h
  · intro her
    obtain ⟨t', h, hrows, hlen⟩ := readPages_spec her
      (Nat.lt_succ_self (sel.endRow + 1 - sel.startRow)) []
    refine ⟨_, _, _, by rw [copyRows, h]; rfl, ?_, ?_⟩
    · rw [existingRows_eq her, List.nil_append, List.map_map]
      exact List.map_id'' (fun r => rfl) _
    · rw [offset_scrollTo t.offset_lt, Scrollback.maxOffset, hrows, hlen]
      exact Nat.min_eq_left t.offset_le

/-- A terminal after a reset, with one row left, and the selection of two rows made before. -/
def afterReset : Scrollback where
  rows := [{ cells := [.blank], wrapped := false }]
  cols := 1
  offset := 0
  len := 1
  len_pos := by decide
  len_le := by decide
  offset_le := by decide
  rows_lt := by decide
  length_cells := by decide
  grapheme_ne_nil := by decide

def twoRows : Selection := { start := (0, 0), stop := (1, 0), mode := .normal }

theorem not_completes_afterReset : ¬ ∀ sel t, Completes sel t := by
  intro h
  obtain ⟨rounds, t', lines, hcopy, -⟩ := h twoRows afterReset
  have hnone := readPages_eq_none (show afterReset.rows.length ≤ twoRows.endRow by decide)
    (by decide : twoRows.startRow ≤ twoRows.endRow) rounds []
  rw [copyRows, hnone] at hcopy
  simp at hcopy

end CopySelection

end Forgetty
