import Forgetty.Lib.Splice
import Forgetty.Vt.Screen
import Forgetty.Vt.Selection

/-! The text of a selection, read off the cells of a screen. The columns at which it ends are
cut off at the last one that the screen has. Those at which it begins are not. -/

namespace Forgetty

open Lib

/-- The cells of a row from one column to another, both of them included. A range that is not
within the row panics. -/
def sliceInclusive (first last : ℕ) (cells : List Cell) : Option (List Cell) :=
  if first ≤ last + 1 ∧ last < cells.length then some (slice cells first (last + 1)) else none

/-- `n - 1`, which overflows for zero. Without the check for overflow it is the largest number
instead, and then no row has a cell that the range it bounds could end at. -/
def checkedPred (n : ℕ) : Option ℕ := if n = 0 then none else some (n - 1)

def pushGraphemes (cells : List Cell) : Text := cells.flatMap (·.grapheme)

namespace Screen

def cell (row col : ℕ) (s : Screen) : Option Cell := (s.row row)[col]?

def setCell (row col : ℕ) (cell : Cell) (s : Screen) : Screen :=
  { s with
    cells := s.cells.modify row (·.set col cell)
    generation := s.generation + 1
    rowGenerations := s.rowGenerations.set row (s.generation + 1) }

/-- The grid has the dimensions of the screen. -/
structure Shaped (s : Screen) : Prop where
  rows : s.cells.length = s.rows
  cols : ∀ cells ∈ s.cells, cells.length = s.cols

section Shape

variable {s : Screen}

theorem shaped_new (rows cols : ℕ) : (Screen.new rows cols).Shaped where
  rows := List.length_replicate
  cols cells h := by
    rw [List.eq_of_mem_replicate h]
    exact List.length_replicate

theorem shaped_ensureCapacity (rows cols : ℕ) (s : Screen) : (s.ensureCapacity rows cols).Shaped where
  rows := s.length_cells_ensureCapacity rows cols
  cols := s.length_row_ensureCapacity rows cols

theorem shaped_resize (rows cols : ℕ) (s : Screen) : (s.resize rows cols).Shaped where
  rows := (shaped_ensureCapacity rows cols s).rows
  cols := (shaped_ensureCapacity rows cols s).cols

/-- A cell that is set leaves the lengths of the rows as they are. -/
theorem Shaped.modify {cells : List (List Cell)} {row col : ℕ} {cell : Cell} (h : s.Shaped)
    (hcells : cells = s.cells.modify row (·.set col cell)) :
    cells.length = s.rows ∧ ∀ row ∈ cells, row.length = s.cols := by
  rw [hcells]
  refine ⟨(List.length_modify ..).trans h.rows, forall_mem_modify h.cols fun cells hrow => ?_⟩
  rw [List.length_set]
  exact h.cols cells (List.mem_of_getElem? hrow)

theorem Shaped.setCell (h : s.Shaped) (row col : ℕ) (cell : Cell) : (s.setCell row col cell).Shaped where
  rows := (h.modify rfl).1
  cols := (h.modify rfl).2

theorem Shaped.updateCellInPlace (h : s.Shaped) (row col : ℕ) (grapheme : Text)
    (attrs : CellAttributes) : (s.updateCellInPlace row col grapheme attrs).Shaped where
  rows := by
    rw [rows_updateCellInPlace]
    exact (h.modify (s.cells_updateCellInPlace ..)).1
  cols := by
    rw [cols_updateCellInPlace]
    exact (h.modify (s.cells_updateCellInPlace ..)).2

theorem Shaped.setRowWrap (h : s.Shaped) (row : ℕ) (wrapped : Bool) :
    (s.setRowWrap row wrapped).Shaped where
  rows := h.rows
  cols := h.cols

theorem Shaped.length_row (h : s.Shaped) {row : ℕ} (hrow : row < s.rows) :
    (s.row row).length = s.cols := by
  have hlt : row < s.cells.length := h.rows.symm ▸ hrow
  rw [Screen.row, List.getElem?_eq_getElem hlt, Option.getD_some]
  exact h.cols _ (List.getElem_mem hlt)

end Shape

end Screen

namespace Selection

/-- The text of a row, in the loop over the rows. -/
def extractRow (screen : Screen) (sel : Selection) (row : ℕ) : Option Text :=
  let cells := screen.row row
  match sel.mode with
  | .normal | .word =>
    (checkedPred screen.cols).bind fun lastCol =>
      let colStart := if row = sel.startRow then sel.startCol else 0
      let colEnd := if row = sel.endRow then min sel.endCol lastCol else lastCol
      (sliceInclusive colStart (min colEnd (cells.length - 1)) cells).map pushGraphemes
  | .line => some (pushGraphemes (cells.take (min screen.cols cells.length)))
  | .block =>
    (checkedPred screen.cols).bind fun lastCol =>
      let minCol := min sel.startCol sel.endCol
      let maxCol := min (max sel.startCol sel.endCol) lastCol
      (sliceInclusive minCol (min maxCol (cells.length - 1)) cells).map pushGraphemes

/-- The text of the selected cells, a line for each row. Without a result it panics. -/
def extractText (screen : Screen) (sel : Selection) : Option Text :=
  if screen.rows ≤ sel.startRow then some []
  else
    let lines := (List.range' sel.startRow
      (min sel.endRow (screen.rows - 1) + 1 - sel.startRow)).mapM (sel.extractRow screen)
    lines.map (['\n'].intercalate ·)

/-! ### What is to hold -/

/-- The rows of the screen that the selection reaches. -/
def rowsOn (screen : Screen) (sel : Selection) : List ℕ :=
  (List.range screen.rows).filter fun row => sel.startRow ≤ row ∧ row ≤ sel.endRow

/-- The cells of a row that are in the selection. -/
def cellsOn (screen : Screen) (sel : Selection) (row : ℕ) : List Cell :=
  ((List.range screen.cols).filter fun col => sel.contains row col).filterMap (screen.cell row ·)

/-- The text is that of the cells in the selection, row by row. -/
def ExtractsCells (screen : Screen) (sel : Selection) : Prop :=
  sel.extractText screen = some (['\n'].intercalate
    ((sel.rowsOn screen).map fun row => pushGraphemes (sel.cellsOn screen row)))

/-- The column at which the first row of the text begins. -/
def firstCol (sel : Selection) : ℕ :=
  if sel.mode = .block then min sel.startCol sel.endCol else sel.startCol

/-- The selection begins below the screen, takes whole rows, or begins at a column of it or
behind the last one. -/
def BeginsOn (screen : Screen) (sel : Selection) : Prop :=
  screen.rows ≤ sel.startRow ∨ sel.mode = .line ∨ (0 < screen.cols ∧ sel.firstCol ≤ screen.cols)

section Extract

variable {screen : Screen} {sel : Selection} {row first last : ℕ}

theorem mem_rowsOn : row ∈ sel.rowsOn screen ↔
    row < screen.rows ∧ sel.startRow ≤ row ∧ row ≤ sel.endRow := by
  rw [rowsOn, List.mem_filter, List.mem_range, decide_eq_true_iff]

/-- The loop goes over these rows. -/
theorem rowsOn_eq (h : sel.startRow < screen.rows) : sel.rowsOn screen =
    List.range' sel.startRow (min sel.endRow (screen.rows - 1) + 1 - sel.startRow) := by
  rw [rowsOn, filter_range_between]
  congr 1
  omega

/-- Where the selected columns of a row are consecutive, so are the cells. -/
theorem cellsOn_eq_slice
    (hcols : ∀ col < screen.cols, sel.contains row col ↔ first ≤ col ∧ col ≤ last) :
    sel.cellsOn screen row = slice (screen.row row) first (min (last + 1) screen.cols) := by
  have hfilter : (List.range screen.cols).filter (fun col => sel.contains row col) =
      (List.range screen.cols).filter fun col => first ≤ col ∧ col ≤ last := by
    refine List.filter_congr fun col hcol => ?_
    rw [Bool.eq_iff_iff, decide_eq_true_iff]
    exact hcols col (List.mem_range.mp hcol)
  rw [cellsOn, hfilter, filter_range_between]
  refine (filterMap_range' (screen.row row) _ _).trans ?_
  rcases Nat.le_total first (min (last + 1) screen.cols) with h | h
  · rw [Nat.add_sub_cancel' h]
  · rw [Nat.sub_eq_zero_of_le h, Nat.add_zero, slice_self, slice_eq_nil h]

/-- The range of the cells, cut off at the end of the row, fits unless it begins too late. -/
theorem bind_sliceInclusive (h : screen.Shaped) (hrow : row < screen.rows) {colEnd : ℕ → ℕ}
    (hend : colEnd (screen.cols - 1) = min last (screen.cols - 1)) (hle : first ≤ last + 1)
    (hcols : ∀ col < screen.cols, sel.contains row col ↔ first ≤ col ∧ col ≤ last) :
    ((checkedPred screen.cols).bind fun lastCol =>
      (sliceInclusive first (min (colEnd lastCol) ((screen.row row).length - 1))
        (screen.row row)).map pushGraphemes) =
      if 0 < screen.cols ∧ first ≤ screen.cols then some (pushGraphemes (sel.cellsOn screen row))
      else none := by
  rcases Nat.eq_zero_or_pos screen.cols with hzero | hpos
  · rw [checkedPred, if_pos hzero, Option.bind_none, if_neg (by omega)]
  · rw [checkedPred, if_neg (by omega), Option.bind_some, hend, sliceInclusive, h.length_row hrow,
      cellsOn_eq_slice hcols,
      show min (min last (screen.cols - 1)) (screen.cols - 1) + 1 = min (last + 1) screen.cols by
        omega]
    by_cases hfirst : first ≤ screen.cols
    · rw [if_pos (by omega), if_pos ⟨hpos, hfirst⟩, Option.map_some]
    · rw [if_neg (by omega), if_neg (by omega), Option.map_none]

/-- The selected columns of a row on the way from one point to the other. -/
theorem contains_linear (hmode : sel.mode = .normal ∨ sel.mode = .word)
    (hrow : row ∈ sel.rowsOn screen) {col : ℕ} (hcol : col < screen.cols) :
    sel.contains row col ↔ (if row = sel.startRow then sel.startCol else 0) ≤ col ∧
      col ≤ if row = sel.endRow then sel.endCol else sel.startCol + screen.cols := by
  obtain ⟨-, hsr, her⟩ := mem_rowsOn.mp hrow
  have hcontains : sel.contains row col = decide
      (if sel.startRow = sel.endRow then row = sel.startRow ∧ sel.startCol ≤ col ∧ col ≤ sel.endCol
      else if row = sel.startRow then sel.startCol ≤ col
      else if row = sel.endRow then col ≤ sel.endCol
      else sel.startRow < row ∧ row < sel.endRow) := by
    rcases hmode with hmode | hmode <;> (unfold contains; rw [hmode]; dsimp only; split_ifs <;> rfl)
  rw [hcontains, decide_eq_true_iff]
  split_ifs <;> omega

/-- A row of the loop is a line unless the range of its cells begins too late. -/
theorem extractRow_eq (h : screen.Shaped) (hrow : row ∈ sel.rowsOn screen) :
    sel.extractRow screen row =
      if sel.mode = .line ∨
          (0 < screen.cols ∧ (row = sel.startRow ∨ sel.mode = .block → sel.firstCol ≤ screen.cols)) then
        some (pushGraphemes (sel.cellsOn screen row))
      else none := by
  obtain ⟨hlt, hsr, her⟩ := mem_rowsOn.mp hrow
  have hcol := sel.startCol_le_endCol
  have hlinear (hmode : sel.mode = .normal ∨ sel.mode = .word) :
      ((checkedPred screen.cols).bind fun lastCol =>
        (sliceInclusive (if row = sel.startRow then sel.startCol else 0)
          (min (if row = sel.endRow then min sel.endCol lastCol else lastCol)
            ((screen.row row).length - 1)) (screen.row row)).map pushGraphemes) =
        if 0 < screen.cols ∧ (row = sel.startRow → sel.startCol ≤ screen.cols) then
          some (pushGraphemes (sel.cellsOn screen row))
        else none := by
    refine (bind_sliceInclusive h hlt ?_ ?_ fun col hcol => contains_linear hmode hrow hcol).trans ?_
    · split_ifs <;> omega
    · split_ifs <;> omega
    · split_ifs <;> first | rfl | omega
  unfold extractRow firstCol
  cases hmode : sel.mode with
  | line =>
    dsimp only
    rw [if_pos (Or.inl rfl), Nat.min_eq_left (Nat.le_of_eq (h.length_row hlt).symm)]
    have hall : sel.cellsOn screen row = slice (screen.row row) 0 (min (screen.cols + 1) screen.cols) := by
      refine cellsOn_eq_slice fun col hcol => ?_
      unfold contains
      rw [hmode]
      dsimp only
      rw [decide_eq_true_iff]
      omega
    rw [hall, Nat.min_eq_right (Nat.le_succ _)]
    rfl
  | block =>
    dsimp only
    have hcontains (col : ℕ) : sel.contains row col ↔
        min sel.startCol sel.endCol ≤ col ∧ col ≤ max sel.startCol sel.endCol := by
      unfold contains
      rw [hmode]
      dsimp only
      rw [decide_eq_true_iff]
      omega
    refine (bind_sliceInclusive h hlt rfl (by omega) fun col _ => hcontains col).trans ?_
    simp
  | normal => simpa using hlinear (Or.inl hmode)
  | word => simpa using hlinear (Or.inr hmode)

/-- The text is that of the cells in the selection exactly if the first row of it begins on the
screen. -/
theorem extractsCells_iff (h : screen.Shaped) : sel.ExtractsCells screen ↔ sel.BeginsOn screen := by
  unfold ExtractsCells extractText BeginsOn
  rcases Nat.lt_or_ge sel.startRow screen.rows with hsr | hsr
  · rw [if_neg (Nat.not_le.mpr hsr), ← rowsOn_eq hsr]
    by_cases hbegins : sel.mode = .line ∨ (0 < screen.cols ∧ sel.firstCol ≤ screen.cols)
    · have hrows : (sel.rowsOn screen).mapM (sel.extractRow screen) =
          some ((sel.rowsOn screen).map fun row => pushGraphemes (sel.cellsOn screen row)) := by
        refine mapM_eq_pure fun row hrow => ?_
        rw [extractRow_eq h hrow, if_pos]
        · rfl
        · exact hbegins.imp_right fun hcol => ⟨hcol.1, fun _ => hcol.2⟩
      rw [hrows]
      exact iff_of_true rfl (Or.inr hbegins)
    · have hfirst : sel.startRow ∈ sel.rowsOn screen :=
        mem_rowsOn.mpr ⟨hsr, Nat.le_refl _, sel.startRow_le_endRow⟩
      have hnone : sel.extractRow screen sel.startRow = none := by
        rw [extractRow_eq h hfirst, if_neg]
        exact fun hline => hbegins (hline.imp_right fun hcol => ⟨hcol.1, hcol.2 (Or.inl rfl)⟩)
      rw [mapM_eq_none hfirst hnone]
      refine iff_of_false (fun hsome => Option.some_ne_none _ hsome.symm) ?_
      exact fun hor => hor.elim (Nat.not_le.mpr hsr) hbegins
  · have hnone : sel.rowsOn screen = [] := by
      refine List.eq_nil_iff_forall_not_mem.mpr fun row hrow => ?_
      obtain ⟨hlt, hle, -⟩ := mem_rowsOn.mp hrow
      omega
    rw [if_pos hsr, hnone]
    exact iff_of_true rfl (Or.inl hsr)

end Extract

/-- From the second column of a row to the fourth one of the next, where there are three. -/
def overTheEdge : Selection where
  start := (1, 3)
  stop := (0, 1)
  mode := .normal

theorem extractsCells_overTheEdge : overTheEdge.ExtractsCells (.new 2 3) :=
  (extractsCells_iff (Screen.shaped_new 2 3)).mpr (Or.inr (Or.inr ⟨by decide, by decide⟩))

/-- A cell of the fourth column, selected before the screen lost its last two columns. -/
def leftBehind : Selection where
  start := (0, 3)
  stop := (0, 3)
  mode := .normal

theorem not_extractsCells_leftBehind :
    ¬leftBehind.ExtractsCells ((Screen.new 1 4).resize 1 2) := by
  unfold ExtractsCells
  decide

end Selection

end Forgetty
