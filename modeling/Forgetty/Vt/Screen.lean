import Mathlib.Data.List.Basic
import Mathlib.Tactic.SplitIfs

/-! The screen buffer: a grid of cells with a generation for every row. Cells are updated in
place, and a row gets a new generation when one of its cells changes. -/

namespace Forgetty

/-- A string, by its characters. -/
abbrev Text := List Char

-- One proof for all the definitions that look for a text among others.
instance : LawfulBEq Text := inferInstanceAs (LawfulBEq (List Char))

/-- A color from the terminal, channel by channel. -/
structure Rgb where
  r : UInt8
  g : UInt8
  b : UInt8
  deriving DecidableEq, Repr

inductive Color where
  | default
  | rgb (c : Rgb)
  deriving DecidableEq, Repr

structure CellAttributes where
  fg : Color := .default
  bg : Color := .default
  bold : Bool := false
  italic : Bool := false
  underline : Bool := false
  strikethrough : Bool := false
  inverse : Bool := false
  dim : Bool := false
  deriving DecidableEq, Repr

structure Cell where
  grapheme : Text
  attrs : CellAttributes
  deriving DecidableEq, Repr

/-- `Cell::default`. -/
def Cell.blank : Cell := { grapheme := [' '], attrs := {} }

structure Screen where
  cells : List (List Cell)
  rows : ℕ
  cols : ℕ
  rowGenerations : List ℕ
  generation : ℕ
  rowWraps : List Bool
  deriving DecidableEq, Repr

/-- Cut off or filled up to a length, as `Vec::resize` does. -/
def resizeList {α : Type*} (n : ℕ) (a : α) (l : List α) : List α :=
  l.take n ++ List.replicate (n - l.length) a

section Resize

variable {α : Type*} (n : ℕ) (a : α) (l : List α)

@[simp] theorem length_resizeList : (resizeList n a l).length = n := by
  simp only [resizeList, List.length_append, List.length_take, List.length_replicate]
  omega

theorem mem_resizeList {n : ℕ} {a b : α} {l : List α} (h : b ∈ resizeList n a l) :
    b ∈ l ∨ b = a := by
  rcases List.mem_append.mp h with h | h
  · exact .inl (List.mem_of_mem_take h)
  · exact .inr (List.eq_of_mem_replicate h)

end Resize

namespace Screen

def blankRow (cols : ℕ) : List Cell := List.replicate cols .blank

def new (rows cols : ℕ) : Screen where
  cells := List.replicate rows (blankRow cols)
  rows := rows
  cols := cols
  rowGenerations := List.replicate rows 0
  generation := 0
  rowWraps := List.replicate rows false

/-- The cells of a row. An index behind the last row panics in the source. -/
def row (i : ℕ) (s : Screen) : List Cell := s.cells[i]?.getD []

def isRowWrapped (i : ℕ) (s : Screen) : Bool := s.rowWraps[i]?.getD false

def setRowWrap (i : ℕ) (wrapped : Bool) (s : Screen) : Screen :=
  { s with rowWraps := s.rowWraps.set i wrapped }

/-- The grid in the given dimensions, with the cells that are in both. -/
def ensureCapacity (rows cols : ℕ) (s : Screen) : Screen where
  cells := resizeList rows (blankRow cols) (s.cells.map (resizeList cols .blank))
  rows := rows
  cols := cols
  rowGenerations := resizeList rows 0 s.rowGenerations
  generation := s.generation
  rowWraps := resizeList rows false s.rowWraps

/-- `Screen::resize` does the same and counts as a change. -/
def resize (rows cols : ℕ) (s : Screen) : Screen :=
  let s := s.ensureCapacity rows cols
  { s with generation := s.generation + 1 }

/-- The cell gets a new content, and its row a new generation if that is another one. An
index outside the grid panics in the source. -/
def updateCellInPlace (i j : ℕ) (grapheme : Text) (attrs : CellAttributes) (s : Screen) : Screen :=
  match s.cells[i]? with
  | none => s
  | some row =>
    match row[j]? with
    | none => s
    | some cell =>
      if cell.grapheme = grapheme ∧ cell.attrs = attrs then s
      else
        { s with
          cells := s.cells.set i (row.set j { grapheme := grapheme, attrs := attrs })
          generation := s.generation + 1
          rowGenerations := s.rowGenerations.set i (s.generation + 1) }

/-! ### What an update changes -/

variable (i j : ℕ) (grapheme : Text) (attrs : CellAttributes) (s : Screen)

@[simp] theorem rows_updateCellInPlace : (s.updateCellInPlace i j grapheme attrs).rows = s.rows := by
  unfold updateCellInPlace
  split
  · rfl
  · split
    · rfl
    · split_ifs <;> rfl

@[simp] theorem cols_updateCellInPlace : (s.updateCellInPlace i j grapheme attrs).cols = s.cols := by
  unfold updateCellInPlace
  split
  · rfl
  · split
    · rfl
    · split_ifs <;> rfl

@[simp] theorem rowWraps_updateCellInPlace :
    (s.updateCellInPlace i j grapheme attrs).rowWraps = s.rowWraps := by
  unfold updateCellInPlace
  split
  · rfl
  · split
    · rfl
    · split_ifs <;> rfl

/-- Whether the cell changes or not, afterwards it is the new one. -/
theorem cells_updateCellInPlace : (s.updateCellInPlace i j grapheme attrs).cells =
    s.cells.modify i (·.set j { grapheme := grapheme, attrs := attrs }) := by
  unfold updateCellInPlace
  split
  · next h => rw [List.modify_eq_self (by simpa using h)]
  · next row h =>
    obtain ⟨hi, rfl⟩ := List.getElem?_eq_some_iff.mp h
    rw [List.modify_eq_set_get _ hi]
    split
    · next hj =>
      have hset := List.set_eq_of_length_le (a := (⟨grapheme, attrs⟩ : Cell))
        (List.getElem?_eq_none_iff.mp hj)
      rw [List.get_eq_getElem, hset, List.set_getElem_self]
    · next cell hj =>
      obtain ⟨hj, rfl⟩ := List.getElem?_eq_some_iff.mp hj
      split_ifs with hsame
      · obtain ⟨rfl, rfl⟩ := hsame
        rw [List.get_eq_getElem, List.set_getElem_self, List.set_getElem_self]
      · rfl

@[simp] theorem rows_ensureCapacity (rows cols : ℕ) : (s.ensureCapacity rows cols).rows = rows := rfl

@[simp] theorem cols_ensureCapacity (rows cols : ℕ) : (s.ensureCapacity rows cols).cols = cols := rfl

theorem length_cells_ensureCapacity (rows cols : ℕ) :
    (s.ensureCapacity rows cols).cells.length = rows := length_resizeList ..

theorem length_rowWraps_ensureCapacity (rows cols : ℕ) :
    (s.ensureCapacity rows cols).rowWraps.length = rows := length_resizeList ..

theorem length_row_ensureCapacity (rows cols : ℕ) :
    ∀ row ∈ (s.ensureCapacity rows cols).cells, row.length = cols := by
  intro row h
  rcases mem_resizeList h with h | rfl
  · obtain ⟨row', -, rfl⟩ := List.mem_map.mp h
    exact length_resizeList ..
  · exact List.length_replicate

end Screen

end Forgetty
