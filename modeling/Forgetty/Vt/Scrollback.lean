import Forgetty.Vt.Screen
import Forgetty.Core.Basic

/-! The rows of a terminal and the part of them that the screen shows. Scrolling moves the
screen over the rows and stops at the first and at the last of them. -/

namespace Forgetty.Vt

/-- The conversion to `isize`. -/
def asIsize (n : ℕ) : ℤ := Int.bmod n (2 ^ 64)

/-- The distance between two rows in the arithmetic of `isize`. -/
def rowDelta (a b : ℕ) : ℤ := Int.bmod (asIsize a - asIsize b) (2 ^ 64)

theorem asIsize_of_lt {n : ℕ} (h : n < 2 ^ 63) : asIsize n = n :=
  Int.bmod_eq_of_le (by omega) (by omega)

theorem rowDelta_of_lt {a b : ℕ} (ha : a < 2 ^ 63) (hb : b < 2 ^ 63) : rowDelta a b = a - b := by
  rw [rowDelta, asIsize_of_lt ha, asIsize_of_lt hb]
  exact Int.bmod_eq_of_le (by omega) (by omega)

/-- A row of the terminal, with the cells and the wrap flag the screen has for it. -/
structure BufferRow where
  cells : List Cell
  wrapped : Bool
  deriving DecidableEq, Repr

/-- All rows of a terminal, and the scrollbar: the first row shown and how many are shown. The
rows shown are among the others, and all of them are in memory. No cell is without a character,
for the conversion makes a blank of it. -/
structure Scrollback where
  rows : List BufferRow
  cols : ℕ
  offset : ℕ
  len : ℕ
  len_pos : 0 < len
  len_le : len ≤ rows.length
  offset_le : offset ≤ rows.length - len
  rows_lt : rows.length < 2 ^ 63
  length_cells : ∀ row ∈ rows, row.cells.length = cols
  grapheme_ne_nil : ∀ row ∈ rows, ∀ cell ∈ row.cells, cell.grapheme ≠ []

namespace Scrollback

/-- The scrollable range ends where the last row is shown. -/
def maxOffset (t : Scrollback) : ℕ := t.rows.length - t.len

def scrollViewportDelta (delta : ℤ) (t : Scrollback) : Scrollback :=
  { t with
    offset := min (t.offset + delta).toNat t.maxOffset
    offset_le := Nat.min_le_right _ _ }

/-- The screen converted from the rows shown. It has no generations of interest here. -/
def screen (t : Scrollback) : Screen where
  cells := ((t.rows.drop t.offset).take t.len).map (·.cells)
  rows := t.len
  cols := t.cols
  rowGenerations := List.replicate t.len 0
  generation := 0
  rowWraps := ((t.rows.drop t.offset).take t.len).map (·.wrapped)

variable (t : Scrollback)

@[simp] theorem rows_scrollViewportDelta (delta : ℤ) :
    (t.scrollViewportDelta delta).rows = t.rows := rfl

@[simp] theorem cols_scrollViewportDelta (delta : ℤ) :
    (t.scrollViewportDelta delta).cols = t.cols := rfl

@[simp] theorem len_scrollViewportDelta (delta : ℤ) :
    (t.scrollViewportDelta delta).len = t.len := rfl

theorem offset_scrollViewportDelta (delta : ℤ) :
    (t.scrollViewportDelta delta).offset = min (t.offset + delta).toNat t.maxOffset := rfl

theorem offset_lt : t.offset < 2 ^ 63 := by
  have := t.offset_le
  have := t.rows_lt
  omega

theorem add_maxOffset : t.maxOffset + t.len = t.rows.length := Nat.sub_add_cancel t.len_le

/-- Rows that are shown are read off the screen. -/
theorem row_screen {i : ℕ} (h : i < t.len) :
    t.screen.row i = (t.rows[t.offset + i]?.map (·.cells)).getD [] := by
  simp [screen, Screen.row, List.getElem?_take_of_lt h]

theorem isRowWrapped_screen {i : ℕ} (h : i < t.len) :
    t.screen.isRowWrapped i = (t.rows[t.offset + i]?.map (·.wrapped)).getD false := by
  simp [screen, Screen.isRowWrapped, List.getElem?_take_of_lt h]

end Scrollback

end Forgetty.Vt
