import Mathlib.Data.List.Basic
import Mathlib.Tactic.SplitIfs

/-! Selections of text in the grid of a terminal. -/

namespace Forgetty

inductive SelectionMode where
  | normal
  | block
  | line
  | word
  deriving DecidableEq, Repr

/-- The point where the selection was begun and the point where it ends, row and column. -/
structure Selection where
  start : ℕ × ℕ
  stop : ℕ × ℕ
  mode : SelectionMode
  deriving DecidableEq, Repr

namespace Selection

/-- The two points in reading order. -/
def ordered (sel : Selection) : (ℕ × ℕ) × (ℕ × ℕ) :=
  if sel.start.1 < sel.stop.1 ∨ (sel.start.1 = sel.stop.1 ∧ sel.start.2 ≤ sel.stop.2) then
    (sel.start, sel.stop)
  else (sel.stop, sel.start)

def startRow (sel : Selection) : ℕ := sel.ordered.1.1

def startCol (sel : Selection) : ℕ := sel.ordered.1.2

def endRow (sel : Selection) : ℕ := sel.ordered.2.1

def endCol (sel : Selection) : ℕ := sel.ordered.2.2

def contains (row col : ℕ) (sel : Selection) : Bool :=
  match sel.mode with
  | .normal | .word =>
    if sel.startRow = sel.endRow then
      row = sel.startRow ∧ sel.startCol ≤ col ∧ col ≤ sel.endCol
    else if row = sel.startRow then sel.startCol ≤ col
    else if row = sel.endRow then col ≤ sel.endCol
    else sel.startRow < row ∧ row < sel.endRow
  | .block =>
    sel.startRow ≤ row ∧ row ≤ sel.endRow ∧
      min sel.startCol sel.endCol ≤ col ∧ col ≤ max sel.startCol sel.endCol
  | .line => sel.startRow ≤ row ∧ row ≤ sel.endRow

theorem startRow_le_endRow (sel : Selection) : sel.startRow ≤ sel.endRow := by
  unfold startRow endRow ordered
  split_ifs with h
  · rcases h with h | h
    · exact Nat.le_of_lt h
    · exact Nat.le_of_eq h.1
  · simp only [not_or] at h
    exact Nat.not_lt.mp h.1

theorem startCol_le_endCol (sel : Selection) (hrow : sel.startRow = sel.endRow) :
    sel.startCol ≤ sel.endCol := by
  unfold startRow endRow ordered at hrow
  unfold startCol endCol ordered
  split_ifs at hrow ⊢ with h
  · rcases h with h | h
    · exact absurd hrow (Nat.ne_of_lt h)
    · exact h.2
  · simp only [not_or, not_and] at h
    exact Nat.le_of_lt (Nat.not_le.mp (h.2 hrow.symm))

end Selection

end Forgetty
