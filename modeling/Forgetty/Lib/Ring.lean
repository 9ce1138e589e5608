import Mathlib.Data.List.DropRight
import Mathlib.Tactic.Common

/-! A buffer that keeps the last items of everything pushed into it. Pushing
appends and then pops from the front while the buffer is over its capacity. -/

namespace Forgetty.Lib

variable {α : Type*}

/-- The loop `while len > cap { pop_front }`. -/
def popWhileOver (cap : ℕ) : List α → List α
  | [] => []
  | a :: as => if cap < (a :: as).length then popWhileOver cap as else a :: as

theorem popWhileOver_eq_rtake (cap : ℕ) (as : List α) : popWhileOver cap as = as.rtake cap := by
  induction as with
  | nil => simp [popWhileOver]
  | cons a as ih =>
    rw [popWhileOver]
    split_ifs with h
    · rw [ih, List.rtake, List.rtake]
      rw [List.length_cons] at h ⊢
      rw [show as.length + 1 - cap = (as.length - cap) + 1 by omega, List.drop_succ_cons]
    · rw [List.rtake, show (a :: as).length - cap = 0 by omega, List.drop_zero]

theorem length_rtake (as : List α) (n : ℕ) : (as.rtake n).length = min n as.length := by
  rw [List.rtake, List.length_drop]
  omega

theorem rtake_suffix (as : List α) (n : ℕ) : as.rtake n <:+ as := List.drop_suffix _ _

theorem rtake_of_length_le {as : List α} {n : ℕ} (h : as.length ≤ n) : as.rtake n = as := by
  rw [List.rtake, show as.length - n = 0 by omega, List.drop_zero]

/-- Keeping the last `n` items before pushing more loses nothing of the last `n`. -/
theorem rtake_rtake_append (as bs : List α) (n : ℕ) :
    (as.rtake n ++ bs).rtake n = (as ++ bs).rtake n := by
  simp only [List.rtake, List.length_append, List.length_drop]
  rw [List.drop_append, List.drop_append, List.drop_drop, List.length_drop]
  congr 2 <;> omega

/-- A bounded buffer. The bound is part of the value. -/
structure Ring (α : Type*) where
  capacity : ℕ
  items : List α
  bounded : items.length ≤ capacity

namespace Ring

/-- The buffer filled with the end of a list. -/
def ofTail (capacity : ℕ) (as : List α) : Ring α where
  capacity := capacity
  items := as.rtake capacity
  bounded := by rw [length_rtake]; exact Nat.min_le_left _ _

/-- Append the items and pop from the front while over capacity. -/
def extend (r : Ring α) (as : List α) : Ring α where
  capacity := r.capacity
  items := popWhileOver r.capacity (r.items ++ as)
  bounded := by rw [popWhileOver_eq_rtake, length_rtake]; exact Nat.min_le_left _ _

/-- Drop all items. -/
def clear (r : Ring α) : Ring α := ⟨r.capacity, [], Nat.zero_le _⟩

@[simp] theorem extend_capacity (r : Ring α) (as : List α) :
    (r.extend as).capacity = r.capacity := rfl

theorem extend_items (r : Ring α) (as : List α) :
    (r.extend as).items = (r.items ++ as).rtake r.capacity := popWhileOver_eq_rtake _ _

@[simp] theorem extend_nil (r : Ring α) : r.extend [] = r := by
  have h : (r.extend []).items = r.items := by
    rw [extend_items, List.append_nil, rtake_of_length_le r.bounded]
  cases r
  simp only [extend] at h ⊢
  simp only [h]

/-- In a ring of capacity zero nothing is kept. -/
theorem extend_of_capacity_zero {r : Ring α} (h : r.capacity = 0) (as : List α) :
    r.extend as = r.clear := by
  have hi : (r.extend as).items = [] :=
    List.eq_nil_of_length_eq_zero (Nat.le_zero.mp (h ▸ (r.extend as).bounded))
  simp only [extend, clear] at hi ⊢
  simp only [hi]

/-- A ring that holds the end of a stream holds the end of the longer stream. -/
theorem items_extend_of_tail {r : Ring α} {stream : List α} (h : r.items = stream.rtake r.capacity)
    (as : List α) : (r.extend as).items = (stream ++ as).rtake (r.extend as).capacity := by
  rw [extend_items, h, rtake_rtake_append, extend_capacity]

end Ring

end Forgetty.Lib
