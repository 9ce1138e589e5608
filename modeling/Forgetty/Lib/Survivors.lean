import Mathlib.Data.List.ReduceOption
import Mathlib.Tactic.Common

/-! What is left of a list of options. An item comes at the place that counts the
items before it that are there, so it keeps its place exactly when all of them are. -/

namespace Forgetty.Lib

variable {α : Type*} {xs : List (Option α)} {a : α} {j k : ℕ}

theorem reduceOption_cons (x : Option α) (xs : List (Option α)) :
    (x :: xs).reduceOption = [x].reduceOption ++ xs.reduceOption := by
  cases x <;> simp

/-- The number of items before place `j` that are there. -/
def rank (xs : List (Option α)) (j : ℕ) : ℕ := (xs.take j).reduceOption.length

theorem rank_le (xs : List (Option α)) (j : ℕ) : rank xs j ≤ j :=
  Nat.le_trans (List.reduceOption_length_le _) (List.length_take_le j xs)

theorem rank_succ_cons (x : Option α) (xs : List (Option α)) (j : ℕ) :
    rank (x :: xs) (j + 1) = [x].reduceOption.length + rank xs j := by
  rw [rank, List.take_succ_cons, reduceOption_cons, List.length_append, rank]

/-- An item that is there comes at its rank. -/
theorem getElem?_reduceOption_rank (h : xs[j]? = some (some a)) :
    xs.reduceOption[rank xs j]? = some a := by
  induction xs generalizing j with
  | nil => simp at h
  | cons x xs ih =>
    cases j with
    | zero =>
      have hx : x = some a := by simpa using h
      simp [hx, rank]
    | succ j =>
      rw [rank_succ_cons, reduceOption_cons, List.getElem?_append_right (Nat.le_add_right _ _),
        Nat.add_sub_cancel_left]
      exact ih (by simpa using h)

theorem rank_lt (h : xs[j]? = some (some a)) : rank xs j < xs.reduceOption.length := by
  obtain ⟨hlt, -⟩ := List.getElem?_eq_some_iff.mp (getElem?_reduceOption_rank h)
  exact hlt

theorem mem_take {x : Option α} : x ∈ xs.take j ↔ ∃ i < j, xs[i]? = some x := by
  rw [List.mem_iff_getElem?]
  constructor
  · rintro ⟨i, hi⟩
    rw [List.getElem?_take] at hi
    split_ifs at hi with hij
    exact ⟨i, hij, hi⟩
  · rintro ⟨i, hij, hi⟩
    exact ⟨i, by rw [List.getElem?_take, if_pos hij, hi]⟩

/-- It keeps its place when all before it are there. -/
theorem rank_eq_self (hj : j ≤ xs.length) : rank xs j = j ↔ ∀ i < j, xs[i]? ≠ some none := by
  have hlen : (xs.take j).length = j := List.length_take_of_le hj
  have hall := List.reduceOption_length_eq_iff (l := xs.take j)
  rw [hlen] at hall
  rw [rank, hall]
  constructor
  · intro h i hi hnone
    exact nomatch h none (mem_take.mpr ⟨i, hi, hnone⟩)
  · intro h x hx
    obtain ⟨i, hi, hget⟩ := mem_take.mp hx
    cases x with
    | none => exact absurd hget (h i hi)
    | some b => rfl

/-- It comes first when none before it is there. -/
theorem rank_eq_zero : rank xs j = 0 ↔ ∀ i < j, ∀ b, xs[i]? ≠ some (some b) := by
  rw [rank, List.length_eq_zero_iff, List.eq_nil_iff_forall_not_mem]
  simp only [List.reduceOption_mem_iff, mem_take, not_exists, not_and]
  constructor
  · exact fun h i hi b => h b i hi
  · exact fun h b i hi => h i hi b

end Forgetty.Lib
