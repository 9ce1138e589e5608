import Mathlib.Order.Monotone.Basic
import Mathlib.Tactic.Common

/-! Numbers laid out in consecutive stretches. The stretch with a number is found by taking off
one length after the other, as long as what is left is not within the next one. -/

namespace Forgetty.Lib

/-- Take off lengths from the `k`-th one on. `none` when the rounds do not suffice. -/
def takeOff (len : ℕ → ℕ) : ℕ → ℕ → ℕ → Option (ℕ × ℕ)
  | 0, _, _ => none
  | rounds + 1, k, n => if n < len k then some (k, n) else takeOff len rounds (k + 1) (n - len k)

/-- The same with lengths that end. Behind the last one is the rest. -/
def takeOffList : List ℕ → ℕ → ℕ → ℕ × ℕ
  | [], k, n => (k, n)
  | l :: ls, k, n => if n < l then (k, n) else takeOffList ls (k + 1) (n - l)

section Place

variable {start len : ℕ → ℕ} {k k' n n' : ℕ}

/-- No number is in two stretches. -/
theorem stretch_unique (hstart : Monotone start) (hk : start k + len k ≤ start (k + 1))
    (hk' : start k' + len k' ≤ start (k' + 1)) (hn : n < len k) (hn' : n' < len k')
    (h : start k + n = start k' + n') : k = k' ∧ n = n' := by
  rcases Nat.lt_trichotomy k k' with hlt | rfl | hlt
  · have := hstart (show k + 1 ≤ k' from hlt)
    omega
  · exact ⟨rfl, Nat.add_left_cancel h⟩
  · have := hstart (show k' + 1 ≤ k from hlt)
    omega

/-- With lengths of at least `c` there is an end to it. -/
theorem takeOff_spec {c rounds : ℕ} (hstart : ∀ k, start (k + 1) = start k + len k)
    (hlen : ∀ k, c ≤ len k) (h : n < c * rounds) :
    ∃ k' n', takeOff len rounds k n = some (k', n') ∧ n' < len k' ∧
      start k' + n' = start k + n := by
  induction rounds generalizing k n with
  | zero => omega
  | succ rounds ih =>
    rw [takeOff]
    split_ifs with hn
    · exact ⟨k, n, rfl, hn, rfl⟩
    · have hrest : n - len k < c * rounds := by
        have := hlen k
        rw [Nat.mul_succ] at h
        omega
      obtain ⟨k', n', heq, hn', hplace⟩ := ih (k := k + 1) hrest
      refine ⟨k', n', heq, hn', ?_⟩
      rw [hplace, hstart]
      omega

/-- A number within the lengths of the list is in one of the stretches. -/
theorem takeOffList_spec {count : ℕ} (hstart : ∀ i, k ≤ i → start (i + 1) = start i + len i)
    (h : start k + n < start (k + count)) :
    ∃ k' n', takeOffList ((List.range' k count).map len) k n = (k', n') ∧ k ≤ k' ∧
      k' < k + count ∧ n' < len k' ∧ start k' + n' = start k + n := by
  induction count generalizing k n with
  | zero =>
    rw [Nat.add_zero] at h
    omega
  | succ count ih =>
    rw [List.range'_succ, List.map_cons, takeOffList]
    split_ifs with hn
    · exact ⟨k, n, rfl, Nat.le_refl k, by omega, hn, rfl⟩
    · have hfirst := hstart k (Nat.le_refl k)
      have hrest : start (k + 1) + (n - len k) < start (k + 1 + count) := by
        rw [Nat.add_assoc, Nat.add_comm 1 count]
        omega
      obtain ⟨k', n', heq, hle, hlt, hn', hplace⟩ := ih (fun i hi => hstart i (by omega)) hrest
      exact ⟨k', n', heq, by omega, by omega, hn', by omega⟩

end Place

section Scale

variable {len : ℕ → ℕ} {c r : ℕ}

theorem mul_add_lt_mul_iff (hr : r < c) {n l : ℕ} : n * c + r < l * c ↔ n < l := by
  constructor
  · intro h
    by_contra hle
    have := Nat.mul_le_mul_right c (Nat.not_lt.mp hle)
    omega
  · intro h
    have := Nat.mul_le_mul_right c (Nat.succ_le_of_lt h)
    rw [Nat.succ_mul] at this
    omega

theorem mul_add_sub_mul {n l : ℕ} (h : l ≤ n) : n * c + r - l * c = (n - l) * c + r := by
  have := Nat.mul_le_mul_right c h
  rw [Nat.sub_mul]
  omega

/-- In a finer unit the lengths are taken off in the same way, and what is left of the coarser
one stays. -/
theorem takeOff_mul (hr : r < c) (rounds k n : ℕ) :
    takeOff (fun k => len k * c) rounds k (n * c + r) =
      (takeOff len rounds k n).map fun p => (p.1, p.2 * c + r) := by
  induction rounds generalizing k n with
  | zero => rfl
  | succ rounds ih =>
    rw [takeOff, takeOff]
    by_cases hn : n < len k
    · rw [if_pos hn, if_pos ((mul_add_lt_mul_iff hr).mpr hn)]
      rfl
    · rw [if_neg hn, if_neg (mt (mul_add_lt_mul_iff hr).mp hn), mul_add_sub_mul (Nat.not_lt.mp hn),
        ih]

theorem takeOffList_mul (hr : r < c) (ls : List ℕ) (k n : ℕ) :
    takeOffList (ls.map (· * c)) k (n * c + r) =
      ((takeOffList ls k n).1, (takeOffList ls k n).2 * c + r) := by
  induction ls generalizing k n with
  | nil => rfl
  | cons l ls ih =>
    rw [List.map_cons, takeOffList, takeOffList]
    by_cases hn : n < l
    · rw [if_pos hn, if_pos ((mul_add_lt_mul_iff hr).mpr hn)]
    · rw [if_neg hn, if_neg (mt (mul_add_lt_mul_iff hr).mp hn), mul_add_sub_mul (Nat.not_lt.mp hn),
        ih]

end Scale

end Forgetty.Lib
