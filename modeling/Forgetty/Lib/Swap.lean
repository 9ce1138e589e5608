import Mathlib.Logic.Equiv.Basic
import Mathlib.Tactic.Common

/-! Lists in which two elements are exchanged. The exchange reads the list through
the transposition of the two indices, so exchanges that share no index commute, and
an index that follows its element goes through the same transposition. -/

namespace Forgetty.Lib

variable {α β : Type*}

/-- Exchange the elements at two indices. Out of bounds nothing happens. -/
def swapIdx (as : List α) (i j : ℕ) : List α :=
  match as[i]?, as[j]? with
  | some a, some b => (as.set i b).set j a
  | _, _ => as

theorem swapIdx_of_some {as : List α} {i j : ℕ} {a b : α} (hi : as[i]? = some a)
    (hj : as[j]? = some b) : swapIdx as i j = (as.set i b).set j a := by
  simp only [swapIdx, hi, hj]

@[simp] theorem length_swapIdx (as : List α) (i j : ℕ) : (swapIdx as i j).length = as.length := by
  unfold swapIdx
  split
  · simp
  · rfl

/-- The exchanged list, read through the transposition. -/
theorem getElem?_swapIdx {as : List α} {i j : ℕ} (hi : i < as.length) (hj : j < as.length) (k : ℕ) :
    (swapIdx as i j)[k]? = as[Equiv.swap i j k]? := by
  rw [swapIdx_of_some (List.getElem?_eq_getElem hi) (List.getElem?_eq_getElem hj),
    Equiv.swap_apply_def]
  split_ifs with hki hkj
  · subst hki
    by_cases hkj : k = j
    · subst hkj
      simp [hj]
    · rw [List.getElem?_set_ne (Ne.symm hkj), List.getElem?_set_self hi, List.getElem?_eq_getElem hj]
  · subst hkj
    rw [List.getElem?_set_self (by simpa), List.getElem?_eq_getElem hi]
  · rw [List.getElem?_set_ne (Ne.symm hkj), List.getElem?_set_ne (Ne.symm hki)]

theorem swapIdx_of_not_lt {as : List α} {i j : ℕ} (h : ¬(i < as.length ∧ j < as.length)) :
    swapIdx as i j = as := by
  unfold swapIdx
  rw [not_and_or, Nat.not_lt, Nat.not_lt] at h
  rcases h with h | h
  · rw [List.getElem?_eq_none_iff.mpr h]
  · rw [List.getElem?_eq_none_iff.mpr h]
    rcases as[i]? <;> rfl

/-- Nothing is exchanged with itself. -/
@[simp] theorem swapIdx_self (as : List α) (i : ℕ) : swapIdx as i i = as := by
  by_cases h : i < as.length
  · refine List.ext_getElem? fun k => ?_
    rw [getElem?_swapIdx h h, Equiv.swap_self, Equiv.refl_apply]
  · exact swapIdx_of_not_lt fun h' => h h'.1

/-- Exchanging twice is no change. -/
theorem swapIdx_swapIdx_self (as : List α) (i j : ℕ) : swapIdx (swapIdx as i j) i j = as := by
  by_cases h : i < as.length ∧ j < as.length
  · refine List.ext_getElem? fun k => ?_
    rw [getElem?_swapIdx (by simpa using h.1) (by simpa using h.2), getElem?_swapIdx h.1 h.2,
      Equiv.swap_apply_self]
  · rw [swapIdx_of_not_lt h, swapIdx_of_not_lt h]

theorem swapIdx_injective (i j : ℕ) : Function.Injective fun as : List α => swapIdx as i j :=
  @Function.LeftInverse.injective _ _ (fun as => swapIdx as i j) _
    fun as => swapIdx_swapIdx_self as i j

/-- An index that follows its element through an exchange. -/
def follow (i j k : ℕ) : ℕ := if k = i then j else if k = j then i else k

theorem follow_eq_swap (i j k : ℕ) : follow i j k = Equiv.swap i j k := by
  rw [Equiv.swap_apply_def]
  rfl

@[simp] theorem follow_self (i k : ℕ) : follow i i k = k := by
  rw [follow_eq_swap, Equiv.swap_self, Equiv.refl_apply]

/-- The element an index follows is still the one it designates. -/
theorem getElem?_swapIdx_follow {as : List α} {i j : ℕ} (hi : i < as.length) (hj : j < as.length)
    (k : ℕ) : (swapIdx as i j)[follow i j k]? = as[k]? := by
  rw [getElem?_swapIdx hi hj, follow_eq_swap, Equiv.swap_apply_self]

theorem map_swapIdx (f : α → β) (as : List α) (i j : ℕ) :
    (swapIdx as i j).map f = swapIdx (as.map f) i j := by
  unfold swapIdx
  rw [List.getElem?_map, List.getElem?_map]
  rcases as[i]? with _ | a <;> rcases as[j]? with _ | b <;> simp [List.map_set]

theorem swapIdx_comm (as : List α) (i j : ℕ) : swapIdx as i j = swapIdx as j i := by
  by_cases h : i < as.length ∧ j < as.length
  · refine List.ext_getElem? fun k => ?_
    rw [getElem?_swapIdx h.1 h.2, getElem?_swapIdx h.2 h.1, Equiv.swap_comm]
  · rw [swapIdx_of_not_lt h, swapIdx_of_not_lt fun h' => h ⟨h'.2, h'.1⟩]

theorem swapIdx_perm (as : List α) (i j : ℕ) : (swapIdx as i j).Perm as := by
  unfold swapIdx
  split
  · rename_i a b hi hj
    obtain ⟨hil, rfl⟩ := List.getElem?_eq_some_iff.mp hi
    obtain ⟨hjl, rfl⟩ := List.getElem?_eq_some_iff.mp hj
    exact List.set_set_perm hil hjl
  · exact List.Perm.refl _

/-- Exchanging two different elements changes the list. -/
theorem swapIdx_ne {as : List α} (hd : as.Nodup) {i j : ℕ} (hij : i ≠ j) (hi : i < as.length)
    (hj : j < as.length) : swapIdx as i j ≠ as := by
  intro heq
  have h := getElem?_swapIdx hi hj i
  rw [heq, Equiv.swap_apply_left] at h
  exact hij ((List.getElem?_inj hi hd).mp h)

/-- The exchanges one after the other. -/
def swapAll (as : List α) (ps : List (ℕ × ℕ)) : List α :=
  ps.foldl (fun as p => swapIdx as p.1 p.2) as

@[simp] theorem swapAll_nil (as : List α) : swapAll as [] = as := rfl

@[simp] theorem swapAll_cons (as : List α) (p : ℕ × ℕ) (ps : List (ℕ × ℕ)) :
    swapAll as (p :: ps) = swapAll (swapIdx as p.1 p.2) ps := rfl

theorem swapAll_append (as : List α) (ps qs : List (ℕ × ℕ)) :
    swapAll as (ps ++ qs) = swapAll (swapAll as ps) qs := List.foldl_append

end Forgetty.Lib
