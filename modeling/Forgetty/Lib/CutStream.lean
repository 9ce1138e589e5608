import Mathlib.Data.List.Infix
import Mathlib.Data.List.TakeDrop

/-! A stream of records, each ended by a stop, that is cut off anywhere. What has come are
the first records as they are and a beginning of the next one. -/

namespace Forgetty.Lib

variable {α β : Type*}

/-- The records one after the other, each with its stop. -/
def terminated (stop : α) (records : List (List α)) : List α :=
  records.flatMap fun record => record ++ [stop]

section Cut

variable {stop : α} {records records' : List (List α)} {record cut part : List α} {k m : ℕ}

@[simp] theorem terminated_nil : terminated stop [] = [] := rfl

@[simp] theorem terminated_cons (record : List α) (records : List (List α)) :
    terminated stop (record :: records) = record ++ stop :: terminated stop records := by
  simp [terminated]

theorem terminated_append (records records' : List (List α)) :
    terminated stop (records ++ records') =
      terminated stop records ++ terminated stop records' := List.flatMap_append

theorem terminated_mono (h : records <+: records') :
    terminated stop records <+: terminated stop records' := by
  obtain ⟨rest, rfl⟩ := h
  rw [terminated_append]
  exact List.prefix_append _ _

variable (stop) in
theorem terminated_take_succ (h : records[m]? = some record) :
    terminated stop (records.take (m + 1)) =
      terminated stop (records.take m) ++ (record ++ [stop]) := by
  rw [List.take_add_one, h, Option.toList_some, terminated_append]
  simp

variable (stop) in
theorem length_terminated_take_lt {i j : ℕ} (hij : i < j) (hj : j ≤ records.length) :
    (terminated stop (records.take i)).length < (terminated stop (records.take j)).length := by
  have hi := List.getElem?_eq_getElem (show i < records.length by omega)
  have hnext := congrArg List.length (terminated_take_succ stop hi)
  have hle : (terminated stop (records.take (i + 1))).length ≤
      (terminated stop (records.take j)).length :=
    (terminated_mono (List.take_prefix_take_left hij)).length_le
  simp only [List.length_append, List.length_singleton] at hnext
  omega

/-- The first `m` records have come, and a beginning of the next one. -/
structure CutAt (stop : α) (records : List (List α)) (cut : List α) (m : ℕ) (part : List α) :
    Prop where
  le : m ≤ records.length
  eq : cut = terminated stop (records.take m) ++ part
  part : part <+: (records[m]?).getD []

theorem exists_cutAt (h : cut <+: terminated stop records) :
    ∃ m part, CutAt stop records cut m part := by
  induction records generalizing cut with
  | nil =>
    rw [terminated_nil, List.prefix_nil] at h
    exact ⟨0, [], Nat.le_refl 0, h, List.nil_prefix⟩
  | cons record records ih =>
    rw [terminated_cons] at h
    by_cases hlen : cut.length ≤ record.length
    · have hcut := List.prefix_of_prefix_length_le h (List.prefix_append _ _) hlen
      exact ⟨0, cut, Nat.zero_le _, rfl, hcut⟩
    · have hrecord : record ++ [stop] <+: record ++ stop :: terminated stop records := by
        simp
      have hcome : record ++ [stop] <+: cut := by
        apply List.prefix_of_prefix_length_le hrecord h
        simp
        omega
      obtain ⟨rest, rfl⟩ := hcome
      have hrest : rest <+: terminated stop records := by simpa using h
      obtain ⟨m, part, hcut⟩ := ih hrest
      refine ⟨m + 1, part, by simpa using hcut.le, ?_, by simpa using hcut.part⟩
      rw [hcut.eq]
      simp

/-- The records that have come but perhaps for the last stop. -/
def wholes [DecidableEq α] (records : List (List α)) (m : ℕ) (part : List α) : ℕ :=
  if records[m]? = some part then m + 1 else m

theorem CutAt.begins (h : CutAt stop records cut m part) : cut <+: terminated stop records := by
  obtain ⟨hle, rfl, hpart⟩ := h
  cases hm : records[m]? with
  | none =>
    rw [hm, Option.getD_none, List.prefix_nil] at hpart
    subst hpart
    rw [List.append_nil]
    exact terminated_mono (List.take_prefix m records)
  | some record =>
    rw [hm, Option.getD_some] at hpart
    calc terminated stop (records.take m) ++ part
        <+: terminated stop (records.take m) ++ (record ++ [stop]) := by
          rw [List.prefix_append_right_inj]
          exact List.prefix_append_of_prefix hpart
      _ = terminated stop (records.take (m + 1)) := (terminated_take_succ stop hm).symm
      _ <+: terminated stop records := terminated_mono (List.take_prefix _ records)

variable [DecidableEq α]

theorem CutAt.wholes_le (h : CutAt stop records cut m part) :
    wholes records m part ≤ records.length := by
  unfold wholes
  split_ifs with hm
  · exact (List.getElem?_eq_some_iff.mp hm).1
  · exact h.le

/-- A record has come if all before its stop has come. -/
theorem CutAt.le_wholes_iff (h : CutAt stop records cut m part) (hpos : 0 < k)
    (hk : k ≤ records.length) :
    k ≤ wholes records m part ↔ (terminated stop (records.take k)).dropLast <+: cut := by
  have hstream : (terminated stop (records.take k)).dropLast <+: terminated stop records :=
    (List.dropLast_prefix _).trans (terminated_mono (List.take_prefix k records))
  have hlength : (terminated stop (records.take k)).dropLast <+: cut ↔
      (terminated stop (records.take k)).length - 1 ≤ cut.length := by
    rw [← List.length_dropLast]
    exact ⟨List.IsPrefix.length_le, List.prefix_of_prefix_length_le hstream h.begins⟩
  have hcut : cut.length = (terminated stop (records.take m)).length + part.length := by
    rw [h.eq, List.length_append]
  rw [hlength, hcut]
  obtain ⟨hle, -, hpart⟩ := h
  unfold wholes
  rcases Nat.lt_trichotomy k m with hkm | rfl | hkm
  · have := length_terminated_take_lt stop hkm hle
    split_ifs <;> omega
  · split_ifs <;> omega
  · have hm := List.getElem?_eq_getElem (show m < records.length by omega)
    have hnext := congrArg List.length (terminated_take_succ stop hm)
    rw [hm, Option.getD_some] at hpart
    simp only [List.length_append, List.length_singleton] at hnext
    by_cases hk' : k = m + 1
    · subst hk'
      rw [hm, hnext]
      split_ifs with heq
      · rw [Option.some.inj heq]
        omega
      · have hlt : part.length < records[m].length :=
          lt_of_le_of_ne hpart.length_le fun heq' => heq (by rw [hpart.eq_of_length heq'])
        omega
    · have hlt := length_terminated_take_lt stop (show m + 1 < k by omega) hk
      have hle := hpart.length_le
      split_ifs <;> omega

end Cut

/-! ### Some of the records only -/

/-- The first of the items that are kept, told by the list they were kept of. -/
theorem exists_take_filterMap (f : α → Option β) (as : List α) {m : ℕ}
    (hm : m ≤ (as.filterMap f).length) :
    ∃ j ≤ as.length, (as.take j).filterMap f = (as.filterMap f).take m ∧
      ∀ k ≤ as.length, k ≤ j ↔ ((as.take k).filterMap f).length ≤ m := by
  induction as generalizing m with
  | nil => exact ⟨0, Nat.le_refl 0, by simp, by simp⟩
  | cons a as ih =>
    cases ha : f a with
    | none =>
      rw [List.filterMap_cons_none ha] at hm ⊢
      obtain ⟨j, hj, heq, hiff⟩ := ih hm
      refine ⟨j + 1, Nat.succ_le_succ hj, by rw [List.take_succ_cons, List.filterMap_cons_none ha, heq], ?_⟩
      rintro (_ | k) hk
      · simp
      · rw [List.take_succ_cons, List.filterMap_cons_none ha, Nat.add_le_add_iff_right]
        exact hiff k (Nat.le_of_succ_le_succ hk)
    | some b =>
      rw [List.filterMap_cons_some ha] at hm ⊢
      cases m with
      | zero =>
        refine ⟨0, Nat.zero_le _, by simp, ?_⟩
        rintro (_ | k) hk
        · simp
        · simp [List.filterMap_cons_some ha]
      | succ m =>
        obtain ⟨j, hj, heq, hiff⟩ := ih (Nat.le_of_succ_le_succ hm)
        refine ⟨j + 1, Nat.succ_le_succ hj, ?_, ?_⟩
        · rw [List.take_succ_cons, List.filterMap_cons_some ha, heq, List.take_succ_cons]
        · rintro (_ | k) hk
          · simp
          · rw [List.take_succ_cons, List.filterMap_cons_some ha, List.length_cons,
              Nat.add_le_add_iff_right, Nat.add_le_add_iff_right]
            exact hiff k (Nat.le_of_succ_le_succ hk)

end Forgetty.Lib
