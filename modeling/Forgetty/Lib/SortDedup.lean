import Mathlib.Data.List.Destutter
import Mathlib.Order.Lattice

/-! Sorting by a key and dropping repetitions of neighbours. The sort is stable, so elements of
one key stay in the order they had. Equal elements that stand apart there are not dropped. -/

namespace Forgetty.Lib

variable {α κ : Type*} [LinearOrder κ]

def keyLe (key : α → κ) (a b : α) : Bool := decide (key a ≤ key b)

/-- A stable sort by a key. -/
def sortByKey (key : α → κ) (as : List α) : List α := as.mergeSort (keyLe key)

/-- Of equal neighbours only the first is kept. -/
def dedupNeighbours [DecidableEq α] (as : List α) : List α := as.destutter (· ≠ ·)

section Sorting

variable (key : α → κ) (as : List α)

theorem keyLe_iff {a b : α} : keyLe key a b = true ↔ key a ≤ key b := by
  rw [keyLe, decide_eq_true_iff]

theorem keyLe_trans (a b c : α) (hab : keyLe key a b) (hbc : keyLe key b c) : keyLe key a c := by
  rw [keyLe_iff] at hab hbc ⊢
  exact hab.trans hbc

theorem keyLe_total (a b : α) : (keyLe key a b || keyLe key b a) = true := by
  rw [Bool.or_eq_true, keyLe_iff, keyLe_iff]
  exact le_total _ _

theorem sortByKey_perm : (sortByKey key as).Perm as := List.mergeSort_perm as _

theorem sortByKey_pairwise : (sortByKey key as).Pairwise fun a b => key a ≤ key b := by
  have h := List.pairwise_mergeSort (keyLe_trans key) (keyLe_total key) as
  exact h.imp (keyLe_iff key).mp

/-- Elements of one key keep their order. -/
theorem filter_sortByKey (k : κ) :
    (sortByKey key as).filter (key · = k) = as.filter (key · = k) := by
  have hkeys : (as.filter (key · = k)).Pairwise fun a b => keyLe key a b := by
    refine List.pairwise_iff_forall_sublist.mpr fun {a b} hab => ?_
    have ha : key a = k := of_decide_eq_true (List.mem_filter.mp (hab.subset (by simp))).2
    have hb : key b = k := of_decide_eq_true (List.mem_filter.mp (hab.subset (by simp))).2
    exact (keyLe_iff key).mpr (ha.trans hb.symm).le
  have hsub := (List.sublist_mergeSort (keyLe_trans key) (keyLe_total key) hkeys
    List.filter_sublist).filter (key · = k)
  rw [List.filter_filter] at hsub
  simp only [Bool.and_self] at hsub
  exact (hsub.eq_of_length ((sortByKey_perm key as).filter _).length_eq.symm).symm

end Sorting

section Dedup

variable [DecidableEq α]

theorem dedupNeighbours_sublist (as : List α) : (dedupNeighbours as).Sublist as :=
  List.destutter_sublist _ as

/-- A part without equal neighbours is kept. -/
theorem sublist_dedupNeighbours {as bs : List α} (hb : bs.IsChain (· ≠ ·)) (h : bs.Sublist as) :
    bs.Sublist (dedupNeighbours as) := by
  cases as with
  | nil => exact h
  | cons a as =>
    rw [dedupNeighbours, List.destutter_cons']
    induction as generalizing a bs with
    | nil => exact h
    | cons b as ih =>
      by_cases hab : a ≠ b
      · rw [List.destutter'_cons_pos _ hab]
        rcases List.sublist_cons_iff.mp h with hrest | ⟨cs, rfl, hrest⟩
        · exact (ih hb b hrest).cons a
        · exact (ih hb.tail b hrest).cons_cons a
      · obtain rfl := not_not.mp hab
        rw [List.destutter'_cons_neg _ hab]
        refine ih hb a ?_
        rcases List.sublist_cons_iff.mp h with hrest | ⟨cs, rfl, hrest⟩
        · exact hrest
        · rcases List.sublist_cons_iff.mp hrest with hrest | ⟨ds, rfl, -⟩
          · exact hrest.cons_cons a
          · exact absurd rfl (List.isChain_cons_cons.mp hb).1

theorem mem_dedupNeighbours {as : List α} {a : α} : a ∈ dedupNeighbours as ↔ a ∈ as := by
  refine ⟨fun h => (dedupNeighbours_sublist as).subset h, fun h => ?_⟩
  exact List.singleton_sublist.mp
    (sublist_dedupNeighbours (List.isChain_singleton a) (List.singleton_sublist.mpr h))

/-- Without equal neighbours two equal elements have another one between them. -/
theorem exists_between {as : List α} (hchain : as.IsChain (· ≠ ·)) (hd : ¬as.Nodup) :
    ∃ a b, a ≠ b ∧ [a, b, a].Sublist as := by
  induction as with
  | nil => exact absurd List.nodup_nil hd
  | cons a as ih =>
    by_cases ha : a ∈ as
    · cases as with
      | nil => exact absurd ha List.not_mem_nil
      | cons b as =>
        have hne := (List.isChain_cons_cons.mp hchain).1
        have hmem := (List.mem_cons.mp ha).resolve_left hne
        exact ⟨a, b, hne, ((List.singleton_sublist.mpr hmem).cons_cons b).cons_cons a⟩
    · obtain ⟨b, c, hne, hsub⟩ := ih hchain.tail fun h => hd (List.nodup_cons.mpr ⟨ha, h⟩)
      exact ⟨b, c, hne, hsub.cons a⟩

end Dedup

/-- The result has no repetitions unless an element stands on both sides of another one with
its key. -/
theorem nodup_dedup_sortByKey [DecidableEq α] (key : α → κ) (as : List α) :
    (dedupNeighbours (sortByKey key as)).Nodup ↔
      ∀ a b, key a = key b → [a, b, a].Sublist as → a = b := by
  have hfilter {a b : α} (hkey : key a = key b) {bs cs : List α}
      (hbs : bs.filter (key · = key a) = cs.filter (key · = key a)) (h : [a, b, a].Sublist bs) :
      [a, b, a].Sublist cs := by
    have hkept : [a, b, a].filter (key · = key a) = [a, b, a] := by simp [hkey]
    have hsub := h.filter (key · = key a)
    rw [hkept, hbs] at hsub
    exact hsub.trans List.filter_sublist
  constructor
  · intro hd a b hkey h
    by_contra hne
    have hsorted := hfilter hkey (filter_sortByKey key as (key a)).symm h
    have hchain : [a, b, a].IsChain (· ≠ ·) := by simp [hne, Ne.symm hne]
    have hkept := hd.sublist (sublist_dedupNeighbours hchain hsorted)
    simp at hkept
  · intro h
    by_contra hd
    obtain ⟨a, b, hne, hsub⟩ := exists_between (List.isChain_destutter _ _) hd
    have hsorted := hsub.trans (dedupNeighbours_sublist _)
    have hab := List.pairwise_iff_forall_sublist.mp (sortByKey_pairwise key as)
      ((List.sublist_append_left [a, b] [a]).trans hsorted)
    have hba := List.pairwise_iff_forall_sublist.mp (sortByKey_pairwise key as)
      ((List.sublist_cons_self a [b, a]).trans hsorted)
    have hkey := le_antisymm hab hba
    exact hne (h a b hkey (hfilter hkey (filter_sortByKey key as (key a)) hsorted))

end Forgetty.Lib
