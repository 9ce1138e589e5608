import Mathlib.Data.List.Nodup
import Mathlib.Data.List.Perm.Basic
import Mathlib.Logic.Function.Basic

/-! Names a counter hands out. Some names are in use, and some are set aside to come into
use later. No name comes into use twice when the counter repeats none, what is set aside is
not in use, and what is still to be handed out is neither. -/

namespace Forgetty.Lib

variable {ι : Type*}

/-- The names are handed out between two readings of the counter, each once. -/
def HandedOut (next : ℕ → ι) (n m : ℕ) (names : List ι) : Prop :=
  names.Nodup ∧ ∀ i ∈ names, ∃ k, n ≤ k ∧ k < m ∧ i = next k

/-- The counter stands at `n`, with names in use and names set aside. -/
structure Reserve (next : ℕ → ι) (n : ℕ) (used : ι → Prop) (aside : List ι) : Prop where
  fresh : ∀ k, n ≤ k → ¬used (next k) ∧ next k ∉ aside
  nodup : aside.Nodup
  apart : ∀ i ∈ aside, ¬used i

/-- The name may come into use when the counter stands at `n`. -/
structure Free (next : ℕ → ι) (n : ℕ) (aside : List ι) (i : ι) : Prop where
  not_aside : i ∉ aside
  past : ∀ k, n ≤ k → i ≠ next k

theorem Free.mono {next : ℕ → ι} {n m : ℕ} {aside : List ι} {i : ι} (h : Free next n aside i)
    (hm : n ≤ m) : Free next m aside i where
  not_aside := h.not_aside
  past k hk := h.past k (Nat.le_trans hm hk)

namespace Reserve

variable {next : ℕ → ι} {n m : ℕ} {used used' : ι → Prop} {aside aside' new : List ι}

theorem perm (h : Reserve next n used aside) (hp : aside'.Perm aside) :
    Reserve next n used aside' where
  fresh k hk := by
    rw [hp.mem_iff]
    exact h.fresh k hk
  nodup := hp.nodup_iff.mpr h.nodup
  apart i hi := h.apart i (hp.mem_iff.mp hi)

/-- Free names come into use, others may go out of use. -/
theorem use (h : Reserve next n used aside) (hm : n ≤ m)
    (hused : ∀ i, used' i → used i ∨ i ∈ new) (hnew : ∀ i ∈ new, Free next m aside i) :
    Reserve next m used' aside where
  fresh k hk := by
    obtain ⟨hnot, haside⟩ := h.fresh k (Nat.le_trans hm hk)
    refine ⟨fun hmem => ?_, haside⟩
    rcases hused _ hmem with hmem | hmem
    · exact hnot hmem
    · exact (hnew _ hmem).past k hk rfl
  nodup := h.nodup
  apart i hi hmem := by
    rcases hused i hmem with hmem | hmem
    · exact h.apart i hi hmem
    · exact (hnew i hmem).not_aside hi

/-- Nothing comes into use. -/
theorem keep (h : Reserve next n used aside) (hm : n ≤ m) (hused : ∀ i, used' i → used i) :
    Reserve next m used' aside := by
  have hnone : ∀ i ∈ ([] : List ι), Free next m aside i := by simp
  exact h.use hm (fun i hi => Or.inl (hused i hi)) hnone

/-- A name that is handed out is free, and was not in use. -/
theorem free_of_handedOut (hnext : Function.Injective next) (h : Reserve next n used aside)
    (hnew : HandedOut next n m new) : ∀ i ∈ new, ¬used i ∧ Free next m aside i := by
  intro i hi
  obtain ⟨k, hk, hkm, rfl⟩ := hnew.2 i hi
  obtain ⟨hnot, haside⟩ := h.fresh k hk
  refine ⟨hnot, haside, fun l hl heq => ?_⟩
  obtain rfl := hnext heq
  omega

/-- Names that are handed out are set aside. -/
theorem hold (hnext : Function.Injective next) (h : Reserve next n used aside) (hm : n ≤ m)
    (hnew : HandedOut next n m new) : Reserve next m used (new ++ aside) := by
  have hfree := h.free_of_handedOut hnext hnew
  refine ⟨fun k hk => ?_, ?_, fun i hi => ?_⟩
  · obtain ⟨hnot, haside⟩ := h.fresh k (Nat.le_trans hm hk)
    rw [List.mem_append, not_or]
    exact ⟨hnot, fun hmem => (hfree _ hmem).2.past k hk rfl, haside⟩
  · rw [List.nodup_append]
    refine ⟨hnew.1, h.nodup, fun i hi j hj heq => ?_⟩
    exact (hfree i hi).2.not_aside (heq ▸ hj)
  · rcases List.mem_append.mp hi with hi | hi
    · exact (hfree i hi).1
    · exact h.apart i hi

/-- Names set aside are free when they are no longer held. -/
theorem release (h : Reserve next n used (new ++ aside)) :
    Reserve next n used aside ∧ new.Nodup ∧ ∀ i ∈ new, ¬used i ∧ Free next n aside i := by
  obtain ⟨hnew, haside, hapart⟩ := List.nodup_append.mp h.nodup
  refine ⟨⟨fun k hk => ?_, haside, fun i hi => ?_⟩, hnew, fun i hi => ?_⟩
  · obtain ⟨hnot, hmem⟩ := h.fresh k hk
    exact ⟨hnot, fun hi => hmem (List.mem_append_right _ hi)⟩
  · exact h.apart i (List.mem_append_right _ hi)
  · refine ⟨h.apart i (List.mem_append_left _ hi), fun hmem => hapart i hi i hmem rfl, ?_⟩
    rintro k hk rfl
    exact (h.fresh k hk).2 (List.mem_append_left _ hi)

end Reserve

end Forgetty.Lib
