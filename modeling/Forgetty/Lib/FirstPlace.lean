import Mathlib.Data.List.Infix
import Mathlib.Tactic.Common

/-! The first place at which a list of items stands in another one. Where that is depends on
nothing behind the end of this place, so whatever is written there leaves it the first. -/

namespace Forgetty.Lib

variable {α : Type*} {sub p q l l' : List α}

/-- What stands before the first place of `sub` in `l`. -/
def FirstAt (sub p l : List α) : Prop :=
  p ++ sub <+: l ∧ ∀ i < p.length, ¬ sub <+: l.drop i

namespace FirstAt

instance [DecidableEq α] (sub p l : List α) : Decidable (FirstAt sub p l) :=
  inferInstanceAs (Decidable (_ ∧ _))

theorem drop_append (h : p ++ sub <+: l) : sub <+: l.drop p.length := by
  obtain ⟨rest, rfl⟩ := h
  rw [List.append_assoc, List.drop_left]
  exact List.prefix_append sub rest

theorem unique (h : FirstAt sub p l) (h' : FirstAt sub q l) : p = q := by
  have hle : p.length ≤ q.length := by
    by_contra hlt
    exact h.2 q.length (by omega) (drop_append h'.1)
  have hge : q.length ≤ p.length := by
    by_contra hlt
    exact h'.2 p.length (by omega) (drop_append h.1)
  have hp := (List.prefix_append p sub).trans h.1
  have hq := (List.prefix_append q sub).trans h'.1
  rw [List.prefix_iff_eq_take.mp hp, List.prefix_iff_eq_take.mp hq, Nat.le_antisymm hle hge]

/-- Any place of the list that ends where the first one does, or before it, is seen in the part up
to there. -/
theorem within {i : ℕ} (h : p ++ sub <+: l) (hi : i ≤ p.length) (hsub : sub <+: l.drop i) :
    sub <+: (p ++ sub).drop i := by
  refine List.prefix_of_prefix_length_le hsub (h.drop i) ?_
  rw [List.length_drop, List.length_append]
  omega

/-- The part up to the end of the first place says where it is. -/
theorem transfer (h : FirstAt sub p l) (h' : p ++ sub <+: l') : FirstAt sub p l' :=
  ⟨h', fun i hi hsub => h.2 i hi ((within h' hi.le hsub).trans (h.1.drop i))⟩

theorem write (h : FirstAt sub p l) (q : List α) : FirstAt sub p (p ++ sub ++ q) :=
  h.transfer (List.prefix_append _ q)

theorem append (h : FirstAt sub p l) (q : List α) : FirstAt sub p (l ++ q) :=
  h.transfer (h.1.trans (List.prefix_append l q))

theorem isInfix (h : FirstAt sub p l) : sub <:+: l :=
  (List.suffix_append p sub).isInfix.trans h.1.isInfix

end FirstAt

/-- A list that stands in another one has a first place there. -/
theorem exists_firstAt (h : sub <:+: l) : ∃ p, FirstAt sub p l := by
  induction l with
  | nil =>
    rw [List.infix_nil.mp h]
    exact ⟨[], List.nil_prefix, fun i hi => absurd hi (Nat.not_lt_zero i)⟩
  | cons a l ih =>
    by_cases hp : sub <+: a :: l
    · exact ⟨[], hp, fun i hi => absurd hi (Nat.not_lt_zero i)⟩
    · obtain ⟨p, hfirst⟩ := ih ((List.infix_cons_iff.mp h).resolve_left hp)
      refine ⟨a :: p, List.prefix_cons_inj a |>.mpr hfirst.1, fun i hi => ?_⟩
      cases i with
      | zero => exact hp
      | succ i => exact hfirst.2 i (Nat.lt_of_succ_lt_succ hi)

/-- The place behind `p` is the first exactly if there is none in what can be read before the last
item is there. -/
theorem firstAt_self_iff (hsub : sub ≠ []) :
    FirstAt sub p (p ++ sub) ↔ ¬ sub <:+: p ++ sub.dropLast := by
  have hpos : 0 < sub.length := List.length_pos_iff.mpr hsub
  have hshort : p ++ sub.dropLast <+: p ++ sub :=
    (List.prefix_append_right_inj p).mpr sub.dropLast_prefix
  constructor
  · rintro h ⟨s, t, hst⟩
    have hlen := congrArg List.length hst
    simp only [List.length_append, List.length_dropLast] at hlen
    have hs : s ++ sub <+: p ++ sub := (hst ▸ List.prefix_append (s ++ sub) t).trans hshort
    exact h.2 s.length (by omega) (FirstAt.drop_append hs)
  · refine fun h => ⟨List.prefix_refl _, fun i hi hplace => h ?_⟩
    have hin : sub <+: (p ++ sub.dropLast).drop i := by
      refine List.prefix_of_prefix_length_le hplace (hshort.drop i) ?_
      rw [List.length_drop, List.length_append, List.length_dropLast]
      omega
    exact hin.isInfix.trans (List.drop_suffix i _).isInfix

end Forgetty.Lib
