import Mathlib.Data.List.Basic

/-! Logs in which every entry is justified by the ones in front of it, and logs of openings and
closings by key. -/

namespace Forgetty.Lib

section Justified

variable {α : Type*}

/-- Every entry is right for what was in the log before. -/
def Justified (right : List α → α → Prop) (log : List α) : Prop :=
  ∀ before a after, log = before ++ a :: after → right before a

variable {right : List α → α → Prop}

theorem justified_nil : Justified right [] :=
  fun before _ _ h => absurd h.symm (List.append_ne_nil_of_right_ne_nil before (List.cons_ne_nil _ _))

/-- One entry more. -/
theorem justified_concat_iff {log : List α} {a : α} :
    Justified right (log ++ [a]) ↔ Justified right log ∧ right log a := by
  constructor
  · intro h
    refine ⟨fun before b after hlog => ?_, h log a [] rfl⟩
    apply h before b (after ++ [a])
    rw [hlog, List.append_assoc, List.cons_append]
  · rintro ⟨hlog, ha⟩ before b after heq
    rcases List.eq_nil_or_concat after with rfl | ⟨after, c, rfl⟩
    · obtain ⟨rfl, hb⟩ := List.append_inj' heq rfl
      cases hb
      exact ha
    · rw [List.concat_eq_append, ← List.cons_append, ← List.append_assoc] at heq
      obtain ⟨hfront, -⟩ := List.append_inj' heq rfl
      exact hlog before b after hfront

end Justified

/-! ### Openings and closings -/

inductive Mark (κ : Type*) where
  | opened (k : κ)
  | closed (k : κ)

section Marks

variable {κ : Type*} {k : κ} {log : List (Mark κ)} {m : Mark κ}

/-- The key was opened and has not been closed since. -/
def IsOpen (k : κ) (log : List (Mark κ)) : Prop :=
  ∃ before after, log = before ++ .opened k :: after ∧ .closed k ∉ after

theorem not_isOpen_nil : ¬IsOpen k [] := by
  rintro ⟨before, after, h, -⟩
  simp at h

theorem isOpen_concat_iff :
    IsOpen k (log ++ [m]) ↔ m = .opened k ∨ IsOpen k log ∧ m ≠ .closed k := by
  constructor
  · rintro ⟨before, after, heq, hafter⟩
    rcases List.eq_nil_or_concat after with rfl | ⟨after, c, rfl⟩
    · obtain ⟨-, hm⟩ := List.append_inj' heq rfl
      exact .inl (List.cons.inj hm).1
    · rw [List.concat_eq_append, ← List.cons_append, ← List.append_assoc] at heq
      obtain ⟨hlog, hm⟩ := List.append_inj' heq rfl
      cases hm
      rw [List.concat_eq_append, List.mem_append, List.mem_singleton, not_or] at hafter
      exact .inr ⟨⟨before, after, hlog, hafter.1⟩, Ne.symm hafter.2⟩
  · rintro (rfl | ⟨⟨before, after, rfl, hafter⟩, hm⟩)
    · exact ⟨log, [], rfl, List.not_mem_nil⟩
    · refine ⟨before, after ++ [m], by rw [List.append_assoc, List.cons_append], ?_⟩
      rw [List.mem_append, List.mem_singleton, not_or]
      exact ⟨hafter, Ne.symm hm⟩

/-- Only what is open is closed. -/
def Paired (log : List (Mark κ)) : Prop :=
  Justified (fun before m => ∀ k, m = .closed k → IsOpen k before) log

theorem paired_nil : Paired ([] : List (Mark κ)) := justified_nil

theorem paired_concat_opened : Paired (log ++ [.opened k]) ↔ Paired log := by
  rw [Paired, justified_concat_iff]
  exact and_iff_left fun _ h => by cases h

theorem paired_concat_closed : Paired (log ++ [.closed k]) ↔ Paired log ∧ IsOpen k log := by
  rw [Paired, justified_concat_iff]
  refine and_congr_right fun _ => ⟨fun h => h k rfl, fun h k' hk => ?_⟩
  cases hk
  exact h

end Marks

end Forgetty.Lib
