import Forgetty.Lib.Run
import Mathlib.Data.List.Basic
import Mathlib.Data.List.Perm.Basic

/-! Operations that take a lock several times. Between two of its critical sections an
operation keeps what it still has to do, and any other section may run. A run is a list of
turns: an operation starts with its first section, or one that is pending runs its next.
An operation that is left alone leads where it leads as a whole. -/

namespace Forgetty.Lib

variable {σ ι τ : Type*}

/-- The first section of an operation and the next one of a pending operation, each with
what is left to do. -/
structure Sections (σ ι τ : Type*) where
  start : ι → σ → σ × Option τ
  resume : τ → σ → σ × Option τ

/-- The state behind the lock and the operations between two of their sections. -/
structure Shared (σ τ : Type*) where
  state : σ
  pending : List τ

inductive Turn (ι : Type*) where
  | start (i : ι)
  | resume (k : ℕ)

namespace Sections

variable (S : Sections σ ι τ)

/-- One critical section. -/
def turn (m : Shared σ τ) : Turn ι → Shared σ τ
  | .start i => ⟨(S.start i m.state).1, m.pending ++ (S.start i m.state).2.toList⟩
  | .resume k =>
    match m.pending[k]? with
    | none => m
    | some t => ⟨(S.resume t m.state).1, m.pending.eraseIdx k ++ (S.resume t m.state).2.toList⟩

/-- The rest of an operation that no other section interrupts. -/
inductive Completes : Option τ → σ → σ → Prop
  | done (s : σ) : Completes none s s
  | step {t : τ} {s u : σ} (h : Completes (S.resume t s).2 (S.resume t s).1 u) :
    Completes (some t) s u

variable {S}

/-- Left alone, an operation is done after some turns. -/
theorem Completes.turns {t : Option τ} {s u : σ} (h : S.Completes t s u) :
    ∃ n, run S.turn ⟨s, t.toList⟩ (List.replicate n (.resume 0)) = ⟨u, []⟩ := by
  induction h with
  | done s => exact ⟨0, rfl⟩
  | step h ih =>
    obtain ⟨n, hn⟩ := ih
    exact ⟨n + 1, hn⟩

/-- The invariant rule: a property of the state and of what is pending, whatever the order,
that the sections keep. -/
theorem turn_invariant {P : σ → List τ → Prop} {m : Shared σ τ}
    (hperm : ∀ s ts ts', ts.Perm ts' → P s ts → P s ts')
    (turn : Turn ι)
    (hstart : ∀ i, turn = .start i → P m.state m.pending →
      P (S.start i m.state).1 ((S.start i m.state).2.toList ++ m.pending))
    (hresume : ∀ k t rest, turn = .resume k → m.pending[k]? = some t → m.pending.Perm (t :: rest) →
      P m.state (t :: rest) → P (S.resume t m.state).1 ((S.resume t m.state).2.toList ++ rest))
    (h : P m.state m.pending) : P (S.turn m turn).state (S.turn m turn).pending := by
  cases turn with
  | start i => exact hperm _ _ _ List.perm_append_comm (hstart i rfl h)
  | resume k =>
    rw [Sections.turn]
    split
    · exact h
    · rename_i t ht
      obtain ⟨hk, rfl⟩ := List.getElem?_eq_some_iff.mp ht
      have hp := (List.getElem_cons_eraseIdx_perm hk).symm
      exact hperm _ _ _ List.perm_append_comm (hresume k _ _ rfl ht hp (hperm _ _ _ hp h))

end Sections

end Forgetty.Lib
