import Forgetty.Lib.Run

/-! The moments of a run, and what holds between any two of them. -/

namespace Forgetty.Lib

section Moments

variable {σ ι : Type*}

/-- The state behind the first `k` inputs. After the last one it stays as it is. -/
def moment (step : σ → ι → σ) (s : σ) (is : List ι) (k : ℕ) : σ := run step s (is.take k)

variable {step : σ → ι → σ} {s : σ} {is : List ι} {k : ℕ}

theorem moment_succ {i : ι} (h : is[k]? = some i) :
    moment step s is (k + 1) = step (moment step s is k) i := by
  rw [moment, List.take_add_one, h, run_append]
  rfl

theorem moment_end (h : is[k]? = none) : moment step s is (k + 1) = moment step s is k := by
  rw [moment, List.take_add_one, h]
  exact congrArg (run step s) (List.append_nil _)

theorem meets_iff_moment {guard : σ → ι → Prop} : Meets step guard s is ↔
    ∀ k i, is[k]? = some i → guard (moment step s is k) i := by
  induction is generalizing s with
  | nil => simp [Meets]
  | cons i is ih =>
    rw [Meets, ih]
    constructor
    · rintro ⟨hfirst, hrest⟩ (_ | k) j hj
      · obtain rfl := Option.some.inj hj
        exact hfirst
      · exact hrest k j hj
    · exact fun h => ⟨h 0 i rfl, fun k => h (k + 1)⟩

/-- The rule for what holds in every moment. -/
theorem forall_moments {P : σ → Prop} (h0 : P s)
    (hstep : ∀ k i, is[k]? = some i → P (moment step s is k) → P (step (moment step s is k) i))
    (k : ℕ) : P (moment step s is k) := by
  induction k with
  | zero => exact h0
  | succ k ih =>
    cases hi : is[k]? with
    | none => rwa [moment_end hi]
    | some i =>
      rw [moment_succ hi]
      exact hstep k i hi ih

/-- The rule for what holds between a moment and every later one. -/
theorem forall_pairs {R : σ → σ → Prop}
    (hrefl : ∀ j, R (moment step s is j) (moment step s is j))
    (hstep : ∀ j k i, j ≤ k → is[k]? = some i → R (moment step s is j) (moment step s is k) →
      R (moment step s is j) (step (moment step s is k) i)) {j : ℕ} (h : j ≤ k) :
    R (moment step s is j) (moment step s is k) := by
  induction h with
  | refl => exact hrefl j
  | step hle ih =>
    rename_i k
    cases hi : is[k]? with
    | none => rwa [moment_end hi]
    | some i =>
      rw [moment_succ hi]
      exact hstep j k i hle hi ih

end Moments

end Forgetty.Lib
