import Forgetty.Lib.FileStore

/-! Code that is interrupted. From some call on nothing the code does has an effect; the
call in which the interruption falls may break off in the middle. Up to there the code
runs as it would without the interruption, since each step makes its calls one after
another and sees nothing but their answers. -/

namespace Forgetty.Lib

/-- The same system interrupted in call `n`, which ends as `a`. -/
def Os.interrupted {ν : Type*} (os : Os ν) (n : ℕ) (a : Answer) : Os ν where
  answer m := if m < n then os.answer m else if m = n then a else .refused
  names := os.names

section

variable {ν : Type*} {os : Os ν} {n m : ℕ} {a : Answer}

theorem Os.interrupted_of_lt (h : m < n) : (os.interrupted n a).answer m = os.answer m := by
  simp [Os.interrupted, h]

theorem Os.interrupted_of_gt (h : n < m) : (os.interrupted n a).answer m = .refused := by
  simp [Os.interrupted, show ¬m < n by omega, show m ≠ n by omega]

/-- A call that has some effect is not behind the interruption. -/
theorem Os.le_of_interrupted (h : (os.interrupted n a).answer m ≠ .refused) : m ≤ n := by
  by_contra hlt
  exact h (Os.interrupted_of_gt (by omega))

end

namespace FileStore

variable {π α ν β γ : Type*}

/-- Code that counts its calls and, as long as it has not made the call it is
interrupted in, does the same as without the interruption. -/
structure Proceeds (f : Os ν → FileStore π α → FileStore π α × β) : Prop where
  calls_le : ∀ os d, d.calls ≤ (f os d).1.calls
  same : ∀ os n a d, (f (os.interrupted n a) d).1.calls ≤ n → f (os.interrupted n a) d = f os d

/-- Code that makes no call. -/
theorem Proceeds.stay (b : β) : Proceeds fun (_ : Os ν) (d : FileStore π α) => (d, b) :=
  ⟨fun _ _ => Nat.le_refl _, fun _ _ _ _ _ => rfl⟩

/-- Code that makes one call and depends on its answer alone. -/
theorem Proceeds.call {f : Os ν → FileStore π α → FileStore π α × β}
    (hcalls : ∀ os d, (f os d).1.calls = d.calls + 1)
    (hsame : ∀ os os' d, os.answer d.calls = os'.answer d.calls → f os d = f os' d) : Proceeds f where
  calls_le os d := by rw [hcalls]; omega
  same os n a d h := by
    rw [hcalls] at h
    exact hsame _ _ _ (Os.interrupted_of_lt (by omega))

/-- One piece of code after another. -/
theorem Proceeds.seq {f : Os ν → FileStore π α → FileStore π α × β}
    {k : β → Os ν → FileStore π α → FileStore π α × γ} (hf : Proceeds f)
    (hk : ∀ b, Proceeds (k b)) : Proceeds fun os d => k (f os d).2 os (f os d).1 where
  calls_le os d := Nat.le_trans (hf.calls_le os d) ((hk _).calls_le os _)
  same os n a d h := by
    have hfirst : f (os.interrupted n a) d = f os d :=
      hf.same os n a d (Nat.le_trans ((hk _).calls_le _ _) h)
    simp only [hfirst] at h ⊢
    exact (hk _).same os n a _ h

theorem Proceeds.andThen {f : Os ν → FileStore π α → FileStore π α × Except IoError β}
    {k : β → Os ν → FileStore π α → FileStore π α × Except IoError γ} (hf : Proceeds f)
    (hk : ∀ b, Proceeds (k b)) :
    Proceeds fun os d => FileStore.andThen (f os d) fun b d => k b os d := by
  have hseq := hf.seq (k := fun r os d => match r with
    | .error e => (d, .error e)
    | .ok b => k b os d) fun r => by
      cases r with
      | error e => exact .stay _
      | ok b => exact hk b
  convert hseq using 3 with os d
  obtain ⟨d', e | b⟩ := f os d <;> rfl

theorem Proceeds.orElse {f k : Os ν → FileStore π α → FileStore π α × Except IoError β}
    (hf : Proceeds f) (hk : Proceeds k) :
    Proceeds fun os d => FileStore.orElse (f os d) fun d => k os d := by
  have hseq := hf.seq (k := fun r os d => match r with
    | .error _ => k os d
    | .ok b => (d, .ok b)) fun r => by
      cases r with
      | error e => exact hk
      | ok b => exact .stay _
  convert hseq using 3 with os d
  obtain ⟨d', e | b⟩ := f os d <;> rfl

/-- A choice by the state of the files. -/
theorem Proceeds.ite {f g : Os ν → FileStore π α → FileStore π α × β} (p : FileStore π α → Prop)
    [DecidablePred p] (hf : Proceeds f) (hg : Proceeds g) :
    Proceeds fun os d => if p d then f os d else g os d where
  calls_le os d := by
    split_ifs
    · exact hf.calls_le os d
    · exact hg.calls_le os d
  same os n a d h := by
    split_ifs at h ⊢
    · exact hf.same os n a d h
    · exact hg.same os n a d h

/-- A loop over a list. -/
theorem Proceeds.foldl {ι : Type*} {f : Os ν → FileStore π α → ι → FileStore π α}
    (hf : ∀ i, Proceeds fun os d => (f os d i, ())) (is : List ι) :
    Proceeds fun os d => (is.foldl (f os) d, ()) := by
  induction is with
  | nil => exact .stay ()
  | cons i is ih => exact (hf i).seq fun _ => ih

/-! The calls. -/

theorem read_proceeds (p : π) : Proceeds fun (os : Os ν) (d : FileStore π α) => d.read os p := by
  refine .call (fun os d => ?_) fun os os' d h => ?_
  · unfold FileStore.read
    split <;> rfl
  · simp only [FileStore.read, h]

variable [DecidableEq π]

theorem rename_proceeds (p q : π) :
    Proceeds fun (os : Os ν) (d : FileStore π α) => d.rename os p q := by
  refine .call (fun os d => ?_) fun os os' d h => ?_
  · unfold FileStore.rename
    split <;> rfl
  · simp only [FileStore.rename, h]

theorem copy_proceeds (p q : π) :
    Proceeds fun (os : Os ν) (d : FileStore π α) => d.copy os p q := by
  refine .call (fun os d => ?_) fun os os' d h => ?_
  · unfold FileStore.copy FileStore.write
    split
    · split <;> rfl
    · rfl
  · simp only [FileStore.copy, FileStore.write, h]

theorem remove_proceeds (p : π) :
    Proceeds fun (os : Os ν) (d : FileStore π α) => d.remove os p := by
  refine .call (fun os d => ?_) fun os os' d h => ?_
  · unfold FileStore.remove
    split <;> rfl
  · simp only [FileStore.remove, h]

end FileStore

end Forgetty.Lib
