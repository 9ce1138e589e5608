import Mathlib.Data.List.Basic
import Mathlib.Tactic.Tauto

/-! Runs of a deterministic step function over a list of inputs, and runs of a
step relation, with a guard on the steps. The two rules used throughout: an
invariant kept by every guarded step holds in every state of a guarded run; and
when a step keeps a property exactly if its guard holds, the property holds all
along a run exactly if every step of the run meets the guard. -/

namespace Forgetty.Lib

section Deterministic

variable {σ ι : Type*} (step : σ → ι → σ)

/-- The state a list of inputs leads to. -/
def run (s : σ) (is : List ι) : σ := is.foldl step s

/-- Every state of the run, the first and the last included, has the property. -/
def Along (P : σ → Prop) (s : σ) : List ι → Prop
  | [] => P s
  | i :: is => P s ∧ Along P (step s i) is

/-- Every step of the run meets the guard in the state it is taken in. -/
def Meets (guard : σ → ι → Prop) (s : σ) : List ι → Prop
  | [] => True
  | i :: is => guard s i ∧ Meets guard (step s i) is

variable {step}

@[simp] theorem run_nil (s : σ) : run step s [] = s := rfl

@[simp] theorem run_cons (s : σ) (i : ι) (is : List ι) :
    run step s (i :: is) = run step (step s i) is := rfl

theorem run_append (s : σ) (is js : List ι) :
    run step s (is ++ js) = run step (run step s is) js := List.foldl_append

/-- Inputs that only reach a part of the state. -/
theorem run_map {τ κ : Type*} {part : τ → κ → τ} {f : κ → ι} (whole : τ → σ)
    (h : ∀ t k, step (whole t) (f k) = whole (part t k)) (t : τ) (ks : List κ) :
    run step (whole t) (ks.map f) = whole (run part t ks) := by
  induction ks generalizing t with
  | nil => rfl
  | cons k ks ih =>
    calc run step (whole t) ((k :: ks).map f) = run step (step (whole t) (f k)) (ks.map f) := rfl
      _ = run step (whole (part t k)) (ks.map f) := by rw [h]
      _ = whole (run part t (k :: ks)) := ih (part t k)

theorem Along.head {P : σ → Prop} {s : σ} {is : List ι} (h : Along step P s is) : P s := by
  cases is with
  | nil => exact h
  | cons i is => exact h.1

theorem Along.last {P : σ → Prop} {s : σ} {is : List ι} (h : Along step P s is) :
    P (run step s is) := by
  induction is generalizing s with
  | nil => exact h
  | cons i is ih => exact ih h.2

/-- The property holds along a run exactly if it holds after every prefix. -/
theorem along_iff {P : σ → Prop} {s : σ} {is : List ι} :
    Along step P s is ↔ ∀ n, P (run step s (is.take n)) := by
  induction is generalizing s with
  | nil => simp [Along]
  | cons i is ih =>
    rw [Along, ih]
    constructor
    · rintro ⟨h0, h⟩ (_ | n)
      · exact h0
      · exact h n
    · exact fun h => ⟨h 0, fun n => h (n + 1)⟩

/-- The invariant rule. -/
theorem along_of_step {P : σ → Prop} {s : σ} {is : List ι} (h0 : P s)
    (hs : ∀ t i, P t → P (step t i)) : Along step P s is := by
  induction is generalizing s with
  | nil => exact h0
  | cons i is ih => exact ⟨h0, ih (hs s i h0)⟩

/-- The exactness rule, for runs whose steps meet `J`: `I` is an invariant of the
steps, and within it a step keeps `P` exactly if the guard holds. -/
theorem along_iff_meets_of {I P : σ → Prop} {J guard : σ → ι → Prop} {s : σ} {is : List ι}
    (hI : ∀ t i, I t → P t → J t i → guard t i → I (step t i))
    (hP : ∀ t i, I t → P t → J t i → (P (step t i) ↔ guard t i)) (h0 : I s) (hp : P s)
    (hJ : Meets step J s is) : Along step P s is ↔ Meets step guard s is := by
  induction is generalizing s with
  | nil => simp [Along, Meets, hp]
  | cons i is ih =>
    obtain ⟨hj, hJ⟩ := hJ
    simp only [Along, Meets, hp, true_and]
    constructor
    · intro h
      have hg := (hP s i h0 hp hj).mp h.head
      exact ⟨hg, (ih (hI s i h0 hp hj hg) h.head hJ).mp h⟩
    · rintro ⟨hg, h⟩
      exact (ih (hI s i h0 hp hj hg) ((hP s i h0 hp hj).mpr hg) hJ).mpr h

/-- The exactness rule for all runs. -/
theorem along_iff_meets {I P : σ → Prop} {guard : σ → ι → Prop} {s : σ} {is : List ι}
    (hI : ∀ t i, I t → P t → guard t i → I (step t i))
    (hP : ∀ t i, I t → P t → (P (step t i) ↔ guard t i)) (h0 : I s) (hp : P s) :
    Along step P s is ↔ Meets step guard s is := by
  have hJ : ∀ (s : σ) (is : List ι), Meets step (fun _ _ => True) s is := by
    intro s is
    induction is generalizing s with
    | nil => trivial
    | cons i is ih => exact ⟨trivial, ih _⟩
  exact along_iff_meets_of (fun t i ht hp _ => hI t i ht hp) (fun t i ht hp _ => hP t i ht hp)
    h0 hp (hJ s is)

/-- The exactness rule for all runs, wherever they start. -/
theorem along_iff_and_meets {I P : σ → Prop} {guard : σ → ι → Prop} {s : σ} {is : List ι}
    (hI : ∀ t i, I t → P t → guard t i → I (step t i))
    (hP : ∀ t i, I t → P t → (P (step t i) ↔ guard t i)) (h0 : P s → I s) :
    Along step P s is ↔ P s ∧ Meets step guard s is :=
  ⟨fun h => ⟨h.head, (along_iff_meets hI hP (h0 h.head) h.head).mp h⟩,
    fun h => (along_iff_meets hI hP (h0 h.1) h.1).mpr h.2⟩

/-- In a run whose steps meet the guard, what an invariant of such steps implies of
each step holds of every step. -/
theorem meets_of_invariant {I : σ → Prop} {J Q : σ → ι → Prop} {s : σ} {is : List ι}
    (hI : ∀ t i, I t → J t i → I (step t i)) (hQ : ∀ t i, I t → J t i → Q t i) (h0 : I s)
    (h : Meets step J s is) : Meets step Q s is := by
  induction is generalizing s with
  | nil => trivial
  | cons i is ih => exact ⟨hQ s i h0 h.1, ih (hI s i h0 h.1) h.2⟩

/-- In a run whose steps meet the guard, what an invariant of such steps implies of
each state holds of every state. -/
theorem along_of_invariant {I P : σ → Prop} {J : σ → ι → Prop} {s : σ} {is : List ι}
    (hI : ∀ t i, I t → J t i → I (step t i)) (hP : ∀ t, I t → P t) (h0 : I s)
    (h : Meets step J s is) : Along step P s is := by
  induction is generalizing s with
  | nil => exact hP s h0
  | cons i is ih => exact ⟨hP s h0, ih (hI s i h0 h.1) h.2⟩

/-- Something that is the same before and after every step is the same at the end. -/
theorem Meets.last {τ : Type*} {f : σ → τ} {s : σ} {is : List ι}
    (h : Meets step (fun t i => f (step t i) = f t) s is) : f (run step s is) = f s := by
  induction is generalizing s with
  | nil => rfl
  | cons i is ih => exact (ih h.2).trans h.1

theorem meets_and {guard guard' : σ → ι → Prop} {s : σ} {is : List ι} :
    Meets step (fun t i => guard t i ∧ guard' t i) s is ↔
      Meets step guard s is ∧ Meets step guard' s is := by
  induction is generalizing s with
  | nil => simp [Meets]
  | cons i is ih =>
    simp only [Meets, ih]
    tauto

/-- Guards that are the same for every step. -/
theorem meets_congr {guard guard' : σ → ι → Prop} (h : ∀ t i, guard t i ↔ guard' t i) {s : σ}
    {is : List ι} : Meets step guard s is ↔ Meets step guard' s is := by
  induction is generalizing s with
  | nil => rfl
  | cons i is ih => rw [Meets, Meets, h, ih]

/-- A guard on the inputs alone. -/
theorem meets_of_mem {Q : ι → Prop} {s : σ} {is : List ι} (h : ∀ i ∈ is, Q i) :
    Meets step (fun _ i => Q i) s is := by
  induction is generalizing s with
  | nil => trivial
  | cons i is ih =>
    exact ⟨h i List.mem_cons_self, ih fun j hj => h j (List.mem_cons_of_mem i hj)⟩

theorem meets_iff_forall_mem {Q : ι → Prop} {s : σ} {is : List ι} :
    Meets step (fun _ i => Q i) s is ↔ ∀ i ∈ is, Q i := by
  refine ⟨fun h => ?_, meets_of_mem⟩
  induction is generalizing s with
  | nil => simp
  | cons i is ih =>
    rintro j (_ | ⟨_, hj⟩)
    · exact h.1
    · exact ih h.2 j hj

theorem meets_append {guard : σ → ι → Prop} {s : σ} {is js : List ι} :
    Meets step guard s (is ++ js) ↔ Meets step guard s is ∧ Meets step guard (run step s is) js := by
  induction is generalizing s with
  | nil => simp [Meets]
  | cons i is ih => simp [Meets, ih, and_assoc]

end Deterministic

section Relational

variable {σ ι : Type*}

/-- The states reached by steps of the relation that meet the guard. -/
inductive Reach (init : σ → Prop) (step : σ → ι → σ → Prop) (guard : σ → ι → Prop) : σ → Prop
  | init {s : σ} : init s → Reach init step guard s
  | step {s t : σ} {i : ι} : Reach init step guard s → guard s i → step s i t →
      Reach init step guard t

/-- The invariant rule for guarded runs. -/
theorem Reach.invariant {init : σ → Prop} {step : σ → ι → σ → Prop} {guard : σ → ι → Prop}
    {P : σ → Prop} (h0 : ∀ s, init s → P s) (hs : ∀ s t i, P s → guard s i → step s i t → P t)
    {s : σ} (h : Reach init step guard s) : P s := by
  induction h with
  | init hi => exact h0 _ hi
  | step _ hg ht ih => exact hs _ _ _ ih hg ht

end Relational

end Forgetty.Lib
