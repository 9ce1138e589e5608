import Mathlib.Data.List.Basic

/-! The loop `for (i, x) in xs.iter_mut().enumerate()` that edits the elements it
passes and breaks at the first one that answers. -/

namespace Forgetty.Lib

variable {α β : Type*}

/-- Visit the elements from index `i` on, editing each, up to the first answer. -/
def visitFrom (f : ℕ → α → α × Option β) : ℕ → List α → List α × Option β
  | _, [] => ([], none)
  | i, a :: as =>
    match f i a with
    | (a', some b) => (a' :: as, some b)
    | (a', none) =>
      let rest := visitFrom f (i + 1) as
      (a' :: rest.1, rest.2)

/-- `visitFrom` over the whole list. -/
def visit (f : ℕ → α → α × Option β) (as : List α) : List α × Option β := visitFrom f 0 as

/-- The visitor leaves alone every element at which it does not answer. -/
def Quiet (f : ℕ → α → α × Option β) : Prop := ∀ i a, (f i a).2 = none → (f i a).1 = a

theorem visitFrom_none {f : ℕ → α → α × Option β} (hf : Quiet f) (i : ℕ) (as : List α)
    (h : (visitFrom f i as).2 = none) :
    (visitFrom f i as).1 = as ∧ ∀ j (hj : j < as.length), (f (i + j) as[j]).2 = none := by
  induction as generalizing i with
  | nil => simp [visitFrom]
  | cons a as ih =>
    rw [visitFrom] at h ⊢
    rcases hfa : f i a with ⟨a', _ | b⟩
    · simp only [hfa] at h ⊢
      obtain ⟨hl, hn⟩ := ih (i + 1) h
      refine ⟨by rw [hl, ← hf i a (by rw [hfa]), hfa], ?_⟩
      rintro (_ | j) hj
      · simp [hfa]
      · have := hn j (by simpa using hj)
        rwa [show i + 1 + j = i + (j + 1) by omega] at this
    · simp [hfa] at h

/-- An answer splits the list at the element that gave it. -/
theorem visitFrom_some {f : ℕ → α → α × Option β} (hf : Quiet f) (i : ℕ) (as : List α) {b : β}
    (h : (visitFrom f i as).2 = some b) :
    ∃ pre a post, as = pre ++ a :: post ∧ (f (i + pre.length) a).2 = some b ∧
      (visitFrom f i as).1 = pre ++ (f (i + pre.length) a).1 :: post ∧
      ∀ j (hj : j < pre.length), (f (i + j) pre[j]).2 = none := by
  induction as generalizing i with
  | nil => simp [visitFrom] at h
  | cons a as ih =>
    rw [visitFrom] at h ⊢
    rcases hfa : f i a with ⟨a', _ | c⟩
    · simp only [hfa] at h ⊢
      obtain ⟨pre, x, post, rfl, hx, hl, hn⟩ := ih (i + 1) h
      have hlen : i + 1 + pre.length = i + (a :: pre).length := by simp; omega
      rw [hlen] at hx hl
      refine ⟨a :: pre, x, post, rfl, hx, ?_, ?_⟩
      · rw [hl, ← hf i a (by rw [hfa]), hfa]; rfl
      · rintro (_ | j) hj
        · simp [hfa]
        · have := hn j (by simpa using hj)
          rwa [show i + 1 + j = i + (j + 1) by omega] at this
    · simp only [hfa, Option.some.injEq] at h ⊢
      subst h
      exact ⟨[], a, as, rfl, by simp [hfa], by simp [hfa], by simp⟩

theorem visit_none {f : ℕ → α → α × Option β} (hf : Quiet f) {as : List α}
    (h : (visit f as).2 = none) :
    (visit f as).1 = as ∧ ∀ j (hj : j < as.length), (f j as[j]).2 = none := by
  simpa only [visit, Nat.zero_add] using visitFrom_none hf 0 as h

theorem visit_some {f : ℕ → α → α × Option β} (hf : Quiet f) {as : List α} {b : β}
    (h : (visit f as).2 = some b) :
    ∃ pre a post, as = pre ++ a :: post ∧ (f pre.length a).2 = some b ∧
      (visit f as).1 = pre ++ (f pre.length a).1 :: post ∧
      ∀ j (hj : j < pre.length), (f j pre[j]).2 = none := by
  simpa only [visit, Nat.zero_add] using visitFrom_some hf 0 as h

end Forgetty.Lib
