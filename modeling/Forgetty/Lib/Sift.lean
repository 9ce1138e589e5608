import Mathlib.Data.List.Basic
import Mathlib.Tactic.SplitIfs

/-! Two ways to go through a list: for the first hit, giving up at an element that is neither a hit
nor may be passed, and for the elements that none of those kept before covers. -/

namespace Forgetty.Lib

variable {α : Type*}

/-! ### The first hit -/

/-- The index of the first hit, if every element in front of it may be passed. -/
def scanFor (hit pass : α → Bool) : List α → Option ℕ
  | [] => none
  | a :: as => if hit a then some 0 else if pass a then (scanFor hit pass as).map (· + 1) else none

variable {hit pass : α → Bool} {as : List α} {a : α} {n : ℕ}

theorem scanFor_cons_zero : scanFor hit pass (a :: as) = some 0 ↔ hit a = true := by
  rw [scanFor]
  split_ifs with hhit
  · exact iff_of_true rfl hhit
  · refine iff_of_false (fun h => ?_) hhit
    obtain ⟨n, -, hn⟩ := Option.map_eq_some_iff.mp h
    cases hn
  · exact iff_of_false (fun h => by cases h) hhit

theorem scanFor_cons_succ : scanFor hit pass (a :: as) = some (n + 1) ↔
    (hit a = false ∧ pass a = true) ∧ scanFor hit pass as = some n := by
  rw [scanFor]
  cases hit a with
  | true => simp
  | false =>
    cases pass a with
    | true => simp
    | false => simp

theorem scanFor_eq_some_iff : scanFor hit pass as = some n ↔
    (∃ a, as[n]? = some a ∧ hit a = true) ∧
      ∀ m < n, ∀ b, as[m]? = some b → hit b = false ∧ pass b = true := by
  induction as generalizing n with
  | nil => simp [scanFor]
  | cons a as ih =>
    cases n with
    | zero =>
      rw [scanFor_cons_zero]
      simp
    | succ n =>
      rw [scanFor_cons_succ, ih, Nat.forall_lt_succ_left]
      simp only [List.getElem?_cons_zero, List.getElem?_cons_succ, Option.some.injEq,
        forall_eq']
      exact and_left_comm

/-! ### What is kept -/

section Keep

variable (covers : α → α → Bool)

/-- An element is kept unless one that was kept before covers it. -/
def keepUnless (kept : List α) (a : α) : List α :=
  if kept.any (covers · a) then kept else kept ++ [a]

/-- One element after another. -/
def sift (kept as : List α) : List α := as.foldl (keepUnless covers) kept

variable {covers} {kept as : List α} {a b : α}

theorem keepUnless_cases (kept : List α) (a : α) :
    (∃ b ∈ kept, covers b a = true) ∧ keepUnless covers kept a = kept ∨
      (∀ b ∈ kept, covers b a = false) ∧ keepUnless covers kept a = kept ++ [a] := by
  unfold keepUnless
  split_ifs with h
  · exact .inl ⟨List.any_eq_true.mp h, rfl⟩
  · refine .inr ⟨fun b hb => ?_, rfl⟩
    rw [List.any_eq_true] at h
    exact Bool.eq_false_iff.mpr fun hcovers => h ⟨b, hb, hcovers⟩

theorem mem_keepUnless (a : α) (hb : b ∈ kept) : b ∈ keepUnless covers kept a := by
  rcases keepUnless_cases kept a with ⟨-, heq⟩ | ⟨-, heq⟩
  · rw [heq]
    exact hb
  · rw [heq]
    exact List.mem_append_left [a] hb

/-- A property of all that is kept. -/
theorem forall_keepUnless {P : α → Prop} (h : ∀ b ∈ kept, P b) (ha : P a) :
    ∀ b ∈ keepUnless covers kept a, P b := by
  rcases keepUnless_cases kept a with ⟨-, heq⟩ | ⟨-, heq⟩
  · rw [heq]
    exact h
  · rw [heq]
    intro b hb
    rcases List.mem_append.mp hb with hb | hb
    · exact h b hb
    · exact List.mem_singleton.mp hb ▸ ha

/-- A relation between what is kept and what comes later. -/
theorem pairwise_keepUnless {R : α → α → Prop} (h : kept.Pairwise R)
    (ha : ∀ b ∈ kept, covers b a = false → R b a) : (keepUnless covers kept a).Pairwise R := by
  rcases keepUnless_cases kept a with ⟨-, heq⟩ | ⟨hfree, heq⟩
  · rw [heq]
    exact h
  · rw [heq, List.pairwise_append]
    refine ⟨h, List.pairwise_singleton R a, fun b hb c hc => ?_⟩
    rw [List.mem_singleton.mp hc]
    exact ha b hb (hfree b hb)

theorem mem_sift (as : List α) (hb : b ∈ kept) : b ∈ sift covers kept as := by
  induction as generalizing kept with
  | nil => exact hb
  | cons a as ih => exact ih (mem_keepUnless a hb)

theorem forall_sift {P : α → Prop} (h : ∀ b ∈ kept, P b) (has : ∀ a ∈ as, P a) :
    ∀ b ∈ sift covers kept as, P b := by
  induction as generalizing kept with
  | nil => exact h
  | cons a as ih =>
    apply ih (forall_keepUnless h (has a List.mem_cons_self))
    exact fun a' ha' => has a' (List.mem_cons_of_mem a ha')

/-- Everything is covered by something that is kept. -/
theorem exists_covers_of_mem (hrefl : ∀ a, covers a a = true) (ha : a ∈ as) :
    ∃ b ∈ sift covers kept as, covers b a = true := by
  induction as generalizing kept with
  | nil => cases ha
  | cons a' as ih =>
    rcases List.mem_cons.mp ha with rfl | ha
    · have hkept : ∃ b ∈ keepUnless covers kept a, covers b a = true := by
        rcases keepUnless_cases kept a with ⟨hcovered, heq⟩ | ⟨-, heq⟩
        · rw [heq]
          exact hcovered
        · rw [heq]
          exact ⟨a, List.mem_append_right kept (List.mem_singleton_self a), hrefl a⟩
      obtain ⟨b, hb, hcovers⟩ := hkept
      exact ⟨b, mem_sift as hb, hcovers⟩
    · exact ih ha

/-- Elements that come in an order are related if those in front do not cover those behind. -/
theorem pairwise_sift {R : α → α → Prop} (h : kept.Pairwise R)
    (hcross : ∀ b ∈ kept, ∀ a ∈ as, covers b a = false → R b a)
    (has : as.Pairwise fun b a => covers b a = false → R b a) : (sift covers kept as).Pairwise R := by
  induction as generalizing kept with
  | nil => exact h
  | cons a as ih =>
    rw [List.pairwise_cons] at has
    apply ih
    · exact pairwise_keepUnless h fun b hb => hcross b hb a List.mem_cons_self
    · apply forall_keepUnless
      · exact fun b hb a' ha' => hcross b hb a' (List.mem_cons_of_mem a ha')
      · exact has.1
    · exact has.2

end Keep

end Forgetty.Lib
