import Mathlib.Data.List.Forall2
import Mathlib.Tactic.Common

/-! Echo suppression. A replica carries its own operations out at once and queues
them; of the stream of all operations it drops what matches the head of its queue
and carries the rest out. With operations that can be undone, one more own
operation leaves the replica on course exactly if it commutes with what the
replica still carries out before it drops that operation's echo. -/

namespace Forgetty.Lib

variable {ι σ : Type*} (same : ι → ι → Prop)

/-- Every entry of the queue has its echo in the stream, in the order of the queue. -/
def Answered (qs is : List ι) : Prop := List.SublistForall₂ same qs is

section Answered

variable {same} {qs is : List ι} {q i : ι}

theorem answered_nil (is : List ι) : Answered same [] is := .nil

theorem not_answered_nil : ¬Answered same (q :: qs) [] := nofun

theorem Answered.of_cons (h : Answered same (q :: qs) is) : Answered same qs is := by
  obtain ⟨l, hl, hs⟩ := List.sublistForall₂_iff.mp h
  cases hl with
  | cons _ ht => exact List.sublistForall₂_iff.mpr ⟨_, ht, (List.sublist_cons_self _ _).trans hs⟩

theorem Answered.drop (h : Answered same (q :: qs) (i :: is)) : Answered same qs is := by
  cases h with
  | cons _ ht => exact ht
  | cons_right ht => exact Answered.of_cons ht

theorem Answered.keep (h : Answered same qs (i :: is)) (hne : ∀ q ∈ qs.head?, ¬same q i) :
    Answered same qs is := by
  cases h with
  | nil => exact answered_nil is
  | cons hs _ => exact absurd hs (hne _ rfl)
  | cons_right ht => exact ht

theorem Answered.append_right (h : Answered same qs is) (js : List ι) :
    Answered same qs (is ++ js) := by
  induction h with
  | nil => exact .nil
  | cons hs _ ih => exact .cons hs ih
  | cons_right _ ih => exact .cons_right ih

/-- A new entry with its echo at the end of the stream. -/
theorem Answered.snoc (h : Answered same qs is) (hs : same q i) :
    Answered same (qs ++ [q]) (is ++ [i]) := by
  induction h with
  | @nil is =>
    induction is with
    | nil => exact .cons hs .nil
    | cons j is ih => exact .cons_right ih
  | cons hs' _ ih => exact .cons hs' ih
  | cons_right _ ih => exact .cons_right ih

end Answered

variable [DecidableRel same]

/-- What is carried out of a stream, with the queue given. -/
def residual : List ι → List ι → List ι
  | [], is => is
  | _ :: _, [] => []
  | q :: qs, i :: is => if same q i then residual qs is else i :: residual (q :: qs) is

/-- What is carried out of a stream before the last entry of the queue is dropped. -/
def carriedBefore : List ι → List ι → List ι
  | [], _ => []
  | _ :: _, [] => []
  | q :: qs, i :: is => if same q i then carriedBefore qs is else i :: carriedBefore (q :: qs) is

section Residual

variable {same} {qs is : List ι} {q : ι}

@[simp] theorem residual_nil (is : List ι) : residual same [] is = is := by cases is <;> rfl

@[simp] theorem carriedBefore_nil (is : List ι) : carriedBefore same [] is = [] := by
  cases is <;> rfl

theorem residual_cons_of_same {i : ι} (hs : same q i) (qs is : List ι) :
    residual same (q :: qs) (i :: is) = residual same qs is := if_pos hs

theorem residual_cons_of_not {i : ι} (h : ∀ q ∈ qs.head?, ¬same q i) (is : List ι) :
    residual same qs (i :: is) = i :: residual same qs is := by
  cases qs with
  | nil => rw [residual_nil, residual_nil]
  | cons q qs => exact if_neg (h q rfl)

/-- What comes behind the echoes of the whole queue is carried out. -/
theorem residual_append (h : Answered same qs is) (js : List ι) :
    residual same qs (is ++ js) = residual same qs is ++ js := by
  induction is generalizing qs with
  | nil =>
    cases qs with
    | nil => simp
    | cons q qs => exact (not_answered_nil h).elim
  | cons i is ih =>
    cases qs with
    | nil => simp
    | cons q qs =>
      rw [List.cons_append, residual, residual]
      split_ifs with hs
      · exact ih h.drop
      · rw [ih (h.keep fun _ hq => Option.some.inj hq ▸ hs), List.cons_append]

/-- An own operation is dropped as its own echo, or in the place of another
operation that looks the same. -/
theorem residual_snoc (h : Answered same qs is) (hrefl : same q q) :
    (residual same qs is = carriedBefore same (qs ++ [q]) is ∧
        residual same (qs ++ [q]) (is ++ [q]) = carriedBefore same (qs ++ [q]) is) ∨
      ∃ i js, same q i ∧ residual same qs is = carriedBefore same (qs ++ [q]) is ++ i :: js ∧
        residual same (qs ++ [q]) (is ++ [q]) = carriedBefore same (qs ++ [q]) is ++ (js ++ [q]) := by
  induction is generalizing qs with
  | nil =>
    cases qs with
    | nil =>
      left
      refine ⟨rfl, ?_⟩
      rw [List.nil_append]
      exact if_pos hrefl
    | cons p qs => exact (not_answered_nil h).elim
  | cons i is ih =>
    cases qs with
    | nil =>
      rw [List.nil_append, List.cons_append, residual_nil, residual, carriedBefore]
      by_cases hs : same q i
      · right
        refine ⟨i, is, hs, ?_, ?_⟩
        · rw [if_pos hs, carriedBefore_nil, List.nil_append]
        · rw [if_pos hs, if_pos hs, residual_nil, carriedBefore_nil, List.nil_append]
      · rw [if_neg hs, if_neg hs]
        rcases ih (answered_nil is) with ⟨h1, h2⟩ | ⟨j, js, hj, h1, h2⟩
        · left
          rw [residual_nil, List.nil_append] at h1
          rw [List.nil_append] at h2
          exact ⟨congrArg (i :: ·) h1, congrArg (i :: ·) h2⟩
        · right
          rw [residual_nil, List.nil_append] at h1
          rw [List.nil_append] at h2
          exact ⟨j, js, hj, congrArg (i :: ·) h1, congrArg (i :: ·) h2⟩
    | cons p qs =>
      rw [List.cons_append, List.cons_append, residual, residual, carriedBefore]
      by_cases hs : same p i
      · rw [if_pos hs, if_pos hs, if_pos hs]
        exact ih h.drop
      · rw [if_neg hs, if_neg hs, if_neg hs]
        rcases ih (h.keep fun _ hq => Option.some.inj hq ▸ hs) with ⟨h1, h2⟩ | ⟨j, js, hj, h1, h2⟩
        · left
          exact ⟨congrArg (i :: ·) h1, congrArg (i :: ·) h2⟩
        · right
          exact ⟨j, js, hj, congrArg (i :: ·) h1, congrArg (i :: ·) h2⟩

end Residual

section Act

variable {same} {act : σ → ι → σ} {qs is : List ι} {q : ι}

theorem foldl_injective (hinj : ∀ i, Function.Injective fun s => act s i) (is : List ι) :
    Function.Injective fun s => is.foldl act s := by
  induction is with
  | nil => exact fun _ _ h => h
  | cons i is ih => exact fun _ _ h => hinj i (ih h)

/-- An own operation keeps the replica on course, against a source it was on course
to, exactly if it commutes with what is carried out before its echo is dropped. -/
theorem residual_snoc_iff (h : Answered same qs is) (hrefl : same q q)
    (hinj : ∀ i, Function.Injective fun s => act s i)
    (hsame : ∀ i s, same q i → act s q = act s i) (s : σ) :
    act ((residual same qs is).foldl act s) q =
        (residual same (qs ++ [q]) (is ++ [q])).foldl act (act s q) ↔
      act ((carriedBefore same (qs ++ [q]) is).foldl act s) q =
        (carriedBefore same (qs ++ [q]) is).foldl act (act s q) := by
  rcases residual_snoc h hrefl with ⟨h1, h2⟩ | ⟨i, js, hi, h1, h2⟩
  · rw [h1, h2]
  · rw [h1, h2, List.foldl_append, List.foldl_append, List.foldl_cons, List.foldl_append,
      ← hsame i _ hi]
    constructor
    · intro heq
      exact foldl_injective hinj js (hinj q heq)
    · intro heq
      rw [heq]
      rfl

end Act

end Forgetty.Lib
