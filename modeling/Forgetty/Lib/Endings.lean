import Mathlib.Data.List.Nodup
import Mathlib.Data.List.Count

/-! Logs of things that speak and end. The end of a thing is final when nothing is heard of
it afterwards, not even its end again. A log that goes on stays final as long as only things
that have not ended are heard. -/

namespace Forgetty.Lib

variable {κ : Type*}

/-- What is heard of a thing. -/
inductive Word (κ : Type*) where
  | said (k : κ)
  | ended (k : κ)
  deriving DecidableEq, Repr

def Word.key : Word κ → κ
  | said k => k
  | ended k => k

@[simp] theorem Word.said_key (k : κ) : (said k).key = k := rfl

@[simp] theorem Word.ended_key (k : κ) : (ended k).key = k := rfl

/-- Nothing is heard of a thing after its end. -/
def Final (log : List (Word κ)) : Prop := log.Pairwise fun a b => a ≠ .ended b.key

theorem final_nil : Final ([] : List (Word κ)) := List.Pairwise.nil

theorem final_singleton (e : Word κ) : Final [e] := List.pairwise_singleton _ e

/-- A log goes on with things that have not ended. -/
theorem final_append {log new : List (Word κ)} :
    Final (log ++ new) ↔ Final log ∧ Final new ∧ ∀ e ∈ new, .ended e.key ∉ log := by
  rw [Final, List.pairwise_append]
  constructor
  · rintro ⟨hlog, hnew, h⟩
    exact ⟨hlog, hnew, fun e he hmem => h _ hmem e he rfl⟩
  · rintro ⟨hlog, hnew, h⟩
    exact ⟨hlog, hnew, fun a ha b hb heq => h b hb (heq ▸ ha)⟩

/-- Things that end one after the other, each once. -/
theorem final_map_ended {ks : List κ} : Final (ks.map .ended) ↔ ks.Nodup := by
  rw [Final, List.pairwise_map, List.Nodup]
  simp

theorem mem_map_ended {k : κ} {ks : List κ} : .ended k ∈ ks.map Word.ended ↔ k ∈ ks := by
  simp

/-- In a final log nothing is said after the end. -/
theorem Final.silent {before after : List (Word κ)} {k : κ}
    (h : Final (before ++ .ended k :: after)) : .said k ∉ after := by
  obtain ⟨-, hend, -⟩ := final_append.mp h
  rw [Final, List.pairwise_cons] at hend
  exact fun hmem => hend.1 _ hmem rfl

section Count

variable [DecidableEq κ]

/-- In a final log a thing ends once. -/
theorem Final.count_ended {log : List (Word κ)} (h : Final log) (k : κ) :
    log.count (.ended k) ≤ 1 := by
  induction log with
  | nil => simp
  | cons e log ih =>
    rw [Final, List.pairwise_cons] at h
    obtain ⟨hhead, hlog⟩ := h
    have hcount := ih hlog
    rw [List.count_cons]
    by_cases he : e = .ended k
    · have hnone : log.count (.ended k) = 0 := by
        rw [List.count_eq_zero]
        exact fun hmem => hhead _ hmem he
      simp [he, hnone]
    · simpa [he] using hcount

theorem Final.count_ended_of_mem {log : List (Word κ)} (h : Final log) {k : κ}
    (hk : .ended k ∈ log) : log.count (.ended k) = 1 := by
  have hle := h.count_ended k
  have hpos := List.count_pos_iff.mpr hk
  omega

/-- A log is final exactly if everything ends at most once and says nothing then. -/
theorem final_iff {log : List (Word κ)} :
    Final log ↔ ∀ k, log.count (.ended k) ≤ 1 ∧
      ∀ before after, log = before ++ .ended k :: after → .said k ∉ after := by
  constructor
  · intro h k
    refine ⟨h.count_ended k, ?_⟩
    rintro before after rfl
    exact h.silent
  · intro h
    induction log with
    | nil => exact final_nil
    | cons e log ih =>
      rw [Final, List.pairwise_cons]
      constructor
      · rintro b hb rfl
        cases b with
        | said k => exact (h k).2 [] log rfl hb
        | ended k =>
          have hcount := (h k).1
          have hpos := List.count_pos_iff.mpr hb
          simp only [Word.ended_key, List.count_cons_self] at hcount hpos
          omega
      · refine ih fun k => ⟨?_, ?_⟩
        · exact Nat.le_trans List.count_le_count_cons (h k).1
        · rintro before after rfl
          exact (h k).2 (e :: before) after rfl

end Count

/-! ### Registries -/

/-- A registry with a log: the log is final, and nothing that is registered has ended. -/
structure Registry (live : κ → Prop) (log : List (Word κ)) : Prop where
  final : Final log
  not_ended : ∀ k, live k → .ended k ∉ log

namespace Registry

variable {live live' : κ → Prop} {log new : List (Word κ)}

theorem empty {live : κ → Prop} (h : ∀ k, ¬live k) : Registry live [] where
  final := final_nil
  not_ended k hk := absurd hk (h k)

/-- Only registered things are heard, what ends leaves, and what comes has not ended. -/
theorem step (h : Registry live log) (hnew : Final new) (hheard : ∀ e ∈ new, live e.key)
    (hlive : ∀ k, live' k → (live k ∧ .ended k ∉ new) ∨ (¬live k ∧ .ended k ∉ log)) :
    Registry live' (log ++ new) where
  final := final_append.mpr ⟨h.final, hnew, fun e he => h.not_ended _ (hheard e he)⟩
  not_ended k hk := by
    rw [List.mem_append, not_or]
    rcases hlive k hk with ⟨hold, hstays⟩ | ⟨hcomes, hlog⟩
    · exact ⟨h.not_ended k hold, hstays⟩
    · exact ⟨hlog, fun he => hcomes (hheard _ he)⟩

/-- When everything that is heard is registered or has ended, the log stays final exactly if
it is registered. -/
theorem final_append_iff (h : Registry live log) (hnew : Final new)
    (hheard : ∀ e ∈ new, live e.key ∨ .ended e.key ∈ log) :
    Final (log ++ new) ↔ ∀ e ∈ new, live e.key := by
  rw [final_append]
  constructor
  · rintro ⟨-, -, hfinal⟩ e he
    exact (hheard e he).resolve_right (hfinal e he)
  · intro hlive
    exact ⟨h.final, hnew, fun e he => h.not_ended _ (hlive e he)⟩

end Registry

end Forgetty.Lib
