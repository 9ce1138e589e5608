import Mathlib.Data.List.Basic
import Mathlib.Order.Basic
import Mathlib.Tactic.Common

/-! A stream that arrives in pieces, one for each read, and then ends or fails. Reading an
exact number of items gives the same however the stream is cut into pieces. -/

namespace Forgetty.Lib

inductive ReadError where
  | unexpectedEof
  | other
  deriving DecidableEq, Repr

/-- What is still to be read. An empty piece is no read; behind the last piece a read finds
the end of the stream, or fails. -/
structure Source (α : Type*) where
  pieces : List (List α)
  fails : Bool

namespace Source

variable {α : Type*}

def unread (s : Source α) : List α := s.pieces.flatten

/-- What a read behind the last piece reports. -/
def endError (s : Source α) : ReadError := if s.fails then .other else .unexpectedEof

/-- Take pieces until there are enough items. What the last one has too much stays. -/
def takePieces : ℕ → List (List α) → Option (List α) × List (List α)
  | 0, pieces => (some [], pieces)
  | _ + 1, [] => (none, [])
  | n + 1, piece :: pieces =>
    if n + 1 < piece.length then (some (piece.take (n + 1)), piece.drop (n + 1) :: pieces)
    else
      let r := takePieces (n + 1 - piece.length) pieces
      (r.1.map (piece ++ ·), r.2)

/-- Read `n` items or report why there are not so many. -/
def readExact (n : ℕ) (s : Source α) : Except ReadError (List α) × Source α :=
  let r := takePieces n s.pieces
  (match r.1 with
    | some items => .ok items
    | none => .error s.endError, { s with pieces := r.2 })

theorem takePieces_fst (n : ℕ) (pieces : List (List α)) :
    (takePieces n pieces).1 =
      if n ≤ pieces.flatten.length then some (pieces.flatten.take n) else none := by
  induction pieces generalizing n with
  | nil => cases n <;> simp [takePieces]
  | cons piece pieces ih =>
    cases n with
    | zero => simp [takePieces]
    | succ n =>
      by_cases h : n + 1 < piece.length
      · have hle : n + 1 ≤ (piece :: pieces).flatten.length := by simp; omega
        rw [takePieces, if_pos h, if_pos hle, List.flatten_cons,
          List.take_append_of_le_length (by omega)]
      · have hiff : n + 1 - piece.length ≤ pieces.flatten.length ↔
            n + 1 ≤ (piece :: pieces).flatten.length := by
          rw [List.flatten_cons, List.length_append]
          omega
        rw [takePieces, if_neg h]
        simp only [ih, hiff]
        split_ifs
        · simp [List.take_append, List.take_of_length_le (show piece.length ≤ n + 1 by omega)]
        · rfl

theorem takePieces_snd (n : ℕ) (pieces : List (List α)) :
    (takePieces n pieces).2.flatten = pieces.flatten.drop n := by
  induction pieces generalizing n with
  | nil => cases n <;> simp [takePieces]
  | cons piece pieces ih =>
    cases n with
    | zero => simp [takePieces]
    | succ n =>
      by_cases h : n + 1 < piece.length
      · rw [takePieces, if_pos h]
        simp [List.drop_append_of_le_length (show n + 1 ≤ piece.length by omega)]
      · rw [takePieces, if_neg h]
        simp [ih, List.drop_append, List.drop_of_length_le (show piece.length ≤ n + 1 by omega)]

variable (n : ℕ) (s : Source α)

theorem readExact_fst : (s.readExact n).1 =
    if n ≤ s.unread.length then .ok (s.unread.take n) else .error s.endError := by
  simp only [readExact, takePieces_fst, unread]
  by_cases h : n ≤ s.pieces.flatten.length <;> simp only [h, if_true, if_false]

@[simp] theorem unread_readExact : (s.readExact n).2.unread = s.unread.drop n :=
  takePieces_snd n s.pieces

@[simp] theorem endError_readExact : (s.readExact n).2.endError = s.endError := rfl

variable {n s}

theorem readExact_of_lt (h : s.unread.length < n) :
    s.readExact n = (.error s.endError, (s.readExact n).2) := by
  ext1
  · rw [readExact_fst, if_neg (by omega)]
  · rfl

/-- A read that succeeded found what it asked for. -/
theorem le_of_readExact {items : List α} {after : Source α}
    (h : s.readExact n = (.ok items, after)) :
    n ≤ s.unread.length ∧ after.unread = s.unread.drop n := by
  constructor
  · by_contra hlt
    rw [readExact_of_lt (by omega)] at h
    simp at h
  · rw [← unread_readExact, h]

end Source

end Forgetty.Lib
