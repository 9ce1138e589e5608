import Forgetty.Lib.Splice

/-! Channels. A broadcast channel keeps the last `capacity` messages for its
receivers; a receiver starts behind the last message and is told how many it
missed when it falls further behind than that. A bounded queue takes a message
only while it has room and its receiving end exists. -/

namespace Forgetty.Lib

variable {α : Type*}

/-- A broadcast channel, with every message ever sent into it. -/
structure Broadcast (α : Type*) where
  capacity : ℕ
  sent : List α

/-- A receiver of a broadcast channel: the position of its next message. -/
structure Receiver where
  next : ℕ
  deriving DecidableEq, Repr

/-- What a receiver gets when it polls the channel. -/
inductive Recv (α : Type*) where
  | item (a : α)
  | lagged (missed : ℕ)
  | empty

namespace Broadcast

/-- The channel without messages. -/
def channel (capacity : ℕ) : Broadcast α := ⟨capacity, []⟩

def send (c : Broadcast α) (a : α) : Broadcast α := { c with sent := c.sent ++ [a] }

/-- Send messages one after the other. -/
def sendAll (c : Broadcast α) (as : List α) : Broadcast α := { c with sent := c.sent ++ as }

/-- A receiver for the messages sent from now on. -/
def subscribe (c : Broadcast α) : Receiver := ⟨c.sent.length⟩

/-- Poll. A receiver more than `capacity` behind is moved to the oldest message
kept and told how many messages it lost. -/
def recv (c : Broadcast α) (r : Receiver) : Recv α × Receiver :=
  if c.capacity < c.sent.length - r.next then
    (.lagged (c.sent.length - c.capacity - r.next), ⟨c.sent.length - c.capacity⟩)
  else
    match c.sent[r.next]? with
    | some a => (.item a, ⟨r.next + 1⟩)
    | none => (.empty, r)

theorem recv_of_behind {c : Broadcast α} {r : Receiver} (h : c.capacity < c.sent.length - r.next) :
    c.recv r = (.lagged (c.sent.length - c.capacity - r.next), ⟨c.sent.length - c.capacity⟩) :=
  if_pos h

theorem recv_of_kept {c : Broadcast α} {r : Receiver} {a : α}
    (h : c.sent.length - r.next ≤ c.capacity) (ha : c.sent[r.next]? = some a) :
    c.recv r = (.item a, ⟨r.next + 1⟩) := by
  rw [recv, if_neg (by omega), ha]

@[simp] theorem send_sent (c : Broadcast α) (a : α) : (c.send a).sent = c.sent ++ [a] := rfl

@[simp] theorem sendAll_sent (c : Broadcast α) (as : List α) :
    (c.sendAll as).sent = c.sent ++ as := rfl

@[simp] theorem sendAll_nil (c : Broadcast α) : c.sendAll [] = c := by simp [sendAll]

@[simp] theorem subscribe_next (c : Broadcast α) : c.subscribe.next = c.sent.length := rfl

/-- The messages no longer kept that a receiver has not got. -/
def lost (c : Broadcast α) (r : Receiver) : List α :=
  slice c.sent r.next (c.sent.length - c.capacity)

/-- A receiver that lagged goes on behind the messages it lost. -/
theorem recv_lagged {c : Broadcast α} {r r' : Receiver} {n : ℕ} (h : c.recv r = (.lagged n, r')) :
    r.next ≤ r'.next ∧ r'.next ≤ c.sent.length ∧ slice c.sent r.next r'.next = c.lost r := by
  unfold recv at h
  split_ifs at h with hlag
  · simp only [Prod.mk.injEq] at h
    obtain ⟨-, rfl⟩ := h
    dsimp only
    refine ⟨by omega, by omega, rfl⟩
  · split at h <;> simp at h

/-- A receiver that is not told so lost nothing. -/
theorem lost_eq_nil {c : Broadcast α} {r : Receiver} (h : ∀ n, (c.recv r).1 ≠ .lagged n) :
    c.lost r = [] := by
  unfold recv at h
  split_ifs at h with hlag
  · exact absurd rfl (h _)
  · rw [lost, slice, List.drop_eq_nil_iff, List.length_take]
    omega

/-- A message handed out is the one at the receiver's position. -/
theorem recv_item {c : Broadcast α} {r r' : Receiver} {a : α} (h : c.recv r = (.item a, r')) :
    c.sent[r.next]? = some a ∧ r'.next = r.next + 1 := by
  unfold recv at h
  split_ifs at h
  · simp at h
  · split at h
    · rename_i x hx
      simp only [Prod.mk.injEq, Recv.item.injEq] at h
      obtain ⟨rfl, rfl⟩ := h
      exact ⟨hx, rfl⟩
    · simp at h

end Broadcast

/-- A bounded queue between one or more senders and one receiver. -/
structure BoundedQueue (α : Type*) where
  capacity : ℕ
  queue : List α
  isOpen : Bool
  deriving DecidableEq, Repr

namespace BoundedQueue

/-- Enqueue without waiting; the message is lost when the queue is full or closed. -/
def trySend (q : BoundedQueue α) (a : α) : BoundedQueue α :=
  if q.isOpen ∧ q.queue.length < q.capacity then { q with queue := q.queue ++ [a] } else q

end BoundedQueue

end Forgetty.Lib
