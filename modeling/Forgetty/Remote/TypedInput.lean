import Forgetty.Remote.Revocation
import Forgetty.Socket.Framing

/-! What is typed on a paired device, from the bytes of its stream to the terminals. A reader
task cuts the bytes into messages and puts them into a channel; the loop of the stream takes them
out between the events of the session, until either side ends. -/

namespace Forgetty

open Lib SessionManager

/-- A stream of a device. `reading`: the reader task has not come to an end of it. `queue` are
the messages in the channel, `asked` the writes to terminals the loop called for. -/
structure RemoteInput where
  sm : SessionManager
  recv : Source UInt8
  stage : StreamStage
  reading : Bool
  queue : List ClientMsg
  asked : List (PaneId × Bytes)

namespace RemoteInput

/-! ### Messages in a stream of bytes -/

section Messages

variable (decode : Bytes → Option ClientMsg)

def maxFrameSize : ℕ := 4 * 1024 * 1024

/-- The next message, or `none` if the stream ends or what it has is no message. -/
def readMsg (recv : Source UInt8) : Option ClientMsg × Source UInt8 :=
  match recv.readExact 4 with
  | (.error _, recv) => (none, recv)
  | (.ok lenBuf, recv) =>
    let len := fromBeBytes lenBuf
    if len = 0 ∨ maxFrameSize < len then (none, recv)
    else
      match recv.readExact len with
      | (.error _, recv) => (none, recv)
      | (.ok payload, recv) => (decode payload, recv)

/-- What the first bytes of a stream come to, and the bytes behind them. -/
def parseMsg (bytes : Bytes) : Option (ClientMsg × Bytes) :=
  if bytes.length < 4 then none
  else
    let len := fromBeBytes (bytes.take 4)
    if len = 0 ∨ maxFrameSize < len ∨ bytes.length < 4 + len then none
    else (decode ((bytes.drop 4).take len)).map (·, bytes.drop (4 + len))

variable {decode} in
theorem parseMsg_lt {bytes rest : Bytes} {m : ClientMsg}
    (h : parseMsg decode bytes = some (m, rest)) : rest.length < bytes.length := by
  unfold parseMsg at h
  dsimp only at h
  split_ifs at h with hshort
  simp only [Option.map_eq_some_iff, Prod.mk.injEq] at h
  obtain ⟨_, -, -, rfl⟩ := h
  rw [List.length_drop]
  omega

/-- All the messages at the beginning of a stream. -/
def messages (bytes : Bytes) : List ClientMsg :=
  match h : parseMsg decode bytes with
  | none => []
  | some (m, rest) =>
    have := parseMsg_lt h
    m :: messages rest
termination_by bytes.length

variable {decode} {bytes rest payload : Bytes} {m : ClientMsg} {recv : Source UInt8}

theorem messages_of_none (h : parseMsg decode bytes = none) : messages decode bytes = [] := by
  rw [messages]
  split
  · rfl
  · simp_all

theorem messages_of_some (h : parseMsg decode bytes = some (m, rest)) :
    messages decode bytes = m :: messages decode rest := by
  conv_lhs => rw [messages]
  split
  · simp_all
  · simp_all

/-- However the stream comes in, the reader finds the messages in its bytes. -/
theorem readMsg_eq (recv : Source UInt8) :
    (readMsg decode recv).1 = (parseMsg decode recv.unread).map Prod.fst ∧
      ∀ m rest, parseMsg decode recv.unread = some (m, rest) →
        (readMsg decode recv).2.unread = rest := by
  unfold readMsg parseMsg
  by_cases hheader : recv.unread.length < 4
  · rw [Source.readExact_of_lt hheader, if_pos hheader]
    simp
  · have hread : recv.readExact 4 = (.ok (recv.unread.take 4), (recv.readExact 4).2) :=
      Prod.ext (by rw [Source.readExact_fst, if_pos (by omega)]) rfl
    rw [hread, if_neg hheader]
    dsimp only
    generalize fromBeBytes (recv.unread.take 4) = len
    have hunread : (recv.readExact 4).2.unread = recv.unread.drop 4 := recv.unread_readExact 4
    by_cases hlen : len = 0 ∨ maxFrameSize < len
    · rw [if_pos hlen, if_pos (by tauto)]
      simp
    · rw [if_neg hlen]
      by_cases hshort : recv.unread.length < 4 + len
      · have hlt : (recv.readExact 4).2.unread.length < len := by
          rw [hunread, List.length_drop]
          omega
        rw [Source.readExact_of_lt hlt, if_pos (by tauto)]
        simp
      · have hread' : (recv.readExact 4).2.readExact len =
            (.ok ((recv.unread.drop 4).take len), ((recv.readExact 4).2.readExact len).2) := by
          apply Prod.ext
          · rw [Source.readExact_fst, if_pos (by rw [hunread, List.length_drop]; omega), hunread]
          · rfl
        rw [hread', if_neg (by tauto)]
        constructor
        · simp [Option.map_map, Function.comp_def]
        · intro m rest h
          simp only [Option.map_eq_some_iff, Prod.mk.injEq] at h
          obtain ⟨_, -, -, rfl⟩ := h
          rw [Source.unread_readExact, hunread, List.drop_drop]

theorem messages_of_readMsg_none (h : (readMsg decode recv).1 = none) :
    messages decode recv.unread = [] := by
  rw [(readMsg_eq recv).1, Option.map_eq_none_iff] at h
  exact messages_of_none h

theorem messages_of_readMsg_some (h : (readMsg decode recv).1 = some m) :
    messages decode recv.unread = m :: messages decode (readMsg decode recv).2.unread := by
  obtain ⟨hfst, hsnd⟩ := @readMsg_eq decode recv
  rw [hfst, Option.map_eq_some_iff] at h
  obtain ⟨⟨m', rest⟩, hparse, rfl⟩ := h
  rw [messages_of_some hparse, hsnd m' rest hparse]

/-! What a device sends, and the connection cuts off anywhere. -/

theorem fromBeBytes_header (hle : payload.length ≤ maxFrameSize) :
    fromBeBytes ((frameOf payload ++ rest).take 4) = payload.length := by
  rw [frameOf, List.append_assoc, List.take_left' (length_toBeBytes _)]
  exact fromBeBytes_length hle

theorem messages_frameOf (hpos : 0 < payload.length) (hle : payload.length ≤ maxFrameSize)
    (hdecode : decode payload = some m) :
    messages decode (frameOf payload ++ rest) = m :: messages decode rest := by
  have hdrop : (frameOf payload ++ rest).drop 4 = payload ++ rest := by
    rw [frameOf, List.append_assoc, List.drop_left' (length_toBeBytes _)]
  have hlen : (frameOf payload ++ rest).length = 4 + payload.length + rest.length := by
    rw [List.length_append, length_frameOf]
  apply messages_of_some
  unfold parseMsg
  rw [fromBeBytes_header hle, hlen, if_neg (by omega)]
  dsimp only
  rw [if_neg (by omega), hdrop, List.take_left, hdecode, ← List.drop_drop, hdrop, List.drop_left]
  rfl

theorem messages_short {k : ℕ} (hle : payload.length ≤ maxFrameSize)
    (hk : k < (frameOf payload).length) : messages decode ((frameOf payload).take k) = [] := by
  have hlen : ((frameOf payload).take k).length = k := by
    rw [List.length_take, min_eq_left hk.le]
  rw [length_frameOf] at hk
  apply messages_of_none
  unfold parseMsg
  by_cases hheader : k < 4
  · rw [hlen, if_pos hheader]
  · have hsize : fromBeBytes (((frameOf payload).take k).take 4) = payload.length := by
      rw [List.take_take, min_eq_left (by omega), ← @fromBeBytes_header [] payload hle,
        List.append_nil]
    rw [hlen, hsize, if_neg hheader]
    exact if_pos (by omega)

/-- A message that the two sides agree on and that fits in a frame. -/
structure Encodes (encode : ClientMsg → Bytes) (decode : Bytes → Option ClientMsg) (m : ClientMsg) :
    Prop where
  decodes : decode (encode m) = some m
  pos : 0 < (encode m).length
  le : (encode m).length ≤ maxFrameSize

/-- What a device writes to its stream. -/
def framesOf (encode : ClientMsg → Bytes) (ms : List ClientMsg) : Bytes :=
  ms.flatMap fun m => frameOf (encode m)

@[simp] theorem framesOf_cons (encode : ClientMsg → Bytes) (m : ClientMsg) (ms : List ClientMsg) :
    framesOf encode (m :: ms) = frameOf (encode m) ++ framesOf encode ms := rfl

/-- What comes of it is the messages that have come in whole. -/
theorem exists_messages_take {encode : ClientMsg → Bytes} {ms : List ClientMsg}
    (hms : ∀ m ∈ ms, Encodes encode decode m) (k : ℕ) :
    ∃ j ≤ ms.length, messages decode ((framesOf encode ms).take k) = ms.take j ∧
      ∀ i ≤ ms.length, i ≤ j ↔ (framesOf encode (ms.take i)).length ≤ k := by
  induction ms generalizing k with
  | nil =>
    refine ⟨0, Nat.le_refl 0, ?_, by simp [framesOf]⟩
    exact messages_of_none (by simp [parseMsg, framesOf])
  | cons m ms ih =>
    rw [List.forall_mem_cons] at hms
    obtain ⟨⟨hdecodes, hpos, hle⟩, hms⟩ := hms
    by_cases hk : k < (frameOf (encode m)).length
    · refine ⟨0, Nat.zero_le _, ?_, ?_⟩
      · rw [framesOf_cons, List.take_append_of_le_length hk.le]
        exact messages_short hle hk
      · rintro (_ | i) hi
        · simp [framesOf]
        · rw [List.take_succ_cons, framesOf_cons, List.length_append]
          omega
    · rw [not_lt] at hk
      obtain ⟨j, hj, heq, hiff⟩ := ih hms (k - (frameOf (encode m)).length)
      refine ⟨j + 1, Nat.succ_le_succ hj, ?_, ?_⟩
      · rw [framesOf_cons, List.take_append, List.take_of_length_le hk,
          messages_frameOf hpos hle hdecodes, heq, List.take_succ_cons]
      · rintro (_ | i) hi
        · simp [framesOf]
        · rw [List.take_succ_cons, framesOf_cons, List.length_append, Nat.add_le_add_iff_right,
            hiff i (Nat.le_of_succ_le_succ hi)]
          omega

end Messages

/-! ### The turns of the two tasks -/

section Turns

variable (decode : Bytes → Option ClientMsg) (w : World)

/-- How many messages the channel between the tasks holds. -/
def channelSize : ℕ := 16

/-- The loop is there to take messages, now or later. -/
def Receiving (stream : PaneStream) : Prop := stream.status = .streaming ∨ stream.status = .lagged

instance (stream : PaneStream) : Decidable (Receiving stream) :=
  inferInstanceAs (Decidable (_ ∨ _))

/-- The write to a terminal that a message calls for. -/
def writeOf (p : PaneId) : ClientMsg → List (PaneId × Bytes)
  | .sendInput raw data => [(((Uuid.parseStr raw).map PaneId.mk).getD p, data)]
  | _ => []

inductive Step where
  /-- Anybody calls the manager. -/
  | call (op : Op)
  /-- The first message is read and acted on. -/
  | first
  | snapshot (failed : Option ℕ)
  | recv (failed : Option ℕ)
  /-- The reader task reads a message and sends it to the loop. -/
  | read
  /-- The loop takes a message, or finds that there will be none. -/
  | client (failed : Option ℕ)

def opened (sm : SessionManager) (recv : Source UInt8) : RemoteInput where
  sm := sm
  recv := recv
  stage := .opened
  reading := true
  queue := []
  asked := []

def first (s : RemoteInput) : RemoteInput :=
  match s.stage with
  | .opened =>
    let r := readMsg decode s.recv
    { s with recv := r.2, stage := (RemoteDaemon.firstMessage s.sm r.1).1 }
  | _ => s

/-- A turn that has nothing to do with the messages. -/
def onStream (turn : PaneId → PaneStream → PaneStream) (s : RemoteInput) : RemoteInput :=
  match s.stage with
  | .subscribed p stream => { s with stage := .subscribed p (turn p stream) }
  | _ => s

/-- One message into the channel, once there is room. The task ends with the stream, and when
nobody takes its messages. -/
def read (s : RemoteInput) : RemoteInput :=
  match s.stage with
  | .subscribed _ stream =>
    if s.reading ∧ stream.status ≠ .accepted ∧
        (Receiving stream → s.queue.length < channelSize) then
      let r := readMsg decode s.recv
      match r.1 with
      | some m =>
        if Receiving stream then { s with recv := r.2, queue := s.queue ++ [m] }
        else { s with recv := r.2, reading := false }
      | none => { s with recv := r.2, reading := false }
    else s
  | _ => s

/-- The loop waits for a message as long as the reader task may send one. -/
def client (failed : Option ℕ) (s : RemoteInput) : RemoteInput :=
  match s.stage with
  | .subscribed p stream =>
    if stream.status = .streaming then
      match s.queue with
      | m :: queue =>
        { s with stage := .subscribed p (stream.onClient p failed (some m)), queue := queue,
                 asked := s.asked ++ writeOf p m }
      | [] =>
        if s.reading then s
        else { s with stage := .subscribed p (stream.onClient p failed none) }
    else s
  | _ => s

def step (s : RemoteInput) : Step → RemoteInput
  | .call op => { s with sm := s.sm.apply w op }
  | .first => s.first decode
  | .snapshot failed => s.onStream fun p stream => stream.snapshot p failed s.sm
  | .recv failed => s.onStream fun p stream => stream.recv p failed s.sm.eventTx
  | .read => s.read decode
  | .client failed => s.client failed

/-! ### What is typed -/

/-- The input up to the message that ends the stream. -/
def inputs (p : PaneId) : List ClientMsg → List (PaneId × Bytes)
  | [] => []
  | .unsubscribe :: _ => []
  | m :: ms => writeOf p m ++ inputs p ms

/-- The input in the messages of a stream, the one it begins with included. -/
def typed : List ClientMsg → List (PaneId × Bytes)
  | .subscribe raw :: ms =>
    match Uuid.parseStr raw with
    | some u => inputs ⟨u⟩ ms
    | none => []
  | _ => []

/-- No write to the device fails. -/
def Step.Delivered : Step → Prop
  | .snapshot failed | .recv failed | .client failed => failed = none
  | _ => True

end Turns

/-! ### What the turns keep -/

section Invariant

variable {decode : Bytes → Option ClientMsg} {w : World} {delivered : Prop} {all ms : List ClientMsg}
  {p : PaneId} {stream : PaneStream} {s : RemoteInput}

/-- The stream has ended, one way or the other. -/
def Over (stream : PaneStream) : Prop := stream.status = .gone ∨ stream.status = .finished

/-- What the loop is still to take. -/
def pending (decode : Bytes → Option ClientMsg) (s : RemoteInput) : List ClientMsg :=
  s.queue ++ if s.reading then messages decode s.recv.unread else []

/-- The loop has asked for the writes of the messages it took, and of all of them if it came to
their end. -/
structure Typing (decode : Bytes → Option ClientMsg) (delivered : Prop) (p : PaneId)
    (ms : List ClientMsg) (stream : PaneStream) (s : RemoteInput) : Prop where
  pending : ¬Over stream → s.asked ++ inputs p (s.pending decode) = inputs p ms
  begins : s.asked <+: inputs p ms
  whole : delivered → stream.status = .finished → s.asked = inputs p ms

def Inv (decode : Bytes → Option ClientMsg) (delivered : Prop) (all : List ClientMsg)
    (s : RemoteInput) : Prop :=
  match s.stage with
  | .opened => s.pending decode = all ∧ s.reading = true ∧ s.queue = [] ∧ s.asked = []
  | .finished => s.asked = []
  | .subscribed p stream => ∃ ms, typed all = inputs p ms ∧ Typing decode delivered p ms stream s

theorem inputs_cons {m : ClientMsg} (p : PaneId) (hm : m ≠ .unsubscribe) (ms : List ClientMsg) :
    inputs p (m :: ms) = writeOf p m ++ inputs p ms := by
  cases m <;> first | rfl | exact absurd rfl hm

theorem Inv.opened (sm : SessionManager) (recv : Source UInt8) :
    Inv decode delivered (messages decode recv.unread) (opened sm recv) :=
  ⟨rfl, rfl, rfl, rfl⟩

theorem Inv.call (h : Inv decode delivered all s) (op : Op) :
    Inv decode delivered all { s with sm := s.sm.apply w op } := by
  cases hstage : s.stage with
  | opened =>
    simp only [Inv, hstage] at h ⊢
    exact h
  | finished =>
    simp only [Inv, hstage] at h ⊢
    exact h
  | subscribed p stream =>
    simp only [Inv, hstage] at h ⊢
    obtain ⟨ms, hms, htyping⟩ := h
    exact ⟨ms, hms, htyping.pending, htyping.begins, htyping.whole⟩

/-- A stream is subscribed to a pane by its first message, or done with. -/
theorem firstMessage_stage (sm : SessionManager) (msg : Option ClientMsg) :
    (RemoteDaemon.firstMessage sm msg).1 = .finished ∨
      ∃ raw u, msg = some (.subscribe raw) ∧ Uuid.parseStr raw = some u ∧
        (RemoteDaemon.firstMessage sm msg).1 = .subscribed ⟨u⟩ .accepted := by
  rcases msg with _ | m
  · exact .inl rfl
  · cases m with
    | subscribe raw =>
      unfold RemoteDaemon.firstMessage subscribeTarget
      dsimp only
      cases hraw : Uuid.parseStr raw with
      | none => exact .inl rfl
      | some u =>
        dsimp only
        split_ifs
        · exact .inr ⟨raw, u, rfl, hraw, rfl⟩
        · exact .inl rfl
    | _ => exact .inl rfl

theorem Inv.first (h : Inv decode delivered all s) : Inv decode delivered all (s.first decode) := by
  unfold RemoteInput.first
  cases hstage : s.stage with
  | subscribed p stream => exact h
  | finished => exact h
  | opened =>
    simp only [Inv, hstage] at h
    obtain ⟨hpending, hreading, hqueue, hasked⟩ := h
    rw [RemoteInput.pending, hqueue, hreading, List.nil_append, if_pos rfl] at hpending
    dsimp only
    rcases firstMessage_stage s.sm (readMsg decode s.recv).1 with
      hnext | ⟨raw, u, hmsg, hraw, hnext⟩
    · simp only [Inv, hnext]
      exact hasked
    · have hall := hpending.symm.trans (messages_of_readMsg_some hmsg)
      simp only [Inv, hnext]
      refine ⟨messages decode (readMsg decode s.recv).2.unread, by rw [hall, typed, hraw],
        fun _ => ?_, ?_, fun _ hfinished => absurd hfinished (by decide)⟩
      · simp [RemoteInput.pending, hasked, hqueue, hreading]
      · simp [hasked]

/-- A turn that ends a stream only by its pane, or by a write that fails. -/
theorem Inv.onStream {turn : PaneId → PaneStream → PaneStream} (h : Inv decode delivered all s)
    (hover : ∀ p stream, Over stream → Over (turn p stream))
    (hfinished : delivered → ∀ p stream, (turn p stream).status = .finished →
      stream.status = .finished) : Inv decode delivered all (s.onStream turn) := by
  unfold RemoteInput.onStream
  cases hstage : s.stage with
  | opened => exact h
  | finished => exact h
  | subscribed p stream =>
    simp only [Inv, hstage] at h
    obtain ⟨ms, hms, htyping⟩ := h
    refine ⟨ms, hms, fun hnot => ?_, htyping.begins, fun hd hnext => ?_⟩
    · exact htyping.pending fun h => hnot (hover p stream h)
    · exact htyping.whole hd (hfinished hd p stream hnext)

theorem over_snapshot (failed : Option ℕ) (sm : SessionManager) (p : PaneId) (h : Over stream) :
    Over (stream.snapshot p failed sm) := by
  rwa [RemoteDaemon.snapshot_of_not_running p failed sm h]

theorem over_recv (failed : Option ℕ) (events : Broadcast SessionEvent) (p : PaneId)
    (h : Over stream) : Over (stream.recv p failed events) := by
  rwa [RemoteDaemon.recv_of_not_running p failed events h]

theorem snapshot_finished {sm : SessionManager}
    (h : (stream.snapshot p none sm).status = .finished) : stream.status = .finished := by
  cases hstatus : stream.status <;>
    simp_all [PaneStream.snapshot, PaneStream.sendSentinelAndReplay, PaneStream.writeMsgs]

theorem recv_finished {events : Broadcast SessionEvent}
    (h : (stream.recv p none events).status = .finished) : stream.status = .finished := by
  unfold PaneStream.recv at h
  split_ifs at h with hup
  · rcases hrecv : events.recv stream.receiver with ⟨e | _ | _, r⟩
    · rw [hrecv] at h
      cases e <;> simp only [PaneStream.onEvent] at h
      all_goals first | exact h | (split_ifs at h <;> exact h)
    · simp [hrecv] at h
    · simp [hrecv, hup] at h
  · exact h

theorem Inv.read (h : Inv decode delivered all s) : Inv decode delivered all (s.read decode) := by
  unfold RemoteInput.read
  cases hstage : s.stage with
  | opened => exact h
  | finished => exact h
  | subscribed p stream =>
    dsimp only
    by_cases hready : s.reading ∧ stream.status ≠ .accepted ∧
        (Receiving stream → s.queue.length < channelSize)
    · rw [if_pos hready]
      obtain ⟨hreading, haccepted, -⟩ := hready
      simp only [Inv, hstage] at h
      obtain ⟨ms, hms, htyping⟩ := h
      cases hmsg : (readMsg decode s.recv).1 with
      | none =>
        refine ⟨ms, hms, fun hnot => ?_, htyping.begins, htyping.whole⟩
        have hpending := htyping.pending hnot
        rw [RemoteInput.pending, hreading, if_pos rfl, messages_of_readMsg_none hmsg] at hpending
        exact hpending
      | some m =>
        dsimp only
        by_cases hreceiving : Receiving stream
        · rw [if_pos hreceiving]
          refine ⟨ms, hms, fun hnot => ?_, htyping.begins, htyping.whole⟩
          have hpending := htyping.pending hnot
          rw [RemoteInput.pending, hreading, if_pos rfl, messages_of_readMsg_some hmsg] at hpending
          rw [RemoteInput.pending, hreading, if_pos rfl, List.append_assoc]
          exact hpending
        · rw [if_neg hreceiving]
          -- nobody takes the message, and nobody will take one later
          have hover : Over stream := by
            unfold Over
            cases hstatus : stream.status <;> simp_all [Receiving]
          exact ⟨ms, hms, fun hnot => absurd hover hnot, htyping.begins, htyping.whole⟩
    · rw [if_neg hready]
      exact h

/-- The loop goes on unless it cannot answer. -/
theorem onClient_status (hup : stream.status = .streaming) (failed : Option ℕ) {m : ClientMsg}
    (hm : m ≠ .unsubscribe) :
    (stream.onClient p failed (some m)).status = .streaming ∨
      failed ≠ none ∧ (stream.onClient p failed (some m)).status = .finished := by
  unfold PaneStream.onClient
  rw [if_pos hup]
  cases m with
  | unsubscribe => exact absurd rfl hm
  | requestScrollback raw fromRow count =>
    dsimp only
    rw [RemotePane.writeMsgs_singleton]
    split_ifs with hfailed
    · exact .inr ⟨by simp [hfailed], rfl⟩
    · exact .inl hup
  | subscribe raw => exact .inl hup
  | listPanes => exact .inl hup
  | sendInput raw data => exact .inl hup

/-- The loop is left with the last message, or because there is none. -/
theorem Typing.leave {s' : RemoteInput} (h : Typing decode delivered p ms stream s)
    (hasked : s'.asked = s.asked) (hend : s.asked = inputs p ms) {next : PaneStream}
    (hnext : next.status = .finished) : Typing decode delivered p ms next s' where
  pending hnot := absurd (.inr hnext) hnot
  begins := hasked ▸ h.begins
  whole _ _ := hasked.trans hend

theorem Inv.client {failed : Option ℕ} (h : Inv decode delivered all s)
    (hfailed : delivered → failed = none) : Inv decode delivered all (s.client failed) := by
  unfold RemoteInput.client
  cases hstage : s.stage with
  | opened => exact h
  | finished => exact h
  | subscribed p stream =>
    dsimp only
    by_cases hup : stream.status = .streaming
    · have hinv := h
      simp only [Inv, hstage] at h
      obtain ⟨ms, hms, htyping⟩ := h
      have hpending := htyping.pending (by simp [Over, hup])
      rw [if_pos hup]
      cases hqueue : s.queue with
      | nil =>
        by_cases hreading : s.reading
        · simpa only [if_pos hreading] using hinv
        · simp only [if_neg hreading]
          rw [RemoteInput.pending, hqueue, if_neg hreading, List.append_nil, inputs,
            List.append_nil] at hpending
          have hnext : (stream.onClient p failed none).status = .finished := by
            simp [PaneStream.onClient, hup]
          refine ⟨ms, hms, htyping.leave ?_ hpending hnext⟩
          rfl
      | cons m queue =>
        rw [RemoteInput.pending, hqueue, List.cons_append] at hpending
        by_cases hm : m = .unsubscribe
        · subst hm
          rw [inputs, List.append_nil] at hpending
          have hnext : (stream.onClient p failed (some .unsubscribe)).status = .finished := by
            simp [PaneStream.onClient, hup]
          exact ⟨ms, hms, htyping.leave (List.append_nil _) hpending hnext⟩
        · rw [inputs_cons p hm, ← List.append_assoc] at hpending
          refine ⟨ms, hms, fun _ => hpending, ⟨_, hpending⟩, fun hd hfinished => ?_⟩
          rcases onClient_status (p := p) hup failed hm with hgoes | ⟨hne, -⟩
          · rw [hgoes] at hfinished
            cases hfinished
          · exact absurd (hfailed hd) hne
    · rw [if_neg hup]
      exact h

/-- One turn. -/
theorem Inv.step (h : Inv decode delivered all s) (i : Step) (hi : delivered → i.Delivered) :
    Inv decode delivered all (s.step decode w i) := by
  cases i with
  | call op => exact h.call op
  | first => exact h.first
  | snapshot failed =>
    refine h.onStream (fun p stream => over_snapshot failed s.sm p) fun hd p stream hnext => ?_
    rw [show failed = none from hi hd] at hnext
    exact snapshot_finished hnext
  | recv failed =>
    refine h.onStream (fun p stream => over_recv failed s.sm.eventTx p) fun hd p stream hnext => ?_
    rw [show failed = none from hi hd] at hnext
    exact recv_finished hnext
  | read => exact h.read
  | client failed => exact h.client hi

theorem Inv.run (h : Inv decode delivered all s) {is : List Step}
    (his : delivered → ∀ i ∈ is, i.Delivered) :
    Inv decode delivered all (Lib.run (RemoteInput.step decode w) s is) := by
  induction is generalizing s with
  | nil => exact h
  | cons i is ih =>
    exact ih (h.step i fun hd => his hd i List.mem_cons_self)
      fun hd j hj => his hd j (List.mem_cons_of_mem i hj)

theorem Inv.begins (h : Inv decode delivered all s) : s.asked <+: typed all := by
  cases hstage : s.stage with
  | opened =>
    simp only [Inv, hstage] at h
    simp [h.2.2.2]
  | finished =>
    simp only [Inv, hstage] at h
    simp [h]
  | subscribed p stream =>
    simp only [Inv, hstage] at h
    obtain ⟨ms, hms, htyping⟩ := h
    exact hms ▸ htyping.begins

/-- The loop was left as the device wanted it, or the write to the device failed. -/
def Left (s : RemoteInput) : Prop :=
  ∃ p stream, s.stage = .subscribed p stream ∧ stream.status = .finished

theorem Inv.whole (h : Inv decode delivered all s) (hd : delivered) (hleft : s.Left) :
    s.asked = typed all := by
  obtain ⟨p, stream, hstage, hfinished⟩ := hleft
  simp only [Inv, hstage] at h
  obtain ⟨ms, hms, htyping⟩ := h
  exact (htyping.whole hd hfinished).trans hms.symm

end Invariant

/-! ### What a device types -/

/-- However the stream is cut into reads and the turns of the tasks follow each other and the
other calls, the writes asked for are those of the messages in it, in their order. -/
theorem asked_run (decode : Bytes → Option ClientMsg) (w : World) (sm : SessionManager)
    (recv : Source UInt8) (is : List Step) :
    (Lib.run (step decode w) (opened sm recv) is).asked <+: typed (messages decode recv.unread) ∧
      ((∀ i ∈ is, i.Delivered) → (Lib.run (step decode w) (opened sm recv) is).Left →
        (Lib.run (step decode w) (opened sm recv) is).asked =
          typed (messages decode recv.unread)) := by
  refine ⟨?_, fun his hleft => ?_⟩
  · exact Inv.begins ((@Inv.opened decode False sm recv).run False.elim)
  · exact Inv.whole ((@Inv.opened decode True sm recv).run fun _ => his) trivial hleft

/-- And wherever the connection breaks off, those are the messages that had come in whole. -/
theorem asked_of_cut {encode : ClientMsg → Bytes} {decode : Bytes → Option ClientMsg}
    {ms : List ClientMsg} (hms : ∀ m ∈ ms, Encodes encode decode m) (w : World)
    (sm : SessionManager) {recv : Source UInt8} {k : ℕ}
    (hrecv : recv.unread = (framesOf encode ms).take k) (is : List Step) :
    ∃ j ≤ ms.length, (∀ i ≤ ms.length, i ≤ j ↔ (framesOf encode (ms.take i)).length ≤ k) ∧
      (Lib.run (step decode w) (opened sm recv) is).asked <+: typed (ms.take j) ∧
      ((∀ i ∈ is, i.Delivered) → (Lib.run (step decode w) (opened sm recv) is).Left →
        (Lib.run (step decode w) (opened sm recv) is).asked = typed (ms.take j)) := by
  obtain ⟨j, hj, heq, hiff⟩ := exists_messages_take hms k
  have hasked := asked_run decode w sm recv is
  rw [hrecv, heq] at hasked
  exact ⟨j, hj, hiff, hasked⟩

end RemoteInput

/-! ### A phone types and loses its connection -/

/-- A text of ASCII characters, with its length. -/
def packStr (s : String) : Bytes :=
  let chars := s.toList.map fun c => UInt8.ofNat c.toNat
  if chars.length < 32 then UInt8.ofNat (160 + chars.length) :: chars
  else 217 :: UInt8.ofNat chars.length :: chars

/-- The messages of a phone with a keyboard, as a map of their named fields. -/
def packMsg : ClientMsg → Bytes
  | .subscribe raw => 130 :: packStr "type" ++ packStr "subscribe" ++ packStr "pane_id" ++ packStr raw
  | .sendInput raw data =>
    131 :: packStr "type" ++ packStr "send_input" ++ packStr "pane_id" ++ packStr raw ++
      packStr "data" ++ 196 :: UInt8.ofNat data.length :: data
  | .unsubscribe => 129 :: packStr "type" ++ packStr "unsubscribe"
  | _ => 129 :: packStr "type" ++ packStr "list_panes"

def phoneTypes : List ClientMsg :=
  [.subscribe "00000000-0000-0000-0000-000000000001", .sendInput "" [108, 115],
    .sendInput "" [13], .unsubscribe]

def unpackMsg (bytes : Bytes) : Option ClientMsg := phoneTypes.find? (packMsg · = bytes)

/-- The connection is lost within the third message. -/
def lostKeys : Source UInt8 where
  pieces := [(RemoteInput.framesOf packMsg phoneTypes).take 70,
    ((RemoteInput.framesOf packMsg phoneTypes).drop 70).take 60]
  fails := true

def typesAndLoses : List RemoteInput.Step :=
  [.first, .snapshot none, .read, .read, .client none, .client none]

theorem asked_of_cut_lostKeys :
    ∃ j ≤ 4, (run (RemoteInput.step unpackMsg .counting)
        (RemoteInput.opened Fanout.replayStart lostKeys) typesAndLoses).asked =
      RemoteInput.typed (phoneTypes.take j) := by
  have hms : ∀ m ∈ phoneTypes, RemoteInput.Encodes packMsg unpackMsg m := by
    intro m hm
    simp only [phoneTypes, List.mem_cons, List.not_mem_nil, or_false] at hm
    rcases hm with rfl | rfl | rfl | rfl <;> exact ⟨rfl, by decide, by decide⟩
  have hrecv : lostKeys.unread = (RemoteInput.framesOf packMsg phoneTypes).take 130 := by
    decide +kernel
  obtain ⟨j, hj, -, -, heq⟩ :=
    RemoteInput.asked_of_cut hms .counting Fanout.replayStart hrecv typesAndLoses
  refine ⟨j, hj, heq ?_ ?_⟩
  · simp [typesAndLoses, RemoteInput.Step.Delivered]
  · exact ⟨_, _, rfl, rfl⟩

end Forgetty
