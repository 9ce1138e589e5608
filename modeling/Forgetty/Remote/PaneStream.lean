import Forgetty.Socket.Protocol
import Forgetty.Socket.SubscribeOutput

/-! The stream of a paired device that subscribed to a pane: a reset marker and a
copy of the ring, then the events of the channel, and marker and ring again whenever
the receiver lagged. The stream keeps its first receiver then, so chunks that the
channel still holds from before the new copy are sent although the copy has them. -/

namespace Forgetty

open Lib SessionManager

/-! ### Messages -/

inductive ClientMsg where
  | subscribe (paneId : String)
  | listPanes
  | unsubscribe
  | requestScrollback (paneId : String) (fromRow : ℤ) (count : ℕ)
  | sendInput (paneId : String) (data : Bytes)

inductive DaemonMsg where
  | fullSnapshot (paneId : PaneId) (rows cols : ℕ) (lines : List String) (cursorRow cursorCol : ℕ)
  | ptyBytes (paneId : PaneId) (data : Bytes)
  | scrollbackPage (paneId : PaneId) (fromRow : ℤ) (lines : List String)
  | paneGone (paneId : PaneId)

namespace DaemonMsg

def replayChunkSize : ℕ := 1024 * 1024

/-- The marker that tells the peer to start over. -/
def buildSnapshot (p : PaneId) : DaemonMsg := .fullSnapshot p 0 0 [] 0 0

def buildScrollbackPage (p : PaneId) (fromRow : ℤ) : DaemonMsg := .scrollbackPage p fromRow []

/-- The marker and the ring behind it. -/
def sentinelAndReplay (p : PaneId) (replay : Bytes) : List DaemonMsg :=
  buildSnapshot p :: (replay.toChunks replayChunkSize).map (.ptyBytes p)

/-- One message more: a marker begins a segment, data goes to the last one begun. -/
def segment (segs : List Bytes) : DaemonMsg → List Bytes
  | .fullSnapshot .. => [] :: segs
  | .ptyBytes _ data => segs.modifyHead (· ++ data)
  | _ => segs

/-- The data bytes behind each marker, the last marker first. -/
def segments (msgs : List DaemonMsg) : List Bytes := msgs.foldl segment []

end DaemonMsg

/-! ### The stream -/

/-- `accepted`: the pane was found. `lagged`: the receiver was told so and the marker
is still to be sent. `gone`: the closing of the pane was received. -/
inductive StreamStatus where
  | accepted
  | streaming
  | lagged
  | gone
  | finished
  deriving DecidableEq, Repr

/-- A copy of the ring, and how many events had been sent then. -/
structure RingCopy where
  since : ℕ
  ring : Bytes

/-- The stream. `copies` are the rings that stand behind the markers sent, the last
one first. -/
structure PaneStream where
  receiver : Receiver
  sent : List DaemonMsg
  copies : List RingCopy
  status : StreamStatus

/-- Which pane a request is for, if the daemon has it. -/
def subscribeTarget (raw : String) (sm : SessionManager) : Except String PaneId :=
  match Uuid.parseStr raw with
  | none => .error s!"invalid pane_id UUID: {raw}"
  | some u =>
    if (⟨u⟩ : PaneId) ∈ sm.panes then .ok ⟨u⟩ else .error s!"pane not found: {raw}"

namespace PaneStream

/-- The stream of a pane that was found, before it subscribes. -/
def accepted : PaneStream := { receiver := ⟨0⟩, sent := [], copies := [], status := .accepted }

/-- Write messages. When the write of message `k` fails, the loop is left. -/
def writeMsgs (msgs : List DaemonMsg) (failed : Option ℕ) (c : PaneStream) : PaneStream :=
  match failed with
  | none => { c with sent := c.sent ++ msgs }
  | some k =>
    if k < msgs.length then { c with sent := c.sent ++ msgs.take k, status := .finished }
    else { c with sent := c.sent ++ msgs }

def sendSentinelAndReplay (p : PaneId) (copy : RingCopy) (failed : Option ℕ) (c : PaneStream) :
    PaneStream :=
  match failed with
  | some 0 => { c with status := .finished }
  | _ => { c with copies := copy :: c.copies }.writeMsgs
      (DaemonMsg.sentinelAndReplay p copy.ring) failed

/-- Copy the ring and send it. Behind a lag the receiver that comes with the copy is
thrown away. -/
def snapshot (p : PaneId) (failed : Option ℕ) (sm : SessionManager) (c : PaneStream) : PaneStream :=
  let r := sm.subscribeWithSnapshot p
  let copy : RingCopy := { since := r.1.next, ring := r.2.1 }
  match c.status with
  | .accepted =>
    { c with receiver := r.1, status := .streaming }.sendSentinelAndReplay p copy failed
  | .lagged => { c with status := .streaming }.sendSentinelAndReplay p copy failed
  | _ => c

def onEvent (p : PaneId) (failed : Option ℕ) (c : PaneStream) : SessionEvent → PaneStream
  | .ptyOutput paneId data => if paneId = p then c.writeMsgs [.ptyBytes p data] failed else c
  | .paneClosed paneId =>
    if paneId = p then { c.writeMsgs [.paneGone p] failed with status := .gone } else c
  | _ => c

/-- One turn of the loop in which the receiver is ready. -/
def recv (p : PaneId) (failed : Option ℕ) (events : Broadcast SessionEvent) (c : PaneStream) :
    PaneStream :=
  if c.status = .streaming then
    match events.recv c.receiver with
    | (.item e, r) => { c with receiver := r }.onEvent p failed e
    | (.lagged _, r) => { c with receiver := r, status := .lagged }
    | (.empty, _) => c
  else c

/-- One turn of the loop in which the reader task delivers: a message, or `none` once
the peer closed its side. Input goes to the pseudoterminal and nowhere else. -/
def onClient (p : PaneId) (failed : Option ℕ) (msg : Option ClientMsg) (c : PaneStream) :
    PaneStream :=
  if c.status = .streaming then
    match msg with
    | none | some .unsubscribe => { c with status := .finished }
    | some (.requestScrollback raw fromRow _) =>
      let requested := ((Uuid.parseStr raw).map PaneId.mk).getD p
      c.writeMsgs [DaemonMsg.buildScrollbackPage requested fromRow] failed
    | some (.sendInput ..) | some (.subscribe _) | some .listPanes => c
  else c

end PaneStream

/-- The manager and the stream of one pane. -/
structure RemotePane where
  sm : SessionManager
  stream : PaneStream

namespace RemotePane

/-- Anybody may call the manager between two turns of the loop, and between a lag and
the copy of the ring. -/
inductive Step where
  | call (op : Op)
  | snapshot (failed : Option ℕ)
  | recv (failed : Option ℕ)
  | client (msg : Option ClientMsg) (failed : Option ℕ)

def step (w : World) (p : PaneId) (s : RemotePane) : Step → RemotePane
  | .call op => { s with sm := s.sm.apply w op }
  | .snapshot failed => { s with stream := s.stream.snapshot p failed s.sm }
  | .recv failed => { s with stream := s.stream.recv p failed s.sm.eventTx }
  | .client msg failed => { s with stream := s.stream.onClient p failed msg }

end RemotePane

/-! ### What the stream is for -/

namespace PaneStream

/-- The last segment is the last copy of the ring and what the pane put out since, up
to event `n`. -/
def Current (p : PaneId) (events : List SessionEvent) (n : ℕ) (c : PaneStream) : Prop :=
  ∃ data segs copy copies, DaemonMsg.segments c.sent = data :: segs ∧ c.copies = copy :: copies ∧
    data = copy.ring ++ outputOf p (slice events copy.since n)

/-- Every segment begins with its copy of the ring and goes on with what the pane put
out behind it. The last one has all that was received while the stream is up, and all
there is once the closing of the pane was. -/
structure Exact (p : PaneId) (events : List SessionEvent) (c : PaneStream) : Prop where
  begins : List.Forall₂
    (fun data copy => data <+: copy.ring ++ outputOf p (events.drop copy.since))
    (DaemonMsg.segments c.sent) c.copies
  current : c.status = .streaming → c.Current p events c.receiver.next
  whole : c.status = .gone → c.Current p events events.length

end PaneStream

namespace RemotePane

def Exact (p : PaneId) (s : RemotePane) : Prop := s.stream.Exact p s.sm.eventTx.sent

/-- No chunk is forwarded that was broadcast before the last copy of the ring. -/
def ForwardsNew (p : PaneId) (s : RemotePane) : Step → Prop
  | .recv failed => s.stream.status = .streaming → ∀ copy, s.stream.copies.head? = some copy →
      s.stream.receiver.next < copy.since → ∀ data,
        (s.sm.eventTx.recv s.stream.receiver).1 = .item (.ptyOutput p data) →
          data = [] ∨ failed = some 0
  | _ => True

/-! ### Runs -/

structure Inv (w : World) (p : PaneId) (base : ℕ) (s : RemotePane) : Prop where
  history : PaneHistory w p base s.sm
  bounds : s.stream.status ≠ .accepted →
    base ≤ s.stream.receiver.next ∧ s.stream.receiver.next ≤ s.sm.eventTx.sent.length
  copies : ∀ copy ∈ s.stream.copies, base ≤ copy.since ∧ copy.since ≤ s.sm.eventTx.sent.length
  gone : s.stream.status = .gone → .paneClosed p ∈ s.sm.eventTx.sent.drop base

section Steps

open PaneStream

variable {w : World} {p : PaneId} {base : ℕ} {s : RemotePane} {c : PaneStream}
  {events : List SessionEvent}

theorem segments_append (xs ys : List DaemonMsg) :
    DaemonMsg.segments (xs ++ ys) = ys.foldl DaemonMsg.segment (DaemonMsg.segments xs) :=
  List.foldl_append

theorem segments_ptyBytes (data : Bytes) {msgs : List DaemonMsg} {d : Bytes} {segs : List Bytes}
    (h : DaemonMsg.segments msgs = d :: segs) :
    DaemonMsg.segments (msgs ++ [.ptyBytes p data]) = (d ++ data) :: segs := by
  rw [segments_append, h]
  rfl

theorem foldl_segment_ptyBytes (p : PaneId) (ds : List Bytes) (d : Bytes) (segs : List Bytes) :
    (ds.map (.ptyBytes p)).foldl DaemonMsg.segment (d :: segs) = (d ++ ds.flatten) :: segs := by
  induction ds generalizing d with
  | nil => simp
  | cons d' ds ih =>
    rw [List.map_cons, List.foldl_cons, List.flatten_cons, ← List.append_assoc]
    exact ih _

/-- The marker and some of the pieces of the ring. -/
theorem segments_take_sentinelAndReplay (msgs : List DaemonMsg) (replay : Bytes) (k : ℕ) :
    DaemonMsg.segments (msgs ++ (DaemonMsg.sentinelAndReplay p replay).take (k + 1)) =
      ((replay.toChunks DaemonMsg.replayChunkSize).take k).flatten :: DaemonMsg.segments msgs := by
  rw [segments_append, DaemonMsg.sentinelAndReplay, List.take_succ_cons, ← List.map_take,
    List.foldl_cons]
  exact foldl_segment_ptyBytes p _ [] _

theorem segments_sentinelAndReplay (msgs : List DaemonMsg) (replay : Bytes) :
    DaemonMsg.segments (msgs ++ DaemonMsg.sentinelAndReplay p replay) =
      replay :: DaemonMsg.segments msgs := by
  rw [segments_append, DaemonMsg.sentinelAndReplay, List.foldl_cons]
  refine (foldl_segment_ptyBytes p _ [] _).trans ?_
  rw [flatten_toChunks]
  rfl

theorem flatten_take_prefix (ds : List Bytes) (k : ℕ) : (ds.take k).flatten <+: ds.flatten := by
  refine ⟨(ds.drop k).flatten, ?_⟩
  rw [← List.flatten_append, List.take_append_drop]

theorem writeMsgs_singleton (m : DaemonMsg) (failed : Option ℕ) (c : PaneStream) :
    c.writeMsgs [m] failed =
      if failed = some 0 then { c with status := .finished } else { c with sent := c.sent ++ [m] } := by
  rcases failed with _ | _ | k <;> simp [writeMsgs]

/-- A step that sends no data. -/
theorem exact_of_same {c' : PaneStream} (h : c.Exact p events)
    (hsegs : DaemonMsg.segments c'.sent = DaemonMsg.segments c.sent) (hcopies : c'.copies = c.copies)
    (hstreaming : c'.status = .streaming → c.status = .streaming ∧
      c'.receiver = c.receiver) (hgone : c'.status = .gone → c.status = .gone) :
    c'.Exact p events := by
  refine ⟨?_, fun hs => ?_, fun hg => ?_⟩
  · rw [hsegs, hcopies]
    exact h.begins
  · obtain ⟨hs', hr⟩ := hstreaming hs
    rw [hr, Current, hsegs, hcopies]
    exact h.current hs'
  · rw [Current, hsegs, hcopies]
    exact h.whole (hgone hg)

theorem Inv.call (hw : Function.Injective w.newV4) (h : Inv w p base s) (op : Op) :
    Inv w p base { s with sm := s.sm.apply w op } := by
  obtain ⟨es, ht⟩ := apply_traffic h.history.old op
  have hlen : s.sm.eventTx.sent.length ≤ (s.sm.apply w op).eventTx.sent.length := by
    rw [ht.sent, List.length_append]
    omega
  refine ⟨h.history.apply hw op, fun hs => ?_, fun copy hc => ?_, fun hg => ?_⟩
  · exact (h.bounds hs).imp_right (·.trans hlen)
  · exact (h.copies copy hc).imp_right (·.trans hlen)
  · simp only [ht.sent, List.drop_append_of_le_length h.history.base_le]
    exact List.mem_append_left _ (h.gone hg)

theorem Inv.exact_call (h : Inv w p base s) (he : s.Exact p) (op : Op) :
    RemotePane.Exact p { s with sm := s.sm.apply w op } := by
  obtain ⟨es, ht⟩ := apply_traffic h.history.old op
  refine ⟨?_, fun hs => ?_, fun hg => ?_⟩
  · refine he.begins.imp fun data copy hprefix => ?_
    simp only [ht.sent]
    rw [List.drop_append, outputOf_append, ← List.append_assoc]
    exact hprefix.trans (List.prefix_append _ _)
  · obtain ⟨data, segs, copy, copies, hsegs, hcopies, hdata⟩ := he.current hs
    refine ⟨data, segs, copy, copies, hsegs, hcopies, ?_⟩
    simp only [ht.sent]
    rw [slice_append_left (h.bounds (by rw [hs]; decide)).2]
    exact hdata
  · obtain ⟨data, segs, copy, copies, hsegs, hcopies, hdata⟩ := he.whole hg
    refine ⟨data, segs, copy, copies, hsegs, hcopies, ?_⟩
    have hsince := (h.copies copy (hcopies ▸ List.mem_cons_self)).2
    rw [slice_length] at hdata ⊢
    simp only [ht.sent]
    rw [List.drop_append_of_le_length hsince, outputOf_append,
      h.history.output_nil_of_closed (h.gone hg) ht, List.append_nil]
    exact hdata

theorem sendSentinelAndReplay_same (copy : RingCopy) (failed : Option ℕ) (c : PaneStream) :
    (c.sendSentinelAndReplay p copy failed).receiver = c.receiver ∧
      ((c.sendSentinelAndReplay p copy failed).status = c.status ∨
        (c.sendSentinelAndReplay p copy failed).status = .finished) ∧
      ∀ copy' ∈ (c.sendSentinelAndReplay p copy failed).copies, copy' = copy ∨ copy' ∈ c.copies := by
  rcases failed with _ | _ | k
  · simp [sendSentinelAndReplay, writeMsgs]
  · simp +contextual [sendSentinelAndReplay]
  · simp only [sendSentinelAndReplay, writeMsgs]
    split_ifs <;> simp

/-- A marker and what is written of its ring begin a new segment. -/
theorem exact_sendSentinelAndReplay {copy : RingCopy}
    (hbegins : List.Forall₂
      (fun data copy => data <+: copy.ring ++ outputOf p (events.drop copy.since))
      (DaemonMsg.segments c.sent) c.copies)
    (hup : c.status = .streaming) (hnext : c.receiver.next ≤ copy.since) (failed : Option ℕ) :
    (c.sendSentinelAndReplay p copy failed).Exact p events := by
  have hall : { c with
        copies := copy :: c.copies
        sent := c.sent ++ DaemonMsg.sentinelAndReplay p copy.ring }.Exact p events := by
    refine ⟨?_, fun _ => ?_, fun hg => (nomatch hup.symm.trans hg)⟩
    · rw [segments_sentinelAndReplay]
      exact .cons (List.prefix_append _ _) hbegins
    · refine ⟨_, _, copy, c.copies, segments_sentinelAndReplay _ _, rfl, ?_⟩
      rw [slice_eq_nil hnext, outputOf_nil, List.append_nil]
  rcases failed with _ | _ | k
  · exact hall
  · exact ⟨hbegins, fun hs => (nomatch hs), fun hg => (nomatch hg)⟩
  · simp only [sendSentinelAndReplay, writeMsgs]
    split_ifs
    · refine ⟨?_, fun hs => (nomatch hs), fun hg => (nomatch hg)⟩
      rw [segments_take_sentinelAndReplay]
      refine .cons (List.IsPrefix.trans ?_ (List.prefix_append _ _)) hbegins
      have htake := flatten_take_prefix (copy.ring.toChunks DaemonMsg.replayChunkSize) k
      rwa [flatten_toChunks] at htake
    · exact hall

theorem Inv.snapshot (h : Inv w p base s) (failed : Option ℕ) :
    Inv w p base { s with stream := s.stream.snapshot p failed s.sm } := by
  have hbase := h.history.base_le
  have hsend : ∀ (c : PaneStream) (copy : RingCopy), c.status = .streaming →
      c.copies = s.stream.copies → copy.since = s.sm.eventTx.sent.length →
      base ≤ c.receiver.next ∧ c.receiver.next ≤ s.sm.eventTx.sent.length →
      Inv w p base { s with stream := c.sendSentinelAndReplay p copy failed } := by
    intro c copy hup hcopies hsince hbounds
    obtain ⟨h1, h2, h3⟩ := sendSentinelAndReplay_same (p := p) copy failed c
    refine ⟨h.history, fun _ => ?_, fun copy' hc => ?_, fun hg => ?_⟩
    · rw [h1]
      exact hbounds
    · rcases h3 copy' hc with rfl | hc
      · rw [hsince]
        exact ⟨hbase, le_rfl⟩
      · exact h.copies copy' (hcopies ▸ hc)
    · rcases h2 with h2 | h2
      · exact nomatch hup.symm.trans (h2.symm.trans hg)
      · exact nomatch h2.symm.trans hg
  unfold PaneStream.snapshot
  dsimp only
  split
  · exact hsend _ _ rfl rfl rfl ⟨hbase, le_rfl⟩
  · rename_i hlag
    exact hsend _ _ rfl rfl rfl (h.bounds (by rw [hlag]; decide))
  · exact h

theorem Inv.exact_snapshot (h : Inv w p base s) (he : s.Exact p) (failed : Option ℕ) :
    RemotePane.Exact p { s with stream := s.stream.snapshot p failed s.sm } := by
  unfold RemotePane.Exact PaneStream.snapshot
  dsimp only
  split
  · refine exact_sendSentinelAndReplay ?_ rfl ?_ failed
    · exact he.begins
    · exact le_rfl
  · rename_i hlag
    refine exact_sendSentinelAndReplay ?_ rfl ?_ failed
    · exact he.begins
    · exact (h.bounds (by rw [hlag]; decide)).2
  · exact he

theorem onEvent_same (p : PaneId) (failed : Option ℕ) (c : PaneStream) (e : SessionEvent) :
    (c.onEvent p failed e).receiver = c.receiver ∧ (c.onEvent p failed e).copies = c.copies ∧
      ((c.onEvent p failed e).status = c.status ∨ (c.onEvent p failed e).status = .finished ∨
        (c.onEvent p failed e).status = .gone ∧ e = .paneClosed p) := by
  cases e with
  | ptyOutput q data =>
    simp only [onEvent, writeMsgs_singleton]
    split_ifs <;> simp
  | paneClosed q =>
    simp only [onEvent, writeMsgs_singleton]
    split_ifs with hq <;> simp [hq]
  | _ => simp [onEvent]

theorem Inv.recv (h : Inv w p base s) (failed : Option ℕ) :
    Inv w p base { s with stream := s.stream.recv p failed s.sm.eventTx } := by
  unfold PaneStream.recv
  split_ifs with hup
  · have hb := h.bounds (by rw [hup]; decide)
    rcases hrecv : s.sm.eventTx.recv s.stream.receiver with ⟨e | n | _, r⟩
    · obtain ⟨he, hr⟩ := Broadcast.recv_item hrecv
      obtain ⟨hlt, -⟩ := List.getElem?_eq_some_iff.mp he
      obtain ⟨h1, h2, h3⟩ := onEvent_same p failed { s.stream with receiver := r } e
      refine ⟨h.history, fun _ => ?_, fun copy hc => ?_, fun hg => ?_⟩
      · rw [h1]
        show base ≤ r.next ∧ r.next ≤ s.sm.eventTx.sent.length
        omega
      · rw [h2] at hc
        exact h.copies copy hc
      · rcases h3 with h3 | h3 | ⟨-, rfl⟩
        · exact nomatch hup.symm.trans (h3.symm.trans hg)
        · exact nomatch h3.symm.trans hg
        · exact mem_drop_of_getElem? he hb.1
    · obtain ⟨h1, h2, -⟩ := Broadcast.recv_lagged hrecv
      exact ⟨h.history, fun _ => ⟨hb.1.trans h1, h2⟩, h.copies, fun hg => (nomatch hg)⟩
    · exact h
  · exact h

/-- What the peer asks for carries no data of the pane. -/
theorem onClient_same (p : PaneId) (failed : Option ℕ) (msg : Option ClientMsg) (c : PaneStream) :
    DaemonMsg.segments (c.onClient p failed msg).sent = DaemonMsg.segments c.sent ∧
      (c.onClient p failed msg).copies = c.copies ∧
      (c.onClient p failed msg).receiver = c.receiver ∧
      ((c.onClient p failed msg).status = c.status ∨
        c.status = .streaming ∧ (c.onClient p failed msg).status = .finished) := by
  unfold onClient
  split_ifs with hup
  · split
    · exact ⟨rfl, rfl, rfl, Or.inr ⟨hup, rfl⟩⟩
    · exact ⟨rfl, rfl, rfl, Or.inr ⟨hup, rfl⟩⟩
    · rw [writeMsgs_singleton]
      split_ifs
      · exact ⟨rfl, rfl, rfl, Or.inr ⟨hup, rfl⟩⟩
      · exact ⟨by simp [segments_append, DaemonMsg.buildScrollbackPage, DaemonMsg.segment], rfl,
          rfl, Or.inl rfl⟩
    all_goals exact ⟨rfl, rfl, rfl, Or.inl rfl⟩
  · exact ⟨rfl, rfl, rfl, Or.inl rfl⟩

theorem Inv.client (h : Inv w p base s) (msg : Option ClientMsg) (failed : Option ℕ) :
    Inv w p base { s with stream := s.stream.onClient p failed msg } := by
  obtain ⟨-, h2, h3, h4⟩ := onClient_same p failed msg s.stream
  refine ⟨h.history, fun hs => ?_, fun copy hc => ?_, fun hg => ?_⟩
  · rw [h3]
    refine h.bounds ?_
    rcases h4 with h4 | ⟨h4, -⟩
    · rwa [h4] at hs
    · rw [h4]
      decide
  · rw [h2] at hc
    exact h.copies copy hc
  · rcases h4 with h4 | ⟨-, h4⟩
    · exact h.gone (h4.symm.trans hg)
    · exact nomatch h4.symm.trans hg

theorem exact_onClient (h : c.Exact p events) (msg : Option ClientMsg) (failed : Option ℕ) :
    (c.onClient p failed msg).Exact p events := by
  obtain ⟨h1, h2, h3, h4⟩ := onClient_same p failed msg c
  refine exact_of_same h h1 h2 (fun hs => ?_) (fun hg => ?_)
  · rcases h4 with h4 | ⟨-, h4⟩
    · exact ⟨h4.symm.trans hs, h3⟩
    · exact nomatch h4.symm.trans hs
  · rcases h4 with h4 | ⟨-, h4⟩
    · exact h4.symm.trans hg
    · exact nomatch h4.symm.trans hg

/-- One event more is received: what was put out since the copy grows by it, if it
was broadcast behind the copy. -/
theorem outputOf_slice_succ {i j : ℕ} {e : SessionEvent} (he : events[j]? = some e) :
    outputOf p (slice events i (j + 1)) =
      outputOf p (slice events i j) ++ if i ≤ j then e.outputOf p else [] := by
  split_ifs with hij
  · rw [slice_succ hij he, outputOf_append, outputOf_singleton]
  · rw [slice_eq_nil (by omega), slice_eq_nil (by omega), outputOf_nil, List.append_nil]

/-- An event that is no output of the pane is received. -/
theorem current_quiet {e : SessionEvent} {n : ℕ} (h : c.Current p events n)
    (he : events[n]? = some e) (hout : e.outputOf p = []) : c.Current p events (n + 1) := by
  obtain ⟨data, segs, copy, copies, hsegs, hcopies, hdata⟩ := h
  refine ⟨data, segs, copy, copies, hsegs, hcopies, ?_⟩
  rw [outputOf_slice_succ he, hout, ite_self, List.append_nil]
  exact hdata

/-- A chunk is written: the segment goes on as it should exactly if the chunk is empty
or was broadcast behind the copy. -/
theorem current_ptyBytes_iff {data : Bytes} {n : ℕ} (h : c.Current p events n)
    (he : events[n]? = some (.ptyOutput p data)) {c' : PaneStream}
    (hsent : c'.sent = c.sent ++ [.ptyBytes p data]) (hcopies' : c'.copies = c.copies) :
    c'.Current p events (n + 1) ↔
      ∀ copy, c.copies.head? = some copy → n < copy.since → data = [] := by
  obtain ⟨d, segs, copy, copies, hsegs, hcopies, hdata⟩ := h
  have hsegs' : DaemonMsg.segments c'.sent = (d ++ data) :: segs := by
    rw [hsent, segments_ptyBytes data hsegs]
  have hiff : c'.Current p events (n + 1) ↔ data = if copy.since ≤ n then data else [] := by
    have hout : SessionEvent.outputOf p (.ptyOutput p data) = data := by simp [SessionEvent.outputOf]
    unfold Current
    rw [hsegs', hcopies', hcopies]
    constructor
    · rintro ⟨_, _, _, _, ⟨⟩, ⟨⟩, heq⟩
      rw [outputOf_slice_succ he, hout, ← List.append_assoc, ← hdata] at heq
      exact List.append_cancel_left heq
    · intro heq
      refine ⟨_, _, _, _, rfl, rfl, ?_⟩
      rw [outputOf_slice_succ he, hout, ← List.append_assoc, ← hdata, ← heq]
  rw [hiff, hcopies]
  simp only [List.head?_cons, Option.some.injEq, forall_eq']
  split_ifs with hle
  · exact iff_of_true rfl fun hlt => absurd hle (by omega)
  · exact ⟨fun heq _ => heq, fun hlt => hlt (by omega)⟩

/-- The chunk goes where the segment ends. -/
theorem begins_of_current {c' : PaneStream} {data : Bytes} {n : ℕ} (h : c.Exact p events)
    (hsent : c'.sent = c.sent ++ [.ptyBytes p data]) (hcopies : c'.copies = c.copies)
    (hcur : c.Current p events n) (hcur' : c'.Current p events (n + 1)) :
    List.Forall₂ (fun data copy => data <+: copy.ring ++ outputOf p (events.drop copy.since))
      (DaemonMsg.segments c'.sent) c'.copies := by
  obtain ⟨d, segs, copy, copies, hsegs, hcopies₁, -⟩ := hcur
  obtain ⟨d', segs', copy', copies', hsegs', hcopies', hdata'⟩ := hcur'
  have hbegins := h.begins
  have heq := segments_ptyBytes (p := p) data hsegs
  rw [hsegs, hcopies₁, List.forall₂_cons] at hbegins
  rw [hsent, heq, List.cons.injEq] at hsegs'
  rw [hcopies, hcopies₁, List.cons.injEq] at hcopies'
  rw [hsent, heq, hcopies, hcopies₁, hsegs'.1, hcopies'.1]
  refine .cons ?_ hbegins.2
  rw [hdata']
  by_cases hle : copy'.since ≤ n + 1
  · rw [drop_eq_slice_append hle, outputOf_append, ← List.append_assoc]
    exact List.prefix_append _ _
  · rw [slice_eq_nil (by omega), outputOf_nil, List.append_nil]
    exact List.prefix_append _ _

theorem output_nil_of_other {e : SessionEvent} (hout : ∀ data, e ≠ .ptyOutput p data) :
    e.outputOf p = [] := by
  cases e with
  | ptyOutput q data => exact if_neg fun hq : q = p => hout data (hq ▸ rfl)
  | _ => rfl

theorem onEvent_other {e : SessionEvent} {failed : Option ℕ}
    (hout : ∀ data, e ≠ .ptyOutput p data) (hclosed : e ≠ .paneClosed p) :
    c.onEvent p failed e = c := by
  cases e with
  | ptyOutput q data => exact if_neg fun hq : q = p => hout data (hq ▸ rfl)
  | paneClosed q => exact if_neg fun hq : q = p => hclosed (hq ▸ rfl)
  | _ => rfl

/-- When the pane's closing is received, all it put out was. -/
theorem current_length {n : ℕ} (h : c.Current p events n)
    (hsilent : outputOf p (events.drop n) = []) : c.Current p events events.length := by
  obtain ⟨data, segs, copy, copies, hsegs, hcopies, hdata⟩ := h
  refine ⟨data, segs, copy, copies, hsegs, hcopies, ?_⟩
  rw [hdata, slice_length]
  congr 1
  by_cases hle : copy.since ≤ n
  · rw [drop_eq_slice_append hle, outputOf_append, hsilent, List.append_nil]
  · rw [drop_eq_slice_append (j := copy.since) (by omega), outputOf_append,
      List.append_eq_nil_iff] at hsilent
    rw [hsilent.2, slice_eq_nil (by omega), outputOf_nil]

theorem exact_onEvent_closed {n : ℕ}
    (hbegins : List.Forall₂
      (fun data copy => data <+: copy.ring ++ outputOf p (events.drop copy.since))
      (DaemonMsg.segments c.sent) c.copies)
    (hcur : c.Current p events n) (hsilent : outputOf p (events.drop n) = [])
    (failed : Option ℕ) : (c.onEvent p failed (.paneClosed p)).Exact p events := by
  have hsegs : DaemonMsg.segments (c.sent ++ [.paneGone p]) = DaemonMsg.segments c.sent := by
    rw [segments_append]
    rfl
  have hwhole := current_length hcur hsilent
  rw [onEvent, if_pos rfl, writeMsgs_singleton]
  split_ifs
  · exact ⟨hbegins, fun hs => (nomatch hs), fun _ => hwhole⟩
  · refine ⟨?_, fun hs => (nomatch hs), fun _ => ?_⟩
    · rw [hsegs]
      exact hbegins
    · unfold Current
      rw [hsegs]
      exact hwhole

/-- An event keeps the stream exact exactly if it is no chunk from before the copy that
gets written. -/
theorem exact_onEvent_iff (h : c.Exact p events) (hup : c.status = .streaming) {e : SessionEvent}
    {r : Receiver} (he : events[c.receiver.next]? = some e) (hr : r.next = c.receiver.next + 1)
    (hsilent : e = .paneClosed p → outputOf p (events.drop c.receiver.next) = [])
    (failed : Option ℕ) :
    ({ c with receiver := r }.onEvent p failed e).Exact p events ↔
      ∀ copy, c.copies.head? = some copy → c.receiver.next < copy.since →
        ∀ data, e = .ptyOutput p data → data = [] ∨ failed = some 0 := by
  have hcur := h.current hup
  by_cases hout : ∃ data, e = .ptyOutput p data
  · obtain ⟨data, rfl⟩ := hout
    simp only [SessionEvent.ptyOutput.injEq, true_and, forall_eq']
    rw [onEvent, if_pos rfl, writeMsgs_singleton]
    split_ifs with hfail
    · refine iff_of_true ⟨h.begins, fun hs => (nomatch hs), fun hg => (nomatch hg)⟩ ?_
      exact fun _ _ _ => Or.inr hfail
    · rw [or_iff_left hfail]
      set c' : PaneStream := { c with receiver := r, sent := c.sent ++ [.ptyBytes p data] }
      have hcurrent := @current_ptyBytes_iff p c events data _ hcur he c' rfl rfl
      refine Iff.trans ⟨fun hexact => ?_, fun hcur' => ?_⟩ hcurrent
      · exact hr ▸ hexact.current hup
      · refine ⟨begins_of_current h rfl rfl hcur hcur', fun _ => ?_,
          fun hg => (nomatch hup.symm.trans hg)⟩
        show c'.Current p events r.next
        rwa [hr]
  · refine iff_of_true ?_ fun copy _ _ data hdata => absurd ⟨data, hdata⟩ hout
    by_cases hclosed : e = .paneClosed p
    · rw [hclosed]
      exact exact_onEvent_closed (c := { c with receiver := r }) h.begins hcur (hsilent hclosed) failed
    · have hother : ∀ data, e ≠ .ptyOutput p data := fun data hdata => hout ⟨data, hdata⟩
      rw [onEvent_other hother hclosed]
      refine ⟨h.begins, fun _ => ?_, fun hg => (nomatch hup.symm.trans hg)⟩
      show c.Current p events r.next
      rw [hr]
      exact current_quiet hcur he (output_nil_of_other hother)

/-- A turn of the loop keeps the stream exact exactly if what it forwards is new. -/
theorem Inv.exact_recv_iff (h : Inv w p base s) (he : s.Exact p) (failed : Option ℕ) :
    RemotePane.Exact p { s with stream := s.stream.recv p failed s.sm.eventTx } ↔
      s.ForwardsNew p (.recv failed) := by
  unfold RemotePane.Exact PaneStream.recv ForwardsNew
  dsimp only
  by_cases hup : s.stream.status = .streaming
  · rw [if_pos hup, imp_iff_right hup]
    rcases hrecv : s.sm.eventTx.recv s.stream.receiver with ⟨e | n | _, r⟩
    · obtain ⟨hevent, hr⟩ := Broadcast.recv_item hrecv
      simp only [Recv.item.injEq]
      refine exact_onEvent_iff he hup hevent hr (fun hclosed => ?_) failed
      exact h.history.silent _ (h.bounds (by rw [hup]; decide)).1 (hclosed ▸ hevent)
    · refine iff_of_true ⟨he.begins, fun hs => (nomatch hs), fun hg => (nomatch hg)⟩ ?_
      intro copy _ _ data hitem
      exact nomatch hitem
    · refine iff_of_true he ?_
      intro copy _ _ data hitem
      exact nomatch hitem
  · rw [if_neg hup]
    exact iff_of_true he fun hs => absurd hs hup

theorem Inv.step (hw : Function.Injective w.newV4) (h : Inv w p base s) (i : Step) :
    Inv w p base (s.step w p i) := by
  cases i with
  | call op => exact h.call hw op
  | snapshot failed => exact h.snapshot failed
  | recv failed => exact h.recv failed
  | client msg failed => exact h.client msg failed

theorem Inv.exact_step_iff (h : Inv w p base s) (he : s.Exact p) (i : Step) :
    (s.step w p i).Exact p ↔ s.ForwardsNew p i := by
  cases i with
  | call op => exact iff_of_true (h.exact_call he op) trivial
  | snapshot failed => exact iff_of_true (h.exact_snapshot he failed) trivial
  | recv failed => exact h.exact_recv_iff he failed
  | client msg failed => exact iff_of_true (exact_onClient he msg failed) trivial

end Steps

/-- The state once a pane was found for a request. -/
def initial (sm : SessionManager) : RemotePane := { sm := sm, stream := .accepted }

theorem mem_of_subscribeTarget {raw : String} {sm : SessionManager} {p : PaneId}
    (h : subscribeTarget raw sm = .ok p) : p ∈ sm.panes := by
  unfold subscribeTarget at h
  split at h
  · simp at h
  · split_ifs at h with hmem
    exact (Except.ok.inj h) ▸ hmem

theorem inv_initial {w : World} (hw : Function.Injective w.newV4) {sm : SessionManager}
    (hsm : SessionState w sm) {p : PaneId} (hp : p ∈ sm.panes) :
    Inv w p sm.eventTx.sent.length (initial sm) where
  history := .initial (hsm.tracked_sound hw).1 hp
  bounds h := absurd rfl h
  copies _ hc := absurd hc List.not_mem_nil
  gone h := nomatch h

theorem exact_initial (p : PaneId) (sm : SessionManager) : (initial sm).Exact p where
  begins := .nil
  current h := nomatch h
  whole h := nomatch h

/-- In every run of a stream, what is sent behind each marker is the copy of the ring
and then what the pane put out since, exactly if no chunk is forwarded that was
broadcast before the last copy of the ring. -/
theorem exact_along_iff (w : World) (hw : Function.Injective w.newV4) (sm : SessionManager)
    (hsm : SessionState w sm) (raw : String) (p : PaneId) (h : subscribeTarget raw sm = .ok p)
    (steps : List Step) :
    Along (step w p) (Exact p) (initial sm) steps ↔
      Meets (step w p) (ForwardsNew p) (initial sm) steps :=
  along_iff_meets (fun _ i h _ _ => h.step hw i) (fun _ i h he => h.exact_step_iff he i)
    (inv_initial hw hsm (mem_of_subscribeTarget h)) (exact_initial p sm)

/-- A stream that sends the ring, a chunk and the closing of the pane. -/
def shortStream : List Step :=
  [.snapshot none, .call (.processPaneBytes (fun _ => none) true ⟨⟨1⟩⟩ [14, 15]), .recv none,
    .call (.closePane ⟨⟨1⟩⟩), .recv none]

theorem replayStart_target :
    subscribeTarget "00000000-0000-0000-0000-000000000001" Fanout.replayStart = .ok ⟨⟨1⟩⟩ := by
  decide

theorem exact_along_shortStream :
    Along (step .counting ⟨⟨1⟩⟩) (Exact ⟨⟨1⟩⟩) (initial Fanout.replayStart) shortStream := by
  refine (exact_along_iff .counting World.counting_injective Fanout.replayStart Fanout.sessionState_replayStart
    "00000000-0000-0000-0000-000000000001" ⟨⟨1⟩⟩ replayStart_target shortStream).mpr ?_
  refine ⟨trivial, trivial, fun _ copy hcopy hlt => ?_, trivial, fun _ copy hcopy hlt => ?_, trivial⟩
  all_goals
    obtain rfl := Option.some.inj hcopy
    exact absurd hlt (by decide)

/-! ### A lag -/

/-- The receiver falls one event further behind than the channel keeps, is told so,
and the stream recovers and goes on. -/
def lagRecovery (p : PaneId) (bytes : Bytes) (n : ℕ) : List Step :=
  (.snapshot none :: List.replicate (n + 1) (.call (.processPaneBytes (fun _ => none) true p bytes))) ++
    [.recv none, .snapshot none, .recv none]

/-- Behind a lag, a chunk the channel still keeps is older than the copy of the ring. -/
theorem not_forwardsNew_of_lag {w : World} {p : PaneId} {s : RemotePane}
    (hup : s.stream.status = .streaming) {n : ℕ} {r : Receiver} {data : Bytes}
    (hlag : s.sm.eventTx.recv s.stream.receiver = (.lagged n, r))
    (hold : s.sm.eventTx.sent[r.next]? = some (.ptyOutput p data))
    (hkept : (s.sm.eventTx.recv r).1 = .item (.ptyOutput p data)) (hd : data ≠ []) :
    ¬((s.step w p (.recv none)).step w p (.snapshot none)).ForwardsNew p (.recv none) := by
  have hrecv : s.step w p (.recv none) =
      { s with stream := { s.stream with receiver := r, status := .lagged } } := by
    simp only [step, PaneStream.recv, if_pos hup, hlag]
  rw [hrecv]
  intro hnew
  obtain ⟨hlt, -⟩ := List.getElem?_eq_some_iff.mp hold
  rcases hnew rfl _ rfl hlt data hkept with h | h
  · exact hd h
  · exact nomatch h

/-- The oldest chunk still kept is forwarded although the new copy has it. -/
theorem not_exact_lagRecovery {w : World} (hw : Function.Injective w.newV4) {sm : SessionManager}
    (hsm : SessionState w sm) {p : PaneId} (hp : p ∈ sm.panes) {bytes : Bytes} (hb : bytes ≠ [])
    (hcap : 0 < sm.eventTx.capacity) :
    ¬Along (step w p) (Exact p) (initial sm) (lagRecovery p bytes sm.eventTx.capacity) := by
  intro halong
  have hmeets := (along_iff_meets (fun _ i h _ _ => h.step hw i)
    (fun _ i h he => h.exact_step_iff he i) (inv_initial hw hsm hp) (exact_initial p sm)).mp halong
  set chunks := List.replicate (sm.eventTx.capacity + 1)
    (Op.processPaneBytes (fun _ => none) true p bytes)
  have htx := foldl_processPaneBytes (fun _ => none) w p bytes (sm.eventTx.capacity + 1) hp
  have hcalls : ∀ s : RemotePane, run (step w p) s (chunks.map .call) =
      { s with sm := chunks.foldl (SessionManager.apply w) s.sm } := fun s =>
    run_map (fun sm => { s with sm := sm }) (fun _ _ => rfl) s.sm chunks
  rw [lagRecovery, ← List.map_replicate, meets_append, run_cons, hcalls] at hmeets
  obtain ⟨-, -, -, hnew, -⟩ := hmeets
  set events := sm.eventTx.sendAll (List.replicate (sm.eventTx.capacity + 1)
    (SessionEvent.ptyOutput p bytes)) with hevents
  have hlen : events.sent.length = sm.eventTx.sent.length + (sm.eventTx.capacity + 1) := by
    simp [hevents]
  have hsize : events.capacity = sm.eventTx.capacity := rfl
  have hold : events.sent[sm.eventTx.sent.length + 1]? = some (.ptyOutput p bytes) := by
    rw [hevents, Broadcast.sendAll_sent, List.getElem?_append_right (by omega),
      List.getElem?_replicate, if_pos (by omega)]
  revert hnew
  refine not_forwardsNew_of_lag (n := 1) (r := ⟨sm.eventTx.sent.length + 1⟩) rfl ?_ ?_ ?_ hb
  · show (chunks.foldl (SessionManager.apply w) sm).eventTx.recv ⟨sm.eventTx.sent.length⟩ = _
    have hbehind : events.capacity < events.sent.length - sm.eventTx.sent.length := by omega
    rw [htx, Broadcast.recv_of_behind hbehind]
    congr 2
    · simp only
      omega
    · omega
  · show (chunks.foldl (SessionManager.apply w) sm).eventTx.sent[_]? = _
    rw [htx]
    exact hold
  · show ((chunks.foldl (SessionManager.apply w) sm).eventTx.recv _).1 = _
    have hkept : events.sent.length - (sm.eventTx.sent.length + 1) ≤ events.capacity := by omega
    rw [htx, Broadcast.recv_of_kept hkept hold]

/-- The ring copied behind a lag, and once more the chunks that the channel kept. -/
theorem not_exact_slowPeer :
    ¬Along (step .counting ⟨⟨1⟩⟩) (Exact ⟨⟨1⟩⟩) (initial Fanout.replayStart)
      (lagRecovery ⟨⟨1⟩⟩ [0] Fanout.replayStart.eventTx.capacity) :=
  not_exact_lagRecovery World.counting_injective Fanout.sessionState_replayStart (by decide) (by decide)
    (by decide)

end RemotePane

end Forgetty
