import Forgetty.Daemon.Restored
import Forgetty.Session.Traffic

/-! One connection that subscribed to the output of a pane: the copy of the ring,
then the loop that forwards what the broadcast channel delivers. The loop goes on
behind what the channel dropped, so that bytes of the pane among the dropped events
are missing in the stream, and a dropped closing leaves it open for ever. -/

namespace Forgetty

open Lib SessionManager

theorem Fanout.sessionState_replayStart : SessionState .counting Fanout.replayStart :=
  .of_new _ _ [.createPane .default none none none true]

/-! ### The connection -/

inductive ConnStatus where
  | streaming
  | ended
  | broken
  deriving DecidableEq, Repr

/-- A connection behind its acknowledgment: the position in the events it started
at, the ring it replayed, and the data bytes sent. -/
structure OutputConn where
  receiver : Receiver
  start : ℕ
  replay : Bytes
  sent : Bytes
  status : ConnStatus

namespace OutputConn

/-- Write one frame. A write that fails after some bytes ends the connection. -/
def writeFrame (data : Bytes) (failed : Option ℕ) (c : OutputConn) : OutputConn :=
  match failed with
  | none => { c with sent := c.sent ++ data }
  | some k => { c with sent := c.sent ++ data.take k, status := .broken }

/-- The connection before the replay: the receiver and the ring come from one lock. -/
def subscribe (p : PaneId) (sm : SessionManager) : OutputConn :=
  let r := sm.subscribeWithSnapshot p
  { receiver := r.1, start := r.1.next, replay := r.2.1, sent := [], status := .streaming }

/-- One event of the channel. -/
def onEvent (p : PaneId) (failed : Option ℕ) (c : OutputConn) : SessionEvent → OutputConn
  | .ptyOutput paneId data =>
    if paneId ≠ p then c
    else if data = [] then c
    else c.writeFrame data failed
  | .paneClosed paneId => if paneId = p then { c with status := .ended } else c
  | _ => c

/-- One turn of the loop in which the receiver is ready. -/
def recv (p : PaneId) (failed : Option ℕ) (events : Broadcast SessionEvent) (c : OutputConn) :
    OutputConn :=
  if c.status = .streaming then
    match events.recv c.receiver with
    | (.item e, r) => { c with receiver := r }.onEvent p failed e
    | (.lagged _, r) => { c with receiver := r }
    | (.empty, _) => c
  else c

end OutputConn

/-- The manager and a connection for one pane, once there is one. -/
structure OutputStream where
  sm : SessionManager
  conn : Option OutputConn

namespace OutputStream

/-- Anything may call the manager, and the client may hang up. -/
inductive Step where
  | call (op : Op)
  | subscribe (failed : Option ℕ)
  | recv (failed : Option ℕ)
  | hangUp

def subscribe (p : PaneId) (failed : Option ℕ) (s : OutputStream) : OutputStream :=
  if p ∈ s.sm.panes ∧ s.conn.isNone then
    let conn := OutputConn.subscribe p s.sm
    { s with conn := some (conn.writeFrame conn.replay failed) }
  else s

def step (w : World) (p : PaneId) (s : OutputStream) : Step → OutputStream
  | .call op => { s with sm := s.sm.apply w op }
  | .subscribe failed => s.subscribe p failed
  | .recv failed => { s with conn := s.conn.map (·.recv p failed s.sm.eventTx) }
  | .hangUp =>
    { s with conn := s.conn.map fun c =>
        if c.status = .streaming then { c with status := .broken } else c }

end OutputStream

/-! ### What the stream is for -/

/-- What was sent begins with the replayed ring. While the connection is up it is all
that was received so far, it is up for no longer than the closing of the pane is
received, and when it ended with that closing it is all the pane put out. -/
structure OutputConn.Aligned (p : PaneId) (events : List SessionEvent) (c : OutputConn) : Prop where
  begins : c.sent <+: c.replay ++ outputOf p (events.drop c.start)
  forwarded : c.status = .streaming →
    c.sent = c.replay ++ outputOf p (slice events c.start c.receiver.next)
  closed : .paneClosed p ∈ slice events c.start c.receiver.next → c.status ≠ .streaming
  whole : c.status = .ended → c.sent = c.replay ++ outputOf p (events.drop c.start)

/-- The same, as a contiguous segment of the stream of the pane, which held
`preloaded` when `base` events had been sent. -/
structure OutputConn.Faithful (p : PaneId) (preloaded : Bytes) (base : ℕ)
    (events : List SessionEvent) (c : OutputConn) : Prop extends c.Aligned p events where
  contiguous : ∃ before after, preloaded ++ outputOf p (events.drop base) = before ++ c.sent ++ after

namespace OutputStream

def Faithful (p : PaneId) (preloaded : Bytes) (base : ℕ) (s : OutputStream) : Prop :=
  ∀ c, s.conn = some c → c.Faithful p preloaded base s.sm.eventTx.sent

/-- What holds in every run from a state in which the log of the pane held the
stream: it still does, and the ring replayed was the end of the stream. -/
structure Inv (w : World) (p : PaneId) (preloaded : Bytes) (base : ℕ) (s : OutputStream) : Prop where
  history : PaneHistory w p base s.sm
  log : ∀ log, s.sm.byteLogs.get p = some log →
    log.Holds (preloaded ++ outputOf p (s.sm.eventTx.sent.drop base))
  bounds : ∀ c, s.conn = some c →
    base ≤ c.start ∧ c.start ≤ c.receiver.next ∧ c.receiver.next ≤ s.sm.eventTx.sent.length
  replay : ∀ c, s.conn = some c →
    c.replay <:+ preloaded ++ outputOf p (slice s.sm.eventTx.sent base c.start)
  ended : ∀ c, s.conn = some c → c.status = .ended → .paneClosed p ∈ s.sm.eventTx.sent.drop base

section Steps

variable {w : World} {p : PaneId} {preloaded : Bytes} {base : ℕ} {s : OutputStream}
  {c : OutputConn}

theorem onEvent_other {failed : Option ℕ} {e : SessionEvent}
    (he : e.outputOf p = [] ∧ e ≠ .paneClosed p) (c : OutputConn) : c.onEvent p failed e = c := by
  obtain ⟨hout, hc⟩ := he
  cases e with
  | ptyOutput q data =>
    simp only [SessionEvent.outputOf] at hout
    simp only [OutputConn.onEvent]
    split_ifs at hout ⊢ <;> simp_all
  | paneClosed q =>
    rw [OutputConn.onEvent, if_neg]
    rintro rfl
    exact hc rfl
  | _ => rfl

theorem onEvent_output {failed : Option ℕ} {data : Bytes} (hd : data ≠ []) (c : OutputConn) :
    c.onEvent p failed (.ptyOutput p data) = c.writeFrame data failed := by
  simp [OutputConn.onEvent, hd]

theorem onEvent_closed {failed : Option ℕ} (c : OutputConn) :
    c.onEvent p failed (.paneClosed p) = { c with status := .ended } := by
  simp [OutputConn.onEvent]

/-- What begins with the replayed ring is a segment of the stream. -/
theorem Inv.contiguous (h : Inv w p preloaded base s) (hc : s.conn = some c)
    (hb : c.sent <+: c.replay ++ outputOf p (s.sm.eventTx.sent.drop c.start)) :
    ∃ before after, preloaded ++ outputOf p (s.sm.eventTx.sent.drop base) =
      before ++ c.sent ++ after := by
  obtain ⟨before, hbefore⟩ := h.replay c hc
  obtain ⟨after, hafter⟩ := hb
  refine ⟨before, after, ?_⟩
  rw [drop_eq_slice_append (h.bounds c hc).1, outputOf_append, ← List.append_assoc, ← hbefore,
    List.append_assoc, List.append_assoc, hafter]

theorem Inv.call (hw : Function.Injective w.newV4) (h : Inv w p preloaded base s) (op : Op) :
    Inv w p preloaded base { s with sm := s.sm.apply w op } := by
  obtain ⟨es, ht⟩ := apply_traffic h.history.old op
  have hdrop : (s.sm.apply w op).eventTx.sent.drop base = s.sm.eventTx.sent.drop base ++ es := by
    rw [ht.sent, List.drop_append_of_le_length h.history.base_le]
  refine ⟨h.history.apply hw op, ?_, ?_, ?_, ?_⟩
  · simp only [hdrop, outputOf_append, ← List.append_assoc]
    exact ht.log _ h.log
  · intro c hc
    have := h.bounds c hc
    simp only [ht.sent, List.length_append]
    omega
  · intro c hc
    have := h.bounds c hc
    simp only [ht.sent]
    rw [slice_append_left (by omega)]
    exact h.replay c hc
  · intro c hc he
    simp only [hdrop]
    exact List.mem_append_left _ (h.ended c hc he)

/-- What one turn of the loop does: go on behind what was dropped, pass over an event,
forward a chunk, end with the closing of the pane, or wait. -/
theorem recv_cases (p : PaneId) (failed : Option ℕ) (events : Broadcast SessionEvent)
    {c : OutputConn} (hc : c.status = .streaming) :
    (∃ r, c.recv p failed events = { c with receiver := r } ∧ c.receiver.next ≤ r.next ∧
      r.next ≤ events.sent.length ∧
      slice events.sent c.receiver.next r.next = events.lost c.receiver) ∨
    events.lost c.receiver = [] ∧
      (c.recv p failed events = c ∨
      ∃ e r, events.sent[c.receiver.next]? = some e ∧ r.next = c.receiver.next + 1 ∧
        c.recv p failed events = { c with receiver := r }.onEvent p failed e) := by
  unfold OutputConn.recv
  rw [if_pos hc]
  have hlost := @Broadcast.lost_eq_nil _ events c.receiver
  rcases hrecv : events.recv c.receiver with ⟨e | n | _, r⟩
  · rw [hrecv] at hlost
    obtain ⟨he, hr⟩ := Broadcast.recv_item hrecv
    exact Or.inr ⟨hlost (by simp), Or.inr ⟨e, r, he, hr, rfl⟩⟩
  · obtain ⟨h1, h2, h3⟩ := Broadcast.recv_lagged hrecv
    exact Or.inl ⟨r, rfl, h1, h2, h3⟩
  · rw [hrecv] at hlost
    exact Or.inr ⟨hlost (by simp), Or.inl rfl⟩

theorem writeFrame_same (data : Bytes) (failed : Option ℕ) (c : OutputConn) :
    (c.writeFrame data failed).receiver = c.receiver ∧ (c.writeFrame data failed).start = c.start ∧
      (c.writeFrame data failed).replay = c.replay ∧
      ((c.writeFrame data failed).status = .ended → c.status = .ended) := by
  cases failed <;> simp [OutputConn.writeFrame]

theorem onEvent_same (p : PaneId) (failed : Option ℕ) (c : OutputConn) (e : SessionEvent) :
    (c.onEvent p failed e).receiver = c.receiver ∧ (c.onEvent p failed e).start = c.start ∧
      (c.onEvent p failed e).replay = c.replay ∧
      ((c.onEvent p failed e).status = .ended → c.status = .ended ∨ e = .paneClosed p) := by
  rcases event_cases p e with he | ⟨data, hd, rfl⟩ | rfl
  · rw [onEvent_other he]
    exact ⟨rfl, rfl, rfl, Or.inl⟩
  · rw [onEvent_output hd]
    obtain ⟨h1, h2, h3, h4⟩ := writeFrame_same data failed c
    exact ⟨h1, h2, h3, fun h => Or.inl (h4 h)⟩
  · rw [onEvent_closed]
    exact ⟨rfl, rfl, rfl, fun _ => Or.inr rfl⟩

/-- The replayed ring is the end of the stream. -/
theorem Inv.replay_subscribe (h : Inv w p preloaded base s) :
    (OutputConn.subscribe p s.sm).replay <:+
      preloaded ++ outputOf p (s.sm.eventTx.sent.drop base) := by
  simp only [OutputConn.subscribe, subscribeWithSnapshot, getRingSnapshot]
  cases hlog : s.sm.byteLogs.get p with
  | none => exact List.nil_suffix
  | some log =>
    have hholds : log.ring.items = _ := h.log log hlog
    simp only [Option.map_some, Option.getD_some, ByteLog.ringSnapshot, hholds]
    exact rtake_suffix _ _

theorem Inv.subscribe (h : Inv w p preloaded base s) (failed : Option ℕ) :
    Inv w p preloaded base (s.subscribe p failed) := by
  unfold OutputStream.subscribe
  split_ifs with hsub
  · obtain ⟨h1, h2, h3, h4⟩ := writeFrame_same (OutputConn.subscribe p s.sm).replay failed
      (OutputConn.subscribe p s.sm)
    refine ⟨h.history, h.log, ?_, ?_, ?_⟩
    · rintro _ ⟨⟩
      rw [h1, h2]
      exact ⟨h.history.base_le, le_rfl, le_rfl⟩
    · rintro _ ⟨⟩
      have hslice : slice s.sm.eventTx.sent base (OutputConn.subscribe p s.sm).start =
          s.sm.eventTx.sent.drop base := by
        simp [slice, OutputConn.subscribe, subscribeWithSnapshot]
      rw [h2, h3, hslice]
      exact h.replay_subscribe
    · rintro _ ⟨⟩ he
      cases h4 he
  · exact h

theorem Inv.recv (h : Inv w p preloaded base s) (failed : Option ℕ) :
    Inv w p preloaded base { s with conn := s.conn.map (·.recv p failed s.sm.eventTx) } := by
  have hspec : ∀ c', (s.conn.map (·.recv p failed s.sm.eventTx)) = some c' →
      ∃ c, s.conn = some c ∧ c'.start = c.start ∧ c'.replay = c.replay ∧
        c.receiver.next ≤ c'.receiver.next ∧ c'.receiver.next ≤ s.sm.eventTx.sent.length ∧
        (c'.status = .ended → .paneClosed p ∈ s.sm.eventTx.sent.drop base) := by
    intro c' hc'
    obtain ⟨c, hc, rfl⟩ := Option.map_eq_some_iff.mp hc'
    obtain ⟨h1, h2, h3⟩ := h.bounds c hc
    refine ⟨c, hc, ?_⟩
    by_cases hstatus : c.status = .streaming
    · rcases recv_cases p failed s.sm.eventTx hstatus with ⟨r, heq, hle, hlen, -⟩ | ⟨-, heq | ⟨e, r, he, hr, heq⟩⟩
      · rw [heq]
        exact ⟨rfl, rfl, hle, hlen, h.ended c hc⟩
      · rw [heq]
        exact ⟨rfl, rfl, le_rfl, h3, h.ended c hc⟩
      · obtain ⟨hlt, -⟩ := List.getElem?_eq_some_iff.mp he
        obtain ⟨s1, s2, s3, s4⟩ := onEvent_same p failed { c with receiver := r } e
        rw [heq, s1, s2, s3]
        refine ⟨rfl, rfl, ?_, ?_, fun hend => ?_⟩
        · show c.receiver.next ≤ r.next
          omega
        · show r.next ≤ _
          omega
        · rcases s4 hend with hend | rfl
          · exact h.ended c hc hend
          · exact mem_drop_of_getElem? he (by omega)
    · rw [OutputConn.recv, if_neg hstatus]
      exact ⟨rfl, rfl, le_rfl, h3, h.ended c hc⟩
  refine ⟨h.history, h.log, ?_, ?_, ?_⟩
  · intro c' hc'
    obtain ⟨c, hc, h1, -, h3, h4, -⟩ := hspec c' hc'
    have := h.bounds c hc
    rw [h1]
    exact ⟨this.1, by omega, h4⟩
  · intro c' hc'
    obtain ⟨c, hc, h1, h2, -⟩ := hspec c' hc'
    rw [h1, h2]
    exact h.replay c hc
  · intro c' hc'
    exact (hspec c' hc').choose_spec.2.2.2.2.2

theorem Inv.hangUp (h : Inv w p preloaded base s) :
    Inv w p preloaded base (s.step w p .hangUp) := by
  have hspec : ∀ c', (s.step w p .hangUp).conn = some c' → ∃ c, s.conn = some c ∧
      c'.receiver = c.receiver ∧ c'.start = c.start ∧ c'.replay = c.replay ∧
      (c'.status = .ended → c.status = .ended) := by
    intro c' hc'
    obtain ⟨c, hc, rfl⟩ := Option.map_eq_some_iff.mp hc'
    refine ⟨c, hc, ?_⟩
    split_ifs
    · exact ⟨rfl, rfl, rfl, fun he => (nomatch he)⟩
    · exact ⟨rfl, rfl, rfl, id⟩
  refine ⟨h.history, h.log, ?_, ?_, ?_⟩
  · intro c' hc'
    obtain ⟨c, hc, h1, h2, -⟩ := hspec c' hc'
    rw [h1, h2]
    exact h.bounds c hc
  · intro c' hc'
    obtain ⟨c, hc, -, h2, h3, -⟩ := hspec c' hc'
    rw [h2, h3]
    exact h.replay c hc
  · intro c' hc' he
    obtain ⟨c, hc, -, -, -, h4⟩ := hspec c' hc'
    exact h.ended c hc (h4 he)

theorem Inv.step (hw : Function.Injective w.newV4) (h : Inv w p preloaded base s) (i : Step) :
    Inv w p preloaded base (s.step w p i) := by
  cases i with
  | call op => exact h.call hw op
  | subscribe failed => exact h.subscribe failed
  | recv failed => exact h.recv failed
  | hangUp => exact h.hangUp

end Steps

/-- The manager before anybody subscribed. -/
def initial (sm : SessionManager) : OutputStream := { sm := sm, conn := none }

theorem inv_initial {w : World} (hw : Function.Injective w.newV4) {sm : SessionManager}
    (hsm : SessionState w sm) {p : PaneId} (hp : p ∈ sm.panes) {preloaded : Bytes}
    (hlog : ∀ log, sm.byteLogs.get p = some log → log.Holds preloaded) :
    Inv w p preloaded sm.eventTx.sent.length (initial sm) := by
  refine ⟨.initial (hsm.tracked_sound hw).1 hp, ?_, ?_, ?_, ?_⟩
  · simpa [initial] using hlog
  all_goals simp [initial]

/-- A connection that is subscribed to at once, gets a chunk and sees the pane closed. -/
def shortStream : List Step :=
  [.subscribe none, .call (.processPaneBytes (fun _ => none) true ⟨⟨1⟩⟩ [14, 15]), .recv none,
    .call (.closePane ⟨⟨1⟩⟩), .recv none]

/-- One chunk of output. -/
def chunk (p : PaneId) (bytes : Bytes) : Step :=
  .call (.processPaneBytes (fun _ => none) true p bytes)

end OutputStream

end Forgetty
