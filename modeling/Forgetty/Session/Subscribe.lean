import Forgetty.Session.Operations

/-! Handing a pane's output to a subscriber: a copy of the ring and a receiver
taken under one lock, then the events received. Chunks are logged and broadcast
under the same lock, so the copy and what is received after it join without a
gap and without an overlap, whatever is processed and polled in between. -/

namespace Forgetty

open Lib SessionManager

/-! ### One chunk -/

namespace SessionManager

/-- A chunk of a live pane is appended to its log and broadcast. -/
theorem processPaneBytes_of_live (procCwd : ℕ → Option PathBuf) (alive : Bool) {p : PaneId}
    (bytes : Bytes) {s : SessionManager} (h : p ∈ s.panes) :
    (s.processPaneBytes procCwd alive p bytes).1.eventTx = s.eventTx.send (.ptyOutput p bytes) ∧
      (∀ q, (s.processPaneBytes procCwd alive p bytes).1.byteLogs.get q =
        (s.byteLogs.get q).map fun log => if q = p then log.append bytes else log) ∧
      (s.processPaneBytes procCwd alive p bytes).2 = .ok { ptyExited := !alive } := by
  obtain ⟨pane, hp⟩ := PMap.exists_get h
  simp only [processPaneBytes, hp]
  split
  · rename_i hlog
    refine ⟨rfl, fun q => ?_, trivial⟩
    by_cases hq : q = p
    · subst hq
      rw [show s.byteLogs.get q = none from hlog, Option.map_none]
      exact hlog
    · simp only [if_neg hq, Option.map_id']
      rfl
  · rename_i log hlog
    refine ⟨rfl, fun q => ?_, trivial⟩
    by_cases hq : q = p
    · subst hq
      rw [show s.byteLogs.get q = some log from hlog]
      simp [send]
    · simp only [if_neg hq, Option.map_id']
      simp [send, setPane, hq]

/-- A chunk of a pane that is gone changes nothing. -/
theorem processPaneBytes_of_gone {procCwd : ℕ → Option PathBuf} {alive : Bool} {p : PaneId}
    {bytes : Bytes} {s : SessionManager} (h : p ∉ s.panes) :
    s.processPaneBytes procCwd alive p bytes = (s, .error (.pty s!"pane {p} not found")) := by
  simp only [processPaneBytes, PMap.get_eq_none h]

end SessionManager

/-! ### Subscribers -/

/-- A subscriber: what it was given and what it received since. `streamThen` is the
output of the pane up to the subscription. -/
structure Subscription where
  pane : PaneId
  receiver : Receiver
  snapshot : Bytes
  received : List SessionEvent
  lagged : Bool
  streamThen : Bytes

/-- What a subscriber does with one answer of its receiver. -/
def Subscription.poll (events : Broadcast SessionEvent) (sub : Subscription) : Subscription :=
  match events.recv sub.receiver with
  | (.item e, r) => { sub with receiver := r, received := sub.received ++ [e] }
  | (.lagged _, r) => { sub with receiver := r, lagged := true }
  | (.empty, _) => sub

/-- The manager with its subscribers. `stream` is what each pane put out so far: the
bytes preloaded into its log, then every chunk processed. -/
structure Fanout where
  sm : SessionManager
  stream : PaneId → Bytes
  subs : List Subscription

namespace Fanout

inductive Step where
  | process (procCwd : ℕ → Option PathBuf) (alive : Bool) (p : PaneId) (bytes : Bytes)
  | subscribe (p : PaneId)
  | recv (k : ℕ)

def process (procCwd : ℕ → Option PathBuf) (alive : Bool) (p : PaneId) (bytes : Bytes)
    (f : Fanout) : Fanout :=
  match f.sm.processPaneBytes procCwd alive p bytes with
  | (sm, .ok _) => { f with sm := sm, stream := Function.update f.stream p (f.stream p ++ bytes) }
  | (sm, .error _) => { f with sm := sm }

def subscribe (p : PaneId) (f : Fanout) : Fanout :=
  let r := f.sm.subscribeWithSnapshot p
  let sub : Subscription :=
    { pane := p
      receiver := r.1
      snapshot := r.2.1
      received := []
      lagged := false
      streamThen := f.stream p }
  { f with subs := f.subs ++ [sub] }

def recv (k : ℕ) (f : Fanout) : Fanout :=
  { f with subs := f.subs.modify k (Subscription.poll f.sm.eventTx) }

def step (f : Fanout) : Step → Fanout
  | .process procCwd alive p bytes => f.process procCwd alive p bytes
  | .subscribe p => f.subscribe p
  | .recv k => f.recv k

/-- The events a subscriber has not polled yet. -/
def pending (f : Fanout) (sub : Subscription) : List SessionEvent :=
  f.sm.eventTx.sent.drop sub.receiver.next

/-- What a subscriber was given, received and still gets is the stream of its pane. -/
structure Contiguous (f : Fanout) (sub : Subscription) : Prop where
  behind : sub.receiver.next ≤ f.sm.eventTx.sent.length
  joined : f.stream sub.pane =
    sub.streamThen ++ outputOf sub.pane sub.received ++ outputOf sub.pane (f.pending sub)

/-- The invariant of runs from `start`: the logs hold the streams, snapshots were
exact, and subscribers that never lagged are contiguous. -/
structure Inv (start : SessionManager) (f : Fanout) : Prop where
  logs : ∀ p log, f.sm.byteLogs.get p = some log → log.Holds (f.stream p)
  capacity : ∀ p, (f.sm.byteLogs.get p).map (·.ring.capacity) =
    (start.byteLogs.get p).map (·.ring.capacity)
  snapshots : ∀ sub ∈ f.subs, ∀ log, start.byteLogs.get sub.pane = some log →
    sub.snapshot = sub.streamThen.rtake log.ring.capacity
  subs : ∀ sub ∈ f.subs, sub.lagged = false → f.Contiguous sub

section Steps

variable {start : SessionManager} {f : Fanout}

/-- One more chunk of any pane is pending for every subscriber, and its bytes are
in the stream of its own pane only. -/
theorem Contiguous.process {sub : Subscription} (h : f.Contiguous sub) {sm : SessionManager}
    {p : PaneId} {bytes : Bytes} (hsm : sm.eventTx = f.sm.eventTx.send (.ptyOutput p bytes)) :
    Contiguous { f with sm := sm, stream := Function.update f.stream p (f.stream p ++ bytes) }
      sub where
  behind := by
    have := h.behind
    simp only [hsm, Broadcast.send_sent, List.length_append]
    omega
  joined := by
    have hj := h.joined
    simp only [pending, hsm, Broadcast.send_sent, List.drop_append_of_le_length h.behind,
      outputOf_append, outputOf_singleton, SessionEvent.outputOf] at hj ⊢
    by_cases hp : p = sub.pane
    · subst hp
      rw [Function.update_self, if_pos rfl, hj]
      simp only [List.append_assoc]
    · rw [Function.update_of_ne (Ne.symm hp), if_neg hp, List.append_nil, hj]

theorem Inv.process (h : Inv start f) (procCwd : ℕ → Option PathBuf) (alive : Bool) (p : PaneId)
    (bytes : Bytes) : Inv start (f.process procCwd alive p bytes) := by
  unfold Fanout.process
  by_cases hp : p ∈ f.sm.panes
  · obtain ⟨htx, hlogs, hok⟩ := processPaneBytes_of_live procCwd alive bytes hp
    split
    · rename_i sm r heq
      rw [heq] at htx hlogs
      refine ⟨fun q log hq => ?_, fun q => ?_, h.snapshots, fun sub hs hl =>
        (h.subs sub hs hl).process htx⟩
      · rw [hlogs] at hq
        obtain ⟨log', hlog', rfl⟩ := Option.map_eq_some_iff.mp hq
        have hholds := h.logs q log' hlog'
        by_cases hqp : q = p
        · subst hqp
          simpa using hholds.append bytes
        · simpa [hqp] using hholds
      · rw [hlogs, ← h.capacity]
        cases f.sm.byteLogs.get q with
        | none => rfl
        | some log =>
          by_cases hqp : q = p <;> simp [hqp, ByteLog.append_ring]
    · rename_i sm e heq
      rw [heq] at hok
      simp at hok
  · rw [processPaneBytes_of_gone hp]
    exact h

theorem Inv.subscribe (h : Inv start f) (p : PaneId) : Inv start (f.subscribe p) := by
  refine ⟨h.logs, h.capacity, fun sub hs log hlog => ?_, fun sub hs hl => ?_⟩
  · rcases List.mem_append.mp hs with hs | hs
    · exact h.snapshots sub hs log hlog
    · obtain rfl := List.mem_singleton.mp hs
      have hcap := h.capacity p
      rw [hlog, Option.map_some] at hcap
      obtain ⟨log', hlog', hcap⟩ := Option.map_eq_some_iff.mp hcap
      simp only [subscribeWithSnapshot, getRingSnapshot, hlog', Option.map_some,
        Option.getD_some, ByteLog.ringSnapshot, ← hcap]
      exact h.logs p log' hlog'
  · rcases List.mem_append.mp hs with hs | hs
    · exact ⟨(h.subs sub hs hl).behind, (h.subs sub hs hl).joined⟩
    · obtain rfl := List.mem_singleton.mp hs
      exact ⟨le_rfl, by simp [Fanout.subscribe, pending, subscribeWithSnapshot]⟩

/-- A poll moves one event from the pending ones to the received ones. -/
theorem Contiguous.poll {sub : Subscription} (h : f.Contiguous sub)
    (hl : (sub.poll f.sm.eventTx).lagged = false) : f.Contiguous (sub.poll f.sm.eventTx) := by
  unfold Subscription.poll at hl ⊢
  split
  · rename_i e r heq
    obtain ⟨he, hr⟩ := Broadcast.recv_item heq
    obtain ⟨hlt, rfl⟩ := List.getElem?_eq_some_iff.mp he
    refine ⟨by simp only [hr]; omega, ?_⟩
    have hj := h.joined
    rw [pending, List.drop_eq_getElem_cons hlt, ← List.singleton_append, outputOf_append] at hj
    simp only [pending, hr, outputOf_append, List.append_assoc] at hj ⊢
    exact hj
  · rename_i n r heq
    simp [heq] at hl
  · exact h

theorem lagged_of_poll {events : Broadcast SessionEvent} {sub : Subscription}
    (h : (sub.poll events).lagged = false) : sub.lagged = false := by
  unfold Subscription.poll at h
  split at h
  · exact h
  · simp at h
  · exact h

theorem poll_pane (events : Broadcast SessionEvent) (sub : Subscription) :
    (sub.poll events).pane = sub.pane ∧ (sub.poll events).snapshot = sub.snapshot ∧
      (sub.poll events).streamThen = sub.streamThen := by
  unfold Subscription.poll
  split <;> exact ⟨rfl, rfl, rfl⟩

theorem Inv.recv (h : Inv start f) (k : ℕ) : Inv start (f.recv k) := by
  have hmem : ∀ sub ∈ (f.recv k).subs, sub ∈ f.subs ∨ ∃ sub' ∈ f.subs,
      sub = sub'.poll f.sm.eventTx := by
    intro sub hs
    obtain ⟨i, hi, rfl⟩ := List.getElem_of_mem hs
    simp only [Fanout.recv, List.length_modify] at hi
    simp only [Fanout.recv, List.getElem_modify]
    split_ifs
    · exact Or.inr ⟨_, List.getElem_mem hi, rfl⟩
    · exact Or.inl (List.getElem_mem hi)
  refine ⟨h.logs, h.capacity, fun sub hs log hlog => ?_, fun sub hs hl => ?_⟩
  · rcases hmem sub hs with hs | ⟨sub', hs', rfl⟩
    · exact h.snapshots sub hs log hlog
    · obtain ⟨hp, hsnap, hthen⟩ := poll_pane f.sm.eventTx sub'
      rw [hsnap, hthen]
      exact h.snapshots sub' hs' log (hp ▸ hlog)
  · rcases hmem sub hs with hs | ⟨sub', hs', rfl⟩
    · exact ⟨(h.subs sub hs hl).behind, (h.subs sub hs hl).joined⟩
    · have := (h.subs sub' hs' (lagged_of_poll hl)).poll hl
      exact ⟨this.behind, this.joined⟩

end Steps

/-- The manager at the start, without subscribers yet. -/
def initial (sm : SessionManager) (preloaded : PaneId → Bytes) : Fanout :=
  { sm := sm, stream := preloaded, subs := [] }

theorem inv_run {sm : SessionManager} {preloaded : PaneId → Bytes}
    (h : ∀ p log, sm.byteLogs.get p = some log → log.Holds (preloaded p)) (steps : List Step) :
    Inv sm (run step (initial sm preloaded) steps) := by
  have h0 : Inv sm (initial sm preloaded) := ⟨h, fun _ => rfl, by simp [initial], by simp [initial]⟩
  refine Along.last (along_of_step h0 fun f i hf => ?_)
  cases i with
  | process procCwd alive p bytes => exact hf.process procCwd alive p bytes
  | subscribe p => exact hf.subscribe p
  | recv k => exact hf.recv k

/-- In every interleaving of processing, subscribing and polling, a subscriber of a
pane with a byte log that did not lag was given exactly the end of the pane's
stream that fits the ring, and that copy, the bytes received since and those still
pending are the end of the stream now. -/
theorem snapshot_received_suffix (sm : SessionManager) (preloaded : PaneId → Bytes)
    (hlogs : ∀ p log, sm.byteLogs.get p = some log → log.Holds (preloaded p))
    (steps : List Step) (sub : Subscription)
    (hsub : sub ∈ (run step (initial sm preloaded) steps).subs) (hlag : sub.lagged = false)
    (log : ByteLog) (hlog : sm.byteLogs.get sub.pane = some log) :
    let f := run step (initial sm preloaded) steps
    sub.snapshot = sub.streamThen.rtake log.ring.capacity ∧
      f.stream sub.pane = sub.streamThen ++ outputOf sub.pane sub.received ++
        outputOf sub.pane (f.pending sub) ∧
      sub.snapshot ++ outputOf sub.pane sub.received ++ outputOf sub.pane (f.pending sub) <:+
        f.stream sub.pane := by
  have hinv := inv_run hlogs steps
  have hsnap := hinv.snapshots sub hsub log hlog
  have hjoined := (hinv.subs sub hsub hlag).joined
  refine ⟨hsnap, hjoined, ?_⟩
  rw [hjoined, hsnap]
  obtain ⟨front, hfront⟩ := rtake_suffix sub.streamThen log.ring.capacity
  exact ⟨front, by simp only [← List.append_assoc, hfront]⟩

/-- A pane whose log file an earlier daemon left with three bytes. -/
def replayStart : SessionManager :=
  ((new .counting (PMap.empty.insert ⟨1⟩ [10, 11, 12])).createPane .counting .default none none
    none true).1

def replayPreloaded : PaneId → Bytes := fun p => if p = ⟨⟨1⟩⟩ then [10, 11, 12] else []

/-- One chunk before the subscription, two after it, the first of them polled. -/
def replaySteps : List Step :=
  [.process (fun _ => none) true ⟨⟨1⟩⟩ [13], .subscribe ⟨⟨1⟩⟩,
    .process (fun _ => none) true ⟨⟨1⟩⟩ [14, 15], .recv 0,
    .process (fun _ => none) true ⟨⟨1⟩⟩ [16]]

theorem snapshot_received_replay :
    let f := run step (initial replayStart replayPreloaded) replaySteps
    ∃ sub ∈ f.subs, sub.snapshot = [10, 11, 12, 13] ∧
      outputOf sub.pane sub.received = [14, 15] ∧
      sub.snapshot ++ outputOf sub.pane sub.received ++ outputOf sub.pane (f.pending sub) <:+
        f.stream sub.pane := by
  intro f
  have hlogs : ∀ p log, replayStart.byteLogs.get p = some log → log.Holds (replayPreloaded p) := by
    intro p log h
    rw [show replayStart.byteLogs = PMap.empty.insert ⟨⟨1⟩⟩
      (ByteLog.new [10, 11, 12] (1024 * 1024) (10 * (1024 * 1024))) from rfl, PMap.get_insert] at h
    split_ifs at h with hp
    · rw [Option.some.injEq] at h
      rw [← h, replayPreloaded, if_pos hp]
      exact ByteLog.holds_new _ _ _
    · simp at h
  have hne : f.subs ≠ [] := by decide
  refine ⟨f.subs.head hne, List.head_mem hne, rfl, rfl, ?_⟩
  exact (snapshot_received_suffix replayStart replayPreloaded hlogs replaySteps (f.subs.head hne)
    (List.head_mem hne) rfl _ rfl).2.2

end Fanout

end Forgetty
