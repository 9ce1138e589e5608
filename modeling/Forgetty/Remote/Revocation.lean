import Forgetty.Remote.PaneStream
import Forgetty.Sync.Pairing

/-! Paired devices at the daemon: their connections, the streams they open on them, and the
registry that says who may. A connection asks the registry once, before it accepts its first
stream; nothing that is open is told when the device is revoked. -/

namespace Forgetty

open Lib SessionManager

/-! ### Connections and streams -/

/-- `dialled`: not checked yet. -/
inductive ConnectionStage where
  | dialled
  | accepting
  | closed
  deriving DecidableEq, Repr

structure DeviceConnection where
  deviceId : String
  stage : ConnectionStage
  deriving DecidableEq, Repr

/-- `opened`: the first message is still to come. -/
inductive StreamStage where
  | opened
  | subscribed (pane : PaneId) (stream : PaneStream)
  | finished

/-- A stream is handled by a task of its own, which outlives the connection as long as there
are messages left to handle. -/
structure DeviceStream where
  deviceId : String
  stage : StreamStage

/-- What a device gets at: input for a pseudoterminal, or a message to the device. -/
inductive Access where
  | input (pane : PaneId) (data : Bytes)
  | output (msg : DaemonMsg)
  | paneList
  | error (message : String)

/-- A daemon that devices connect to. `revoked` are the devices whose removal was
acknowledged and that were not paired since. -/
structure RemoteDaemon (α : Type) where
  sm : SessionManager
  store : DeviceStore α
  connections : List DeviceConnection
  streams : List DeviceStream
  revoked : List String

namespace RemoteDaemon

variable {α ν : Type} (os : Os ν) (codec : RegistryCodec α) (w : World)

inductive Step where
  /-- Anybody calls the manager; the panes put out what they like. -/
  | call (op : Op)
  | registry (op : RegistryOp)
  | dial (deviceId : String)
  /-- The authorization check of connection `c`. -/
  | check (c : ℕ)
  | disconnect (c : ℕ)
  | openStream (c : ℕ)
  /-- The first message of stream `k`, or none if the peer closed its side. -/
  | first (k : ℕ) (msg : Option ClientMsg)
  | snapshot (k : ℕ) (failed : Option ℕ)
  | recv (k : ℕ) (failed : Option ℕ)
  | client (k : ℕ) (msg : Option ClientMsg) (failed : Option ℕ)

def initial (sm : SessionManager) (store : DeviceStore α) : RemoteDaemon α :=
  { sm := sm, store := store, connections := [], streams := [], revoked := [] }

/-- Pairing and revoking. Only a removal that found the device and saved the file is
acknowledged. -/
def onRegistry (op : RegistryOp) (s : RemoteDaemon α) : RemoteDaemon α :=
  let store := s.store.step os codec op
  match op with
  | .add entry =>
    { s with store := store, revoked := s.revoked.filter (· ≠ entry.deviceId) }
  | .remove deviceId =>
    match (s.store.registry.remove os codec deviceId s.store.disk).2.2 with
    | .ok true => { s with store := store, revoked := deviceId :: s.revoked }
    | _ => { s with store := store }
  | .updateLastSeen .. => { s with store := store }

def setConnection (c : ℕ) (conn : DeviceConnection) (s : RemoteDaemon α) : RemoteDaemon α :=
  { s with connections := s.connections.set c conn }

def setStream (k : ℕ) (stream : DeviceStream) (s : RemoteDaemon α) : RemoteDaemon α :=
  { s with streams := s.streams.set k stream }

def check (c : ℕ) (s : RemoteDaemon α) : RemoteDaemon α :=
  match s.connections[c]? with
  | some ⟨deviceId, .dialled⟩ =>
    let stage := if s.store.registry.isAuthorized deviceId then .accepting else .closed
    s.setConnection c ⟨deviceId, stage⟩
  | _ => s

def disconnect (c : ℕ) (s : RemoteDaemon α) : RemoteDaemon α :=
  match s.connections[c]? with
  | some ⟨deviceId, _⟩ => s.setConnection c ⟨deviceId, .closed⟩
  | none => s

def openStream (c : ℕ) (s : RemoteDaemon α) : RemoteDaemon α :=
  match s.connections[c]? with
  | some ⟨deviceId, .accepting⟩ => { s with streams := s.streams ++ [⟨deviceId, .opened⟩] }
  | _ => s

/-- The stage after the first message, and what is sent for it. -/
def firstMessage (sm : SessionManager) : Option ClientMsg → StreamStage × List Access
  | some .listPanes => (.finished, [.paneList])
  | some (.subscribe raw) =>
    match subscribeTarget raw sm with
    | .error message => (.finished, [.error message])
    | .ok p => (.subscribed p .accepted, [])
  | some _ => (.finished, [.error "expected Subscribe or ListPanes as first message"])
  | none => (.finished, [])

def first (k : ℕ) (msg : Option ClientMsg) (s : RemoteDaemon α) :
    RemoteDaemon α × List (String × Access) :=
  match s.streams[k]? with
  | some ⟨deviceId, .opened⟩ =>
    let r := firstMessage s.sm msg
    (s.setStream k ⟨deviceId, r.1⟩, r.2.map (deviceId, ·))
  | _ => (s, [])

/-- What a message from the device writes to a pseudoterminal. -/
def written (sm : SessionManager) (p : PaneId) (stream : PaneStream) :
    Option ClientMsg → List Access
  | some (.sendInput raw data) =>
    let target := ((Uuid.parseStr raw).map PaneId.mk).getD p
    if stream.status = .streaming ∧ target ∈ sm.panes then [.input target data] else []
  | _ => []

/-- One turn of the loop of a stream. What it sends is what comes to the messages sent. -/
def onStream (k : ℕ) (turn : PaneId → PaneStream → PaneStream) (msg : Option ClientMsg)
    (s : RemoteDaemon α) : RemoteDaemon α × List (String × Access) :=
  match s.streams[k]? with
  | some ⟨deviceId, .subscribed p stream⟩ =>
    let next := turn p stream
    let sent := (next.sent.drop stream.sent.length).map Access.output
    (s.setStream k ⟨deviceId, .subscribed p next⟩,
      (written s.sm p stream msg ++ sent).map (deviceId, ·))
  | _ => (s, [])

/-- A step, and the accesses in it with the device they are for. -/
def exec (s : RemoteDaemon α) : Step → RemoteDaemon α × List (String × Access)
  | .call op => ({ s with sm := s.sm.apply w op }, [])
  | .registry op => (s.onRegistry os codec op, [])
  | .dial deviceId => ({ s with connections := s.connections ++ [⟨deviceId, .dialled⟩] }, [])
  | .check c => (s.check c, [])
  | .disconnect c => (s.disconnect c, [])
  | .openStream c => (s.openStream c, [])
  | .first k msg => s.first k msg
  | .snapshot k failed => s.onStream k (fun p stream => stream.snapshot p failed s.sm) none
  | .recv k failed => s.onStream k (fun p stream => stream.recv p failed s.sm.eventTx) none
  | .client k msg failed => s.onStream k (fun p stream => stream.onClient p failed msg) msg

def step (s : RemoteDaemon α) (i : Step) : RemoteDaemon α := (s.exec os codec w i).1

/-! ### What revoking is for -/

/-- No access in the step is a revoked device's. -/
def NoAccess (s : RemoteDaemon α) (i : Step) : Prop :=
  ∀ a ∈ (s.exec os codec w i).2, a.1 ∉ s.revoked

/-- The stream is still handled. -/
def StreamStage.Running : StreamStage → Prop
  | .opened => True
  | .subscribed _ stream => stream.status ≠ .gone ∧ stream.status ≠ .finished
  | .finished => False

/-- Nothing of the device is open: no connection that passed the check and no stream. -/
structure Disconnected (s : RemoteDaemon α) (deviceId : String) : Prop where
  connections : ∀ c ∈ s.connections, c.deviceId = deviceId → c.stage ≠ .accepting
  streams : ∀ t ∈ s.streams, t.deviceId = deviceId → ¬StreamStage.Running t.stage

/-- A device that is revoked has nothing open. -/
def Guard (s : RemoteDaemon α) : Step → Prop
  | .registry (.remove deviceId) =>
    (s.store.registry.remove os codec deviceId s.store.disk).2.2 = .ok true →
      s.Disconnected deviceId
  | _ => True

/-- Revoked devices are not let in, and have nothing open. -/
structure CutOff (s : RemoteDaemon α) : Prop where
  unknown : ∀ id ∈ s.revoked, s.store.registry.isAuthorized id = false
  disconnected : ∀ id ∈ s.revoked, s.Disconnected id

section Steps

variable {os codec w} {s : RemoteDaemon α}

/-! A stream that is not handled any more does nothing. -/

theorem snapshot_of_not_running {stream : PaneStream} (p : PaneId) (failed : Option ℕ)
    (sm : SessionManager) (h : stream.status = .gone ∨ stream.status = .finished) :
    stream.snapshot p failed sm = stream := by
  rcases h with h | h <;> simp [PaneStream.snapshot, h]

theorem recv_of_not_running {stream : PaneStream} (p : PaneId) (failed : Option ℕ)
    (events : Broadcast SessionEvent) (h : stream.status = .gone ∨ stream.status = .finished) :
    stream.recv p failed events = stream := by
  rcases h with h | h <;> simp [PaneStream.recv, h]

theorem onClient_of_not_running {stream : PaneStream} (p : PaneId) (failed : Option ℕ)
    (msg : Option ClientMsg) (h : stream.status = .gone ∨ stream.status = .finished) :
    stream.onClient p failed msg = stream := by
  rcases h with h | h <;> simp [PaneStream.onClient, h]

theorem written_of_not_running {stream : PaneStream} (sm : SessionManager) (p : PaneId)
    (msg : Option ClientMsg) (h : stream.status = .gone ∨ stream.status = .finished) :
    written sm p stream msg = [] := by
  have hne : stream.status ≠ .streaming := by rcases h with h | h <;> simp [h]
  unfold written
  split <;> simp [hne]

theorem not_running_subscribed {p : PaneId} {stream : PaneStream} :
    ¬StreamStage.Running (.subscribed p stream) ↔
      stream.status = .gone ∨ stream.status = .finished := by
  simp only [StreamStage.Running]
  tauto

/-! What the steps keep. -/

theorem CutOff.setStream (h : CutOff s) {k : ℕ} {id : String} {stage stage' : StreamStage}
    (hk : s.streams[k]? = some ⟨id, stage⟩)
    (hrun : id ∈ s.revoked → ¬StreamStage.Running stage → ¬StreamStage.Running stage') :
    CutOff (s.setStream k ⟨id, stage'⟩) where
  unknown := h.unknown
  disconnected id' hid := by
    have hid' := h.disconnected id' hid
    refine ⟨hid'.connections, fun t ht heq => ?_⟩
    rcases List.mem_or_eq_of_mem_set ht with ht | rfl
    · exact hid'.streams t ht heq
    · obtain rfl : id = id' := heq
      exact hrun hid (hid'.streams _ (List.mem_of_getElem? hk) rfl)

theorem CutOff.setConnection (h : CutOff s) (c : ℕ) {id : String} {stage : ConnectionStage}
    (hstage : stage = .accepting → id ∉ s.revoked) :
    CutOff (s.setConnection c ⟨id, stage⟩) where
  unknown := h.unknown
  disconnected id' hid := by
    have hid' := h.disconnected id' hid
    refine ⟨fun conn hconn heq => ?_, hid'.streams⟩
    rcases List.mem_or_eq_of_mem_set hconn with hconn | rfl
    · exact hid'.connections conn hconn heq
    · obtain rfl : id = id' := heq
      exact fun hacc => hstage hacc hid

theorem CutOff.check (h : CutOff s) (c : ℕ) : CutOff (s.check c) := by
  unfold RemoteDaemon.check
  split
  · rename_i id _
    refine h.setConnection c fun hstage hid => ?_
    simp [h.unknown id hid] at hstage
  · exact h

theorem CutOff.disconnect (h : CutOff s) (c : ℕ) : CutOff (s.disconnect c) := by
  unfold RemoteDaemon.disconnect
  split
  · exact h.setConnection c (by simp)
  · exact h

/-- A stream is opened on a connection that accepts, which no revoked device has. -/
theorem CutOff.openStream (h : CutOff s) (c : ℕ) : CutOff (s.openStream c) := by
  unfold RemoteDaemon.openStream
  split
  · rename_i id hc
    refine ⟨h.unknown, fun id' hid => ⟨(h.disconnected id' hid).connections, fun t ht heq => ?_⟩⟩
    rcases List.mem_append.mp ht with ht | ht
    · exact (h.disconnected id' hid).streams t ht heq
    · obtain rfl := List.mem_singleton.mp ht
      obtain rfl : id = id' := heq
      exact absurd rfl ((h.disconnected id hid).connections _ (List.mem_of_getElem? hc) rfl)
  · exact h

theorem CutOff.dial (h : CutOff s) (id : String) :
    CutOff { s with connections := s.connections ++ [⟨id, .dialled⟩] } where
  unknown := h.unknown
  disconnected id' hid := by
    refine ⟨fun conn hconn heq => ?_, (h.disconnected id' hid).streams⟩
    rcases List.mem_append.mp hconn with hconn | hconn
    · exact (h.disconnected id' hid).connections conn hconn heq
    · obtain rfl := List.mem_singleton.mp hconn
      simp

theorem CutOff.onRegistry (h : CutOff s) (op : RegistryOp)
    (hg : s.Guard os codec (.registry op)) : CutOff (s.onRegistry os codec op) := by
  have hmemory := @DeviceStore.step_registry _ _ os codec s.store op
  cases op with
  | add entry =>
    refine ⟨fun id hid => ?_, fun id hid => ?_⟩
    · obtain ⟨hid, hne⟩ := List.mem_filter.mp hid
      have hids := SharedRegistry.isAuthorized_eq_false.mp (h.unknown id hid)
      refine SharedRegistry.isAuthorized_eq_false.mpr ?_
      show id ∉ SharedRegistry.deviceIds (s.store.step os codec (.add entry)).registry.devices
      rw [hmemory]
      simp only [DeviceStore.memoryAfter, SharedRegistry.deviceIds_push]
      simp_all
    · have hid' := h.disconnected id (List.mem_filter.mp hid).1
      exact ⟨hid'.connections, hid'.streams⟩
  | updateLastSeen id' now =>
    refine ⟨fun id hid => ?_, fun id hid => ⟨(h.disconnected id hid).connections,
      (h.disconnected id hid).streams⟩⟩
    have hids := SharedRegistry.isAuthorized_eq_false.mp (h.unknown id hid)
    refine SharedRegistry.isAuthorized_eq_false.mpr ?_
    show id ∉ SharedRegistry.deviceIds (s.store.step os codec (.updateLastSeen id' now)).registry.devices
    rw [hmemory]
    simpa [DeviceStore.memoryAfter] using hids
  | remove id' =>
    have hunknown : ∀ id, id = id' ∨ id ∈ s.revoked →
        (s.store.step os codec (.remove id')).registry.isAuthorized id = false := by
      intro id hid
      rw [hmemory, SharedRegistry.isAuthorized_eq_false]
      simp only [DeviceStore.memoryAfter, SharedRegistry.deviceIds, DeviceRegistry.retainOthers]
      rcases hid with rfl | hid
      · simp
      · intro hmem
        refine SharedRegistry.isAuthorized_eq_false.mp (h.unknown id hid) ?_
        exact (SharedRegistry.deviceIds_retainOthers_sublist id' s.store.registry).subset hmem
    simp only [RemoteDaemon.onRegistry]
    split
    · rename_i hok
      refine ⟨fun id hid => hunknown id (List.mem_cons.mp hid), fun id hid => ?_⟩
      rcases List.mem_cons.mp hid with rfl | hid
      · exact ⟨(hg hok).connections, (hg hok).streams⟩
      · exact ⟨(h.disconnected id hid).connections, (h.disconnected id hid).streams⟩
    · exact ⟨fun id hid => hunknown id (Or.inr hid), fun id hid =>
        ⟨(h.disconnected id hid).connections, (h.disconnected id hid).streams⟩⟩

theorem CutOff.first (h : CutOff s) (k : ℕ) (msg : Option ClientMsg) :
    CutOff (s.first k msg).1 ∧ ∀ a ∈ (s.first k msg).2, a.1 ∉ s.revoked := by
  unfold RemoteDaemon.first
  split
  · rename_i id hk
    have hid : id ∉ s.revoked := fun hid =>
      (h.disconnected id hid).streams _ (List.mem_of_getElem? hk) rfl trivial
    refine ⟨h.setStream hk fun hid' => absurd hid' hid, fun a ha => ?_⟩
    obtain ⟨_, _, rfl⟩ := List.mem_map.mp ha
    exact hid
  · exact ⟨h, by simp⟩

/-- A turn of a loop that does nothing when the stream is not handled any more. -/
theorem CutOff.onStream (h : CutOff s) (k : ℕ) {turn : PaneId → PaneStream → PaneStream}
    (hturn : ∀ p stream, stream.status = .gone ∨ stream.status = .finished →
      turn p stream = stream) (msg : Option ClientMsg) :
    CutOff (s.onStream k turn msg).1 ∧ ∀ a ∈ (s.onStream k turn msg).2, a.1 ∉ s.revoked := by
  unfold RemoteDaemon.onStream
  split
  · rename_i id p stream hk
    refine ⟨h.setStream hk fun _ hrun => ?_, fun a ha hid => ?_⟩
    · rwa [hturn p stream (not_running_subscribed.mp hrun)]
    · obtain ⟨access, haccess, rfl⟩ := List.mem_map.mp ha
      have hrun := not_running_subscribed.mp
        ((h.disconnected id hid).streams _ (List.mem_of_getElem? hk) rfl)
      rw [hturn p stream hrun, written_of_not_running s.sm p msg hrun] at haccess
      simp at haccess
  · exact ⟨h, by simp⟩

/-- One step. -/
theorem CutOff.step (h : CutOff s) (i : Step) (hg : s.Guard os codec i) :
    CutOff (s.step os codec w i) ∧ s.NoAccess os codec w i := by
  cases i with
  | call op => exact ⟨⟨h.unknown, fun id hid => ⟨(h.disconnected id hid).connections,
      (h.disconnected id hid).streams⟩⟩, by simp [NoAccess, exec]⟩
  | registry op => exact ⟨h.onRegistry op hg, by simp [NoAccess, exec]⟩
  | dial id => exact ⟨h.dial id, by simp [NoAccess, exec]⟩
  | check c => exact ⟨h.check c, by simp [NoAccess, exec]⟩
  | disconnect c => exact ⟨h.disconnect c, by simp [NoAccess, exec]⟩
  | openStream c => exact ⟨h.openStream c, by simp [NoAccess, exec]⟩
  | first k msg => exact h.first k msg
  | snapshot k failed =>
    exact h.onStream k (fun p _ hs => snapshot_of_not_running p failed s.sm hs) none
  | recv k failed =>
    exact h.onStream k (fun p _ hs => recv_of_not_running p failed s.sm.eventTx hs) none
  | client k msg failed =>
    exact h.onStream k (fun p _ hs => onClient_of_not_running p failed msg hs) msg

/-- A device that is revoked and has something open gets at something. -/
theorem exists_access {id : String} (hid : id ∈ s.revoked) (h : ¬s.Disconnected id) :
    ∃ later, Meets (step os codec w) (Guard os codec) s later ∧
      ¬Meets (step os codec w) (NoAccess os codec w) s later := by
  by_cases hstreams : ∀ t ∈ s.streams, t.deviceId = id → ¬StreamStage.Running t.stage
  · have hconn : ¬∀ c ∈ s.connections, c.deviceId = id → c.stage ≠ .accepting :=
      fun hc => h ⟨hc, hstreams⟩
    push Not at hconn
    obtain ⟨⟨id', stage⟩, hmem, rfl, rfl⟩ := hconn
    obtain ⟨c, hc⟩ := List.mem_iff_getElem?.mp hmem
    refine ⟨[.openStream c, .first s.streams.length (some .listPanes)],
      ⟨trivial, trivial, trivial⟩, fun hno => ?_⟩
    refine hno.2.1 (id', .paneList) ?_ ?_
    · simp [step, exec, openStream, hc, first, firstMessage]
    · simpa [step, exec, openStream, hc] using hid
  · push Not at hstreams
    obtain ⟨⟨id', stage⟩, hmem, rfl, hrun⟩ := hstreams
    obtain ⟨k, hk⟩ := List.mem_iff_getElem?.mp hmem
    cases stage with
    | finished => exact absurd hrun id
    | opened =>
      refine ⟨[.first k (some .listPanes)], ⟨trivial, trivial⟩, fun hno => ?_⟩
      exact hno.1 (id', .paneList) (by simp [exec, first, hk, firstMessage]) hid
    | subscribed p stream =>
      have houtput : ∀ i turn msg, exec os codec w s i = s.onStream k turn msg →
          (∃ out, out ∈ (turn p stream).sent.drop stream.sent.length) →
          ¬s.NoAccess os codec w i := by
        rintro i turn msg hexec ⟨out, hout⟩ hno
        refine hno (id', .output out) ?_ hid
        rw [hexec, onStream, hk]
        exact List.mem_map.mpr
          ⟨.output out, List.mem_append_right _ (List.mem_map.mpr ⟨out, hout, rfl⟩), rfl⟩
      cases hstatus : stream.status with
      | gone => exact absurd hstatus hrun.1
      | finished => exact absurd hstatus hrun.2
      | streaming =>
        refine ⟨[.client k (some (.requestScrollback "" 0 0)) none], ⟨trivial, trivial⟩,
          fun hno => houtput _ _ _ rfl ?_ hno.1⟩
        simp [PaneStream.onClient, hstatus, PaneStream.writeMsgs]
      | accepted =>
        refine ⟨[.snapshot k none], ⟨trivial, trivial⟩, fun hno => houtput _ _ _ rfl ?_ hno.1⟩
        simp [PaneStream.snapshot, hstatus, PaneStream.sendSentinelAndReplay, PaneStream.writeMsgs,
          DaemonMsg.sentinelAndReplay]
      | lagged =>
        refine ⟨[.snapshot k none], ⟨trivial, trivial⟩, fun hno => houtput _ _ _ rfl ?_ hno.1⟩
        simp [PaneStream.snapshot, hstatus, PaneStream.sendSentinelAndReplay, PaneStream.writeMsgs,
          DaemonMsg.sentinelAndReplay]

/-- What can come later is no access of a revoked device exactly if none is let in or has
anything open. -/
theorem noAccess_of_cutOff (h : CutOff s) (later : List Step)
    (hg : Meets (step os codec w) (Guard os codec) s later) :
    Meets (step os codec w) (NoAccess os codec w) s later :=
  meets_of_invariant (I := CutOff) (fun _ i ht hi => (ht.step i hi).1)
    (fun _ i ht hi => (ht.step i hi).2) h hg

end Steps

theorem cutOff_initial (sm : SessionManager) (store : DeviceStore α) : CutOff (initial sm store) :=
  ⟨fun _ h => absurd h List.not_mem_nil, fun _ h => absurd h List.not_mem_nil⟩

/-- Where every device that is revoked has nothing open, revoked devices get at nothing. And
of one removal that is acknowledged: nothing that can come later is an access of a revoked
device exactly if the device has nothing open. -/
theorem revoke_ends_access (sm : SessionManager) (store : DeviceStore α) (steps : List Step) :
    (Meets (step os codec w) (Guard os codec) (initial sm store) steps →
      Meets (step os codec w) (NoAccess os codec w) (initial sm store) steps) ∧
    ∀ (s : RemoteDaemon α) (id : String), CutOff s →
      (s.store.registry.remove os codec id s.store.disk).2.2 = .ok true →
      ((∀ later, Meets (step os codec w) (Guard os codec) (s.onRegistry os codec (.remove id)) later →
          Meets (step os codec w) (NoAccess os codec w) (s.onRegistry os codec (.remove id)) later) ↔
        s.Disconnected id) := by
  refine ⟨noAccess_of_cutOff (cutOff_initial sm store) steps, fun s id hs hok => ⟨fun hlater => ?_,
    fun hid later => noAccess_of_cutOff (hs.onRegistry (.remove id) fun _ => hid) later⟩⟩
  have hrevoked : id ∈ (s.onRegistry os codec (.remove id)).revoked := by
    simp [onRegistry, hok]
  have hopen : (s.onRegistry os codec (.remove id)).Disconnected id → s.Disconnected id := by
    simp only [onRegistry, hok]
    exact fun h => ⟨h.connections, h.streams⟩
  by_contra hnot
  obtain ⟨later, hg, hno⟩ := @exists_access _ _ os codec w _ id hrevoked fun h => hnot (hopen h)
  exact hno (hlater later hg)

end RemoteDaemon

/-! ### A device that stays connected -/

def Os.sound : Os Unit where
  answer _ := .works
  names _ := []

/-- A paired phone subscribes to a pane, is revoked, and types. -/
def typesOn : List RemoteDaemon.Step :=
  [.dial "phone", .check 0, .openStream 0,
    .first 0 (some (.subscribe "00000000-0000-0000-0000-000000000001")), .snapshot 0 none,
    .registry (.remove "phone"), .client 0 (some (.sendInput "" [1])) none]

theorem not_noAccess_typesOn :
    ¬Meets (RemoteDaemon.step Os.sound .whole .counting)
      (RemoteDaemon.NoAccess Os.sound .whole .counting)
      (RemoteDaemon.initial Fanout.replayStart onePhone) typesOn := by
  rintro ⟨-, -, -, -, -, -, hno, -⟩
  refine hno ("phone", .input ⟨⟨1⟩⟩ [1]) ?_ ?_
  · exact List.Mem.head _
  · exact List.Mem.head _

end Forgetty
