import Forgetty.Session.Layout
import Forgetty.Session.ByteLog
import Forgetty.Lib.Visit

/-! The session manager: the registry of live panes, the order they were created
in, the layout, the byte logs and the event channel, with every operation that
changes them. An operation takes the state and gives the new state with its
result; one that returns an error may have changed the state before. What the
surroundings answer is read off the `World` at the counters kept here. -/

namespace Forgetty

open Lib

structure PaneState where
  id : PaneId
  ptyBridge : PtyBridge
  cwd : PathBuf
  title : String
  rows : UInt16
  cols : UInt16
  deriving DecidableEq, Repr

structure PaneInfo where
  id : PaneId
  pid : Option ℕ
  rows : UInt16
  cols : UInt16
  cwd : PathBuf
  title : String
  deriving DecidableEq, Repr

structure DuplicatedTab where
  tabId : Uuid
  paneId : PaneId
  deriving DecidableEq, Repr

structure DrainResult where
  ptyExited : Bool
  deriving DecidableEq, Repr

/-- The record of a pane whose child was just spawned. -/
def PaneState.spawned (id : PaneId) (ptyBridge : PtyBridge) (cwd : PathBuf) (size : PtySize) :
    PaneState where
  id := id
  ptyBridge := ptyBridge
  cwd := cwd
  title := ""
  rows := size.rows
  cols := size.cols

/-- A tab with one pane and no focus pointer. -/
def SessionTab.ofLeaf (id : Uuid) (paneId : PaneId) : SessionTab where
  id := id
  title := ""
  paneTree := .leaf paneId
  activePaneId := none

def broadcastCapacity : ℕ := 1024

/-- The state behind the lock. The last five fields are what the process took
from its surroundings so far and what it left there. -/
structure SessionManager where
  panes : PMap PaneId PaneState
  paneOrder : List PaneId
  eventTx : Broadcast SessionEvent
  layout : SessionLayout
  pinned : Bool
  byteLogs : PMap PaneId ByteLog
  byteLogRingKb : UInt32
  byteLogMaxMb : UInt32
  minted : ℕ
  spawned : ℕ
  opened : ℕ
  killed : List PtyProcess
  /-- The logs directory, by the UUID in the file name. -/
  logFiles : PMap Uuid Bytes

namespace SessionManager

/-- A new manager in a process that finds `logFiles` on disk. -/
def new (w : World) (logFiles : PMap Uuid Bytes) : SessionManager where
  panes := .empty
  paneOrder := []
  eventTx := .channel broadcastCapacity
  layout := .newDefault (w.newV4 0)
  pinned := false
  byteLogs := .empty
  byteLogRingKb := 1024
  byteLogMaxMb := 10
  minted := 1
  spawned := 0
  opened := 0
  killed := []
  logFiles := logFiles

/-! ### Single changes -/

section Changes

variable (sm : SessionManager)

def send (e : SessionEvent) : SessionManager := { sm with eventTx := sm.eventTx.send e }

def sendAll (es : List SessionEvent) : SessionManager :=
  { sm with eventTx := sm.eventTx.sendAll es }

/-- One more UUID was taken. -/
def mint : SessionManager := { sm with minted := sm.minted + 1 }

/-- One more spawn was tried. -/
def countSpawn : SessionManager := { sm with spawned := sm.spawned + 1 }

def registerPane (pane : PaneState) : SessionManager :=
  { sm with
    panes := sm.panes.insert pane.id pane
    paneOrder := sm.paneOrder ++ [pane.id] }

/-- Drop a pane from the registry with its byte log, and kill its child. -/
def unregister (pid : PaneId) : SessionManager :=
  { sm with
    panes := sm.panes.erase pid
    paneOrder := sm.paneOrder.filter (· ≠ pid)
    byteLogs := sm.byteLogs.erase pid
    killed := sm.killed ++ ((sm.panes.get pid).map (·.ptyBridge.pty)).toList }

def setPane (id : PaneId) (pane : PaneState) : SessionManager :=
  { sm with panes := sm.panes.insert id pane }

def setWorkspaces (workspaces : List SessionWorkspace) : SessionManager :=
  { sm with layout := { sm.layout with workspaces := workspaces } }

def setActive (workspaceIdx : ℕ) : SessionManager :=
  { sm with layout := { sm.layout with activeWorkspace := workspaceIdx } }

def modifyWorkspace (workspaceIdx : ℕ) (f : SessionWorkspace → SessionWorkspace) :
    SessionManager :=
  sm.setWorkspaces (sm.layout.workspaces.modify workspaceIdx f)

def pushTab (workspaceIdx : ℕ) (tab : SessionTab) : SessionManager :=
  sm.modifyWorkspace workspaceIdx fun ws => { ws with tabs := ws.tabs ++ [tab] }

end Changes

section Fields

variable (sm : SessionManager) (e : SessionEvent) (es : List SessionEvent) (pane : PaneState)
  (pid : PaneId) (wss : List SessionWorkspace) (i : ℕ) (f : SessionWorkspace → SessionWorkspace)
  (tab : SessionTab)

@[simp] theorem send_panes : (sm.send e).panes = sm.panes := rfl
@[simp] theorem send_paneOrder : (sm.send e).paneOrder = sm.paneOrder := rfl
@[simp] theorem send_layout : (sm.send e).layout = sm.layout := rfl
@[simp] theorem send_minted : (sm.send e).minted = sm.minted := rfl

@[simp] theorem sendAll_panes : (sm.sendAll es).panes = sm.panes := rfl
@[simp] theorem sendAll_paneOrder : (sm.sendAll es).paneOrder = sm.paneOrder := rfl
@[simp] theorem sendAll_layout : (sm.sendAll es).layout = sm.layout := rfl
@[simp] theorem sendAll_minted : (sm.sendAll es).minted = sm.minted := rfl

@[simp] theorem mint_panes : (sm.mint).panes = sm.panes := rfl
@[simp] theorem mint_paneOrder : (sm.mint).paneOrder = sm.paneOrder := rfl
@[simp] theorem mint_layout : (sm.mint).layout = sm.layout := rfl

@[simp] theorem countSpawn_panes : (sm.countSpawn).panes = sm.panes := rfl
@[simp] theorem countSpawn_paneOrder : (sm.countSpawn).paneOrder = sm.paneOrder := rfl
@[simp] theorem countSpawn_layout : (sm.countSpawn).layout = sm.layout := rfl
@[simp] theorem countSpawn_minted : (sm.countSpawn).minted = sm.minted := rfl

@[simp] theorem registerPane_layout : (sm.registerPane pane).layout = sm.layout := rfl
@[simp] theorem registerPane_minted : (sm.registerPane pane).minted = sm.minted := rfl

@[simp] theorem unregister_layout : (sm.unregister pid).layout = sm.layout := rfl
@[simp] theorem unregister_minted : (sm.unregister pid).minted = sm.minted := rfl

@[simp] theorem setPane_paneOrder : (sm.setPane pid pane).paneOrder = sm.paneOrder := rfl
@[simp] theorem setPane_layout : (sm.setPane pid pane).layout = sm.layout := rfl
@[simp] theorem setPane_minted : (sm.setPane pid pane).minted = sm.minted := rfl

@[simp] theorem setWorkspaces_panes : (sm.setWorkspaces wss).panes = sm.panes := rfl
@[simp] theorem setWorkspaces_paneOrder : (sm.setWorkspaces wss).paneOrder = sm.paneOrder := rfl
@[simp] theorem setWorkspaces_minted : (sm.setWorkspaces wss).minted = sm.minted := rfl

@[simp] theorem setActive_panes : (sm.setActive i).panes = sm.panes := rfl
@[simp] theorem setActive_paneOrder : (sm.setActive i).paneOrder = sm.paneOrder := rfl
@[simp] theorem setActive_minted : (sm.setActive i).minted = sm.minted := rfl

@[simp] theorem modifyWorkspace_panes : (sm.modifyWorkspace i f).panes = sm.panes := rfl
@[simp] theorem modifyWorkspace_paneOrder : (sm.modifyWorkspace i f).paneOrder = sm.paneOrder := rfl
@[simp] theorem modifyWorkspace_minted : (sm.modifyWorkspace i f).minted = sm.minted := rfl

@[simp] theorem pushTab_panes : (sm.pushTab i tab).panes = sm.panes := rfl
@[simp] theorem pushTab_paneOrder : (sm.pushTab i tab).paneOrder = sm.paneOrder := rfl
@[simp] theorem pushTab_minted : (sm.pushTab i tab).minted = sm.minted := rfl

@[simp] theorem mint_minted : sm.mint.minted = sm.minted + 1 := rfl

@[simp] theorem registerPane_panes :
    (sm.registerPane pane).panes = sm.panes.insert pane.id pane := rfl

@[simp] theorem registerPane_paneOrder :
    (sm.registerPane pane).paneOrder = sm.paneOrder ++ [pane.id] := rfl

@[simp] theorem unregister_panes : (sm.unregister pid).panes = sm.panes.erase pid := rfl

@[simp] theorem unregister_paneOrder :
    (sm.unregister pid).paneOrder = sm.paneOrder.filter (· ≠ pid) := rfl

@[simp] theorem setPane_panes : (sm.setPane pid pane).panes = sm.panes.insert pid pane := rfl

@[simp] theorem setWorkspaces_workspaces : (sm.setWorkspaces wss).layout.workspaces = wss := rfl

@[simp] theorem setWorkspaces_activeWorkspace :
    (sm.setWorkspaces wss).layout.activeWorkspace = sm.layout.activeWorkspace := rfl

@[simp] theorem setActive_workspaces :
    (sm.setActive i).layout.workspaces = sm.layout.workspaces := rfl

@[simp] theorem setActive_activeWorkspace : (sm.setActive i).layout.activeWorkspace = i := rfl

@[simp] theorem modifyWorkspace_workspaces :
    (sm.modifyWorkspace i f).layout.workspaces = sm.layout.workspaces.modify i f := rfl

@[simp] theorem modifyWorkspace_activeWorkspace :
    (sm.modifyWorkspace i f).layout.activeWorkspace = sm.layout.activeWorkspace := rfl

@[simp] theorem pushTab_workspaces :
    (sm.pushTab i tab).layout.workspaces =
      sm.layout.workspaces.modify i fun ws => { ws with tabs := ws.tabs ++ [tab] } := rfl

@[simp] theorem pushTab_activeWorkspace :
    (sm.pushTab i tab).layout.activeWorkspace = sm.layout.activeWorkspace := rfl

end Fields

/-- The error of an index past the end. -/
def outOfBounds (workspaceIdx : ℕ) (sm : SessionManager) (caller : String) : ForgettyError :=
  .pty s!"{caller}workspace index {workspaceIdx} out of bounds (len={sm.layout.workspaces.length})"

/-! ### Byte logs and drain tasks -/

def setByteLogConfig (ringKb maxMb : UInt32) (sm : SessionManager) : SessionManager :=
  { sm with byteLogRingKb := ringKb, byteLogMaxMb := maxMb }

/-- Register a byte log that starts with the end of the file on disk. When the
file cannot be opened the pane goes on without. -/
def createByteLogFor (w : World) (paneId : PaneId) (sm : SessionManager) : SessionManager :=
  let ringBytes := sm.byteLogRingKb.toNat * 1024
  let maxBytes := sm.byteLogMaxMb.toNat * (1024 * 1024)
  match w.openLog sm.opened with
  | .error _ => { sm with opened := sm.opened + 1 }
  | .ok _ =>
    let file := (sm.logFiles.get paneId.uuid).getD []
    { sm with
      opened := sm.opened + 1
      byteLogs := sm.byteLogs.insert paneId (ByteLog.new file ringBytes maxBytes)
      logFiles := sm.logFiles.insert paneId.uuid file }

/-- Take the receiving end of the output channel; the flag tells whether it was there. -/
def takePaneOutputRx (id : PaneId) (sm : SessionManager) : SessionManager × Bool :=
  match sm.panes.get id with
  | none => (sm, false)
  | some pane =>
    (sm.setPane id { pane with ptyBridge := { pane.ptyBridge with ptyRx := false } },
      pane.ptyBridge.ptyRx)

/-- Create the byte log, then hand the output channel to a task of its own. -/
def spawnDrainTask (w : World) (paneId : PaneId) (sm : SessionManager) : SessionManager :=
  ((sm.createByteLogFor w paneId).takePaneOutputRx paneId).1

section Drain

variable (w : World) (p q : PaneId) (sm : SessionManager)

@[simp] theorem createByteLogFor_panes : (sm.createByteLogFor w p).panes = sm.panes := by
  unfold createByteLogFor; split <;> rfl

@[simp] theorem createByteLogFor_paneOrder :
    (sm.createByteLogFor w p).paneOrder = sm.paneOrder := by
  unfold createByteLogFor; split <;> rfl

@[simp] theorem createByteLogFor_layout : (sm.createByteLogFor w p).layout = sm.layout := by
  unfold createByteLogFor; split <;> rfl

@[simp] theorem createByteLogFor_minted : (sm.createByteLogFor w p).minted = sm.minted := by
  unfold createByteLogFor; split <;> rfl

/-- Replacing the record of a registered pane registers nothing new. -/
theorem mem_setPane {sm : SessionManager} {p : PaneId} {pane pane' : PaneState}
    (h : sm.panes.get p = some pane) (q : PaneId) : q ∈ (sm.setPane p pane').panes ↔ q ∈ sm.panes := by
  rw [setPane_panes, PMap.mem_insert]
  constructor
  · rintro (rfl | hq)
    · exact PMap.mem_of_get h
    · exact hq
  · exact Or.inr

@[simp] theorem spawnDrainTask_mem_panes : q ∈ (sm.spawnDrainTask w p).panes ↔ q ∈ sm.panes := by
  unfold spawnDrainTask takePaneOutputRx
  split
  · rw [createByteLogFor_panes]
  · rename_i pane h
    rw [mem_setPane h, createByteLogFor_panes]

@[simp] theorem spawnDrainTask_paneOrder :
    (sm.spawnDrainTask w p).paneOrder = sm.paneOrder := by
  unfold spawnDrainTask takePaneOutputRx; split <;> simp

@[simp] theorem spawnDrainTask_layout : (sm.spawnDrainTask w p).layout = sm.layout := by
  unfold spawnDrainTask takePaneOutputRx; split <;> simp

@[simp] theorem spawnDrainTask_minted : (sm.spawnDrainTask w p).minted = sm.minted := by
  unfold spawnDrainTask takePaneOutputRx; split <;> simp

end Drain

/-- One chunk of output: log it, then broadcast it. `procCwd` reads a process's
working directory and `alive` is the answer of the liveness probe. -/
def processPaneBytes (procCwd : ℕ → Option PathBuf) (alive : Bool) (id : PaneId) (bytes : Bytes)
    (sm : SessionManager) : SessionManager × Except ForgettyError DrainResult :=
  match sm.panes.get id with
  | none => (sm, .error (.pty s!"pane {id} not found"))
  | some pane =>
    let sm := sm.setPane id { pane with cwd := (pane.ptyBridge.pty.pid.bind procCwd).getD pane.cwd }
    let sm :=
      match sm.byteLogs.get id with
      | none => sm
      | some log => { sm with byteLogs := sm.byteLogs.insert id (log.append bytes) }
    (sm.send (.ptyOutput id bytes), .ok { ptyExited := !alive })

def getRingSnapshot (paneId : PaneId) (sm : SessionManager) : Option (Bytes × ℕ) :=
  (sm.byteLogs.get paneId).map ByteLog.ringSnapshot

def closePaneByteLog (paneId : PaneId) (sm : SessionManager) : SessionManager :=
  { sm with byteLogs := sm.byteLogs.erase paneId }

def subscribeOutput (sm : SessionManager) : Receiver := sm.eventTx.subscribe

/-- Subscribe and copy the ring under one lock. -/
def subscribeWithSnapshot (paneId : PaneId) (sm : SessionManager) : Receiver × Bytes × ℕ :=
  (sm.eventTx.subscribe, (sm.getRingSnapshot paneId).getD ([], 0))

/-! ### Panes -/

/-- A new pane in a tab of its own in the first workspace. -/
def createPane (w : World) (size : PtySize) (cwd : Option PathBuf)
    (command : Option (List String)) (shell : Option String) (loginShell : Bool)
    (sm : SessionManager) : SessionManager × Except ForgettyError PaneId :=
  let id : PaneId := ⟨w.newV4 sm.minted⟩
  let sm := sm.mint
  match PtyBridge.spawn w sm.spawned size cwd command shell loginShell with
  | .error e => (sm.countSpawn, .error (.pty e))
  | .ok ptyBridge =>
    let initialCwd := cwd.getD w.homeDirFallback
    let sm := sm.countSpawn.registerPane (.spawned id ptyBridge initialCwd size)
    let tab := SessionTab.ofLeaf (w.newV4 sm.minted) id
    let sm := (sm.mint.pushTab 0 tab).send (.paneCreated id)
    (sm.spawnDrainTask w id, .ok id)

def setPaneCwd (id : PaneId) (cwd : PathBuf) (sm : SessionManager) : SessionManager :=
  match sm.panes.get id with
  | none => sm
  | some pane => sm.setPane id { pane with cwd := cwd }

/-- `resizeOk` is the outcome of the resize call on the terminal. -/
def resizePane (resizeOk : Except String Unit) (id : PaneId) (size : PtySize)
    (sm : SessionManager) : SessionManager × Except ForgettyError Unit :=
  match sm.panes.get id with
  | none => (sm, .error (.pty s!"pane {id} not found"))
  | some pane =>
    match resizeOk with
    | .error e => (sm, .error (.pty e))
    | .ok _ => (sm.setPane id { pane with rows := size.rows, cols := size.cols }, .ok ())

def paneInfo (id : PaneId) (sm : SessionManager) : Option PaneInfo :=
  (sm.panes.get id).map fun pane =>
    { id := pane.id
      pid := pane.ptyBridge.pty.pid
      rows := pane.rows
      cols := pane.cols
      cwd := pane.cwd
      title := pane.title }

def listPanes (sm : SessionManager) : List PaneId := sm.paneOrder

/-- `0.05_f32` and `0.95_f32`. -/
def minRatio : F32 := 13421773 / 268435456

def maxRatio : F32 := 15938355 / 16777216

def clampRatio (ratio : F32) : F32 := max minRatio (min ratio maxRatio)

def updateSplitRatios (updates : List (PaneId × F32)) (sm : SessionManager) : SessionManager :=
  updates.foldl (fun sm u =>
    sm.setWorkspaces (sm.layout.workspaces.map fun ws =>
      { ws with tabs := ws.tabs.map fun tab =>
        { tab with paneTree := (updateRatioForPane u.1 (clampRatio u.2) tab.paneTree).1 } })) sm

def setPinned (pinned : Bool) (sm : SessionManager) : SessionManager := { sm with pinned := pinned }

def isPinned (sm : SessionManager) : Bool := sm.pinned

/-! ### Workspaces -/

def createWorkspace (w : World) (name : String) (sm : SessionManager) :
    SessionManager × Uuid × ℕ :=
  let id := w.newV4 sm.minted
  let ws : SessionWorkspace := { id := id, name := name, tabs := [], activeTab := 0, color := none }
  let sm := sm.mint.setWorkspaces (sm.layout.workspaces ++ [ws])
  let idx := sm.layout.workspaces.length - 1
  (sm.send (.workspaceCreated idx id name), id, idx)

def renameWorkspace (workspaceIdx : ℕ) (newName : String) (sm : SessionManager) :
    SessionManager × Except ForgettyError Unit :=
  match sm.layout.workspaces[workspaceIdx]? with
  | none => (sm, .error (outOfBounds workspaceIdx sm ""))
  | some ws =>
    if ws.name = newName then (sm, .ok ())
    else
      let sm := sm.modifyWorkspace workspaceIdx fun ws => { ws with name := newName }
      (sm.send (.workspaceRenamed workspaceIdx ws.id newName), .ok ())

def setWorkspaceColor (workspaceIdx : ℕ) (color : Option String) (sm : SessionManager) :
    SessionManager × Except ForgettyError Unit :=
  match sm.layout.workspaces[workspaceIdx]? with
  | none => (sm, .error (outOfBounds workspaceIdx sm ""))
  | some ws =>
    if ws.color = color then (sm, .ok ())
    else
      let sm := sm.modifyWorkspace workspaceIdx fun ws => { ws with color := color }
      (sm.send (.workspaceColorChanged workspaceIdx ws.id color), .ok ())

/-- Exchange two workspaces. The active index goes with its workspace. -/
def moveWorkspace (fromIdx toIdx : ℕ) (sm : SessionManager) :
    SessionManager × Except ForgettyError Unit :=
  let len := sm.layout.workspaces.length
  match sm.layout.workspaces[fromIdx]?, sm.layout.workspaces[toIdx]? with
  | none, _ =>
    (sm, .error (.pty s!"move_workspace: from_idx {fromIdx} out of bounds (len={len})"))
  | some _, none =>
    (sm, .error (.pty s!"move_workspace: to_idx {toIdx} out of bounds (len={len})"))
  | some fromWs, some toWs =>
    if fromIdx = toIdx then (sm, .ok ())
    else
      let swapped := (sm.layout.workspaces.set fromIdx toWs).set toIdx fromWs
      let active := sm.layout.activeWorkspace
      let sm := (sm.setWorkspaces swapped).setActive
        (if active = fromIdx then toIdx else if active = toIdx then fromIdx else active)
      (sm.send (.workspacesReordered fromIdx toIdx fromWs.id toWs.id), .ok ())

/-- One pane of a workspace that is deleted. The event is sent even when the
pane was not registered. -/
def deletePane (sm : SessionManager) (pid : PaneId) : SessionManager :=
  let sm := sm.unregister pid
  { sm with logFiles := sm.logFiles.erase pid.uuid }.send (.paneClosed pid)

def deleteWorkspace (workspaceIdx : ℕ) (sm : SessionManager) :
    SessionManager × Except ForgettyError Unit :=
  match sm.layout.workspaces[workspaceIdx]? with
  | none => (sm, .error (outOfBounds workspaceIdx sm ""))
  | some ws =>
    if sm.layout.workspaces.length ≤ 1 then
      (sm, .error (.pty "delete_workspace: cannot delete last remaining workspace"))
    else
      let paneIds := ws.tabs.foldl (fun out tab => collectPaneIds tab.paneTree out) []
      let sm := paneIds.foldl deletePane sm
      let sm := sm.setWorkspaces (sm.layout.workspaces.eraseIdx workspaceIdx)
      let newLen := sm.layout.workspaces.length
      let active := sm.layout.activeWorkspace
      let sm := sm.setActive
        (if workspaceIdx < active then active - 1
        else if newLen ≤ active ∧ 0 < newLen then newLen - 1
        else active)
      (sm.send (.workspaceDeleted workspaceIdx ws.id), .ok ())

/-- What `duplicateWorkspace` copies under its first lock: the new name, where the
copy goes, and a directory for every tab. -/
def duplicateSnapshot (sourceIdx : ℕ) (newName : Option String) (sm : SessionManager) :
    Except ForgettyError (String × ℕ × List (Option PathBuf)) :=
  match sm.layout.workspaces[sourceIdx]? with
  | none => .error (outOfBounds sourceIdx sm "duplicate_workspace: ")
  | some source =>
    .ok (newName.getD s!"{source.name} (copy)", sourceIdx + 1,
      source.tabs.map fun tab =>
        (leftmostLeafId tab.paneTree).bind fun pid => (sm.panes.get pid).map (·.cwd))

/-- Spawn one child per directory, outside the lock. The first failure kills the
children spawned so far. -/
def duplicateSpawn (w : World) (size : PtySize) (total : ℕ) :
    List (Option PathBuf) → List (PaneId × PtyBridge × PathBuf) → SessionManager →
      SessionManager × Except ForgettyError (List (PaneId × PtyBridge × PathBuf))
  | [], spawned, sm => (sm, .ok spawned)
  | cwd :: cwds, spawned, sm =>
    let paneId : PaneId := ⟨w.newV4 sm.minted⟩
    let sm := sm.mint
    match PtyBridge.spawn w sm.spawned size cwd none none true with
    | .ok bridge =>
      duplicateSpawn w size total cwds (spawned ++ [(paneId, bridge, cwd.getD w.homeDirFallback)])
        sm.countSpawn
    | .error e =>
      ({ sm.countSpawn with killed := sm.killed ++ spawned.map (·.2.1.pty) },
        .error (.pty <| "duplicate_workspace: PTY spawn failed on tab " ++
          s!"{spawned.length + 1} of {total}: {e}"))

/-- Register the spawned panes, each with a tab of its own. -/
def duplicateTabs (w : World) (size : PtySize) :
    List (PaneId × PtyBridge × PathBuf) → SessionManager →
      SessionManager × List SessionTab × List DuplicatedTab
  | [], sm => (sm, [], [])
  | (paneId, bridge, cwd) :: spawned, sm =>
    let sm := sm.registerPane (.spawned paneId bridge cwd size)
    let tabId := w.newV4 sm.minted
    let rest := duplicateTabs w size spawned sm.mint
    (rest.1, SessionTab.ofLeaf tabId paneId :: rest.2.1, ⟨tabId, paneId⟩ :: rest.2.2)

/-- The second lock: insert the copy, at the end at the latest. -/
def duplicateCommit (w : World) (size : PtySize) (dupName : String) (insertAt : ℕ)
    (spawned : List (PaneId × PtyBridge × PathBuf)) (sm : SessionManager) :
    SessionManager × Uuid × ℕ × List DuplicatedTab :=
  let newWsId := w.newV4 sm.minted
  let sm := sm.mint
  let clampedInsert := min insertAt sm.layout.workspaces.length
  let made := duplicateTabs w size spawned sm
  let newWorkspace : SessionWorkspace :=
    { id := newWsId, name := dupName, tabs := made.2.1, activeTab := 0, color := none }
  let sm := made.1
  let sm := sm.setWorkspaces (sm.layout.workspaces.insertIdx clampedInsert newWorkspace)
  let active := sm.layout.activeWorkspace
  let sm := sm.setActive (if clampedInsert ≤ active then active + 1 else active)
  let sm := sm.send (.workspaceCreated clampedInsert newWsId dupName)
  let sm := sm.sendAll (made.2.2.flatMap fun dt =>
    [.paneCreated dt.paneId, .tabCreated clampedInsert dt.tabId dt.paneId])
  (sm, newWsId, clampedInsert, made.2.2)

/-- Copy a workspace next to itself, every tab as a single new pane. -/
def duplicateWorkspace (w : World) (sourceIdx : ℕ) (newName : Option String) (size : PtySize)
    (sm : SessionManager) : SessionManager × Except ForgettyError (Uuid × ℕ × List DuplicatedTab) :=
  match sm.duplicateSnapshot sourceIdx newName with
  | .error e => (sm, .error e)
  | .ok (dupName, insertAt, cwds) =>
    match duplicateSpawn w size cwds.length cwds [] sm with
    | (sm, .error e) => (sm, .error e)
    | (sm, .ok spawned) =>
      let done := sm.duplicateCommit w size dupName insertAt spawned
      let dupTabs := done.2.2.2
      (dupTabs.foldl (fun sm dt => sm.spawnDrainTask w dt.paneId) done.1, .ok done.2)

/-! ### Tabs -/

def createTabWithPaneId (w : World) (workspaceIdx : ℕ) (cwd : Option PathBuf) (size : PtySize)
    (command : Option (List String)) (paneId : PaneId) (sm : SessionManager) :
    SessionManager × Except ForgettyError (PaneId × Uuid) :=
  if sm.layout.workspaces.length ≤ workspaceIdx then
    (sm, .error (outOfBounds workspaceIdx sm ""))
  else
    match PtyBridge.spawn w sm.spawned size cwd command none true with
    | .error e => (sm.countSpawn, .error (.pty e))
    | .ok ptyBridge =>
      let initialCwd := cwd.getD w.homeDirFallback
      let sm := sm.countSpawn.registerPane (.spawned paneId ptyBridge initialCwd size)
      let tabId := w.newV4 sm.minted
      let sm := sm.mint.pushTab workspaceIdx (.ofLeaf tabId paneId)
      let sm := (sm.send (.paneCreated paneId)).send (.tabCreated workspaceIdx tabId paneId)
      (sm.spawnDrainTask w paneId, .ok (paneId, tabId))

def createTab (w : World) (workspaceIdx : ℕ) (cwd : Option PathBuf) (size : PtySize)
    (command : Option (List String)) (sm : SessionManager) :
    SessionManager × Except ForgettyError (PaneId × Uuid) :=
  sm.mint.createTabWithPaneId w workspaceIdx cwd size command ⟨w.newV4 sm.minted⟩

/-- The workspace and tab index of the first tab with the id. -/
def findTab (tabId : Uuid) (sm : SessionManager) : Option (ℕ × ℕ) :=
  (visit (fun wsIdx ws =>
    (ws, (ws.tabs.findIdx? (·.id = tabId)).map (wsIdx, ·))) sm.layout.workspaces).2

/-- A fresh tab in a workspace that has none. -/
def autoSeedDefaultTab (w : World) (workspaceIdx : ℕ) (size : PtySize) (sm : SessionManager) :
    SessionManager × Except ForgettyError (PaneId × Uuid) :=
  if sm.layout.workspaces.length ≤ workspaceIdx then
    (sm, .error (outOfBounds workspaceIdx sm "auto_seed_default_tab: "))
  else
    match PtyBridge.spawn w sm.spawned size none none none true with
    | .error e => (sm.countSpawn, .error (.pty e))
    | .ok ptyBridge =>
      let paneId : PaneId := ⟨w.newV4 sm.minted⟩
      let sm := sm.countSpawn.mint.registerPane (.spawned paneId ptyBridge w.homeDirFallback size)
      let tabId := w.newV4 sm.minted
      let sm := sm.mint.pushTab workspaceIdx (.ofLeaf tabId paneId)
      let sm := sm.modifyWorkspace workspaceIdx fun ws => { ws with activeTab := 0 }
      let sm := (sm.send (.paneCreated paneId)).send (.tabCreated workspaceIdx tabId paneId)
      (sm, .ok (paneId, tabId))

/-- Seed a workspace that was just emptied, unless it is the only one. A failed
spawn leaves it empty. -/
def healEmptied (w : World) (emptied : Option ℕ) (sm : SessionManager) : SessionManager :=
  match emptied with
  | none => sm
  | some wsIdx =>
    if 1 < sm.layout.workspaces.length then
      match sm.autoSeedDefaultTab w wsIdx .default with
      | (sm, .ok (paneId, _)) => sm.spawnDrainTask w paneId
      | (sm, .error _) => sm
    else sm

/-- The active index of a workspace that lost tabs. -/
def clampActiveTab (ws : SessionWorkspace) : SessionWorkspace :=
  if ws.tabs.length ≤ ws.activeTab ∧ ws.tabs ≠ [] then
    { ws with activeTab := ws.tabs.length - 1 }
  else ws

/-- One pane of a tab that is closed. -/
def closeTabPane (sm : SessionManager) (pid : PaneId) : SessionManager :=
  if pid ∈ sm.panes then (sm.unregister pid).send (.paneClosed pid) else sm.unregister pid

def closeTab (w : World) (tabId : Uuid) (sm : SessionManager) :
    SessionManager × Except ForgettyError Unit :=
  match sm.findTab tabId with
  | none => (sm, .error (.pty s!"close_tab: tab {tabId} not found"))
  | some (wsIdx, tabIdx) =>
    let tab := (sm.layout.workspaces[wsIdx]?).bind (·.tabs[tabIdx]?)
    let paneIds := (tab.map fun t => collectPaneIds t.paneTree []).getD []
    let sm := sm.modifyWorkspace wsIdx fun ws =>
      clampActiveTab { ws with tabs := ws.tabs.eraseIdx tabIdx }
    let sm := (paneIds.foldl closeTabPane sm).send (.tabClosed wsIdx tabId)
    let empty := (sm.layout.workspaces[wsIdx]?).any (·.tabs.isEmpty)
    (sm.healEmptied w (if empty then some wsIdx else none), .ok ())

def moveTab (tabId : Uuid) (newIndex : ℕ) (sm : SessionManager) :
    SessionManager × Except ForgettyError Unit :=
  match sm.findTab tabId with
  | none => (sm, .error (.pty s!"move_tab: tab {tabId} not found"))
  | some (wsIdx, currentIdx) =>
    match sm.layout.workspaces[wsIdx]? with
    | none => (sm, .ok ())
    | some ws =>
      let targetIdx := min newIndex (ws.tabs.length - 1)
      if currentIdx = targetIdx then (sm, .ok ())
      else
        match ws.tabs[currentIdx]? with
        | none => (sm, .ok ())
        | some tab =>
          let activeTabId := (ws.tabs[ws.activeTab]?).map (·.id)
          let tabs := (ws.tabs.eraseIdx currentIdx).insertIdx targetIdx tab
          let newActive := activeTabId.bind fun activeId => tabs.findIdx? (·.id = activeId)
          let sm := sm.modifyWorkspace wsIdx fun ws =>
            { ws with tabs := tabs, activeTab := newActive.getD ws.activeTab }
          (sm.send (.tabMoved wsIdx tabId targetIdx), .ok ())

def setActiveTab (workspaceIdx tabIdx : ℕ) (sm : SessionManager) :
    SessionManager × Except ForgettyError Unit :=
  match sm.layout.workspaces[workspaceIdx]? with
  | none => (sm, .error (outOfBounds workspaceIdx sm "set_active_tab: "))
  | some ws =>
    if ws.tabs.length ≤ tabIdx then
      (sm, .error (.pty <| s!"set_active_tab: tab index {tabIdx} out of bounds " ++
        s!"(len={ws.tabs.length})"))
    else
      let sm := sm.modifyWorkspace workspaceIdx fun ws => { ws with activeTab := tabIdx }
      (sm.send (.activeTabChanged workspaceIdx tabIdx), .ok ())

def setActiveWorkspace (workspaceIdx : ℕ) (sm : SessionManager) :
    SessionManager × Except ForgettyError Unit :=
  if sm.layout.workspaces.length ≤ workspaceIdx then
    (sm, .error (outOfBounds workspaceIdx sm "set_active_workspace: "))
  else if sm.layout.activeWorkspace = workspaceIdx then (sm, .ok ())
  else ((sm.setActive workspaceIdx).send (.activeWorkspaceChanged workspaceIdx), .ok ())

/-- Write the focus pointer of the first tab with the id. -/
def writeActivePane (tabId : Uuid) (paneId : Option PaneId) (ws : SessionWorkspace) :
    SessionWorkspace :=
  let tabIdx := ws.tabs.findIdx (·.id = tabId)
  { ws with tabs := ws.tabs.modify tabIdx fun tab => { tab with activePaneId := paneId } }

def setActivePane (workspaceIdx : ℕ) (tabId : Uuid) (paneId : Option PaneId)
    (sm : SessionManager) : SessionManager × Except ForgettyError Unit :=
  match sm.layout.workspaces[workspaceIdx]? with
  | none => (sm, .error (outOfBounds workspaceIdx sm "set_active_pane: "))
  | some ws =>
    match ws.tabs.find? (·.id = tabId) with
    | none =>
      (sm, .error (.pty <|
        s!"set_active_pane: tab {tabId} not found in workspace {workspaceIdx}"))
    | some tab =>
      match paneId.filter (fun pid => !paneTreeContainsLeaf pid tab.paneTree) with
      | some pid =>
        (sm, .error (.pty <|
          s!"set_active_pane: pane {pid} is not a leaf in tab {tabId}'s pane_tree"))
      | none =>
        if tab.activePaneId = paneId then (sm, .ok ())
        else
          let sm := sm.modifyWorkspace workspaceIdx (writeActivePane tabId paneId)
          (sm.send (.activePaneChanged workspaceIdx tabId paneId), .ok ())

/-! ### Splitting and closing panes -/

/-- Split the first leaf `target` of the tabs; answers the id of its tab. -/
def replaceLeafInTabs (target newPane : PaneId) (direction : String) (ratio : F32)
    (tabs : List SessionTab) : List SessionTab × Option Uuid :=
  visit (fun _ tab =>
    let inTree := replaceLeafWithRatio target newPane direction ratio tab.paneTree
    ({ tab with paneTree := inTree.1 }, if inTree.2 then some tab.id else none)) tabs

/-- The same over all workspaces. -/
def replaceLeafInLayout (target newPane : PaneId) (direction : String) (ratio : F32)
    (workspaces : List SessionWorkspace) : List SessionWorkspace × Option Uuid :=
  visit (fun _ ws =>
    let inTabs := replaceLeafInTabs target newPane direction ratio ws.tabs
    ({ ws with tabs := inTabs.1 }, inTabs.2)) workspaces

/-- The common body of the split operations. `caller` starts their messages. A
pane that is registered but in no tree is not split and the new pane is dropped. -/
def splitAt (w : World) (caller : String) (paneId : PaneId) (direction : String) (ratio : F32)
    (size : PtySize) (cwd : Option PathBuf) (newPaneId : PaneId) (sm : SessionManager) :
    SessionManager × Except ForgettyError PaneId :=
  match PtyBridge.spawn w sm.spawned size cwd none none true with
  | .error e => (sm.countSpawn, .error (.pty e))
  | .ok ptyBridge =>
    let initialCwd := cwd.getD w.homeDirFallback
    let sm := sm.countSpawn.registerPane (.spawned newPaneId ptyBridge initialCwd size)
    match replaceLeafInLayout paneId newPaneId direction ratio sm.layout.workspaces with
    | (_, none) =>
      ({ sm with
          panes := sm.panes.erase newPaneId
          paneOrder := sm.paneOrder.filter (· ≠ newPaneId) },
        .error (.pty s!"{caller}: pane {paneId} not found in any tab tree"))
    | (workspaces, some tabId) =>
      let sm := (sm.setWorkspaces workspaces).send (.paneCreated newPaneId)
      let sm := sm.send (.paneSplit tabId paneId newPaneId direction)
      (sm.spawnDrainTask w newPaneId, .ok newPaneId)

/-- The id of the new pane is taken only once the old pane was found. -/
def splitPane (w : World) (paneId : PaneId) (direction : String) (size : PtySize)
    (cwd : Option PathBuf) (sm : SessionManager) : SessionManager × Except ForgettyError PaneId :=
  if paneId ∈ sm.panes then
    sm.mint.splitAt w "split_pane" paneId direction (1 / 2) size cwd ⟨w.newV4 sm.minted⟩
  else (sm, .error (.pty s!"split_pane: pane {paneId} not found"))

def splitPaneWithRatioAndPaneId (w : World) (paneId : PaneId) (direction : String) (ratio : F32)
    (size : PtySize) (cwd : Option PathBuf) (newPaneId : PaneId) (sm : SessionManager) :
    SessionManager × Except ForgettyError PaneId :=
  if paneId ∈ sm.panes then
    sm.splitAt w "split_pane_with_ratio" paneId direction ratio size cwd newPaneId
  else (sm, .error (.pty s!"split_pane_with_ratio: pane {paneId} not found"))

def splitPaneWithRatio (w : World) (paneId : PaneId) (direction : String) (ratio : F32)
    (size : PtySize) (cwd : Option PathBuf) (sm : SessionManager) :
    SessionManager × Except ForgettyError PaneId :=
  sm.mint.splitPaneWithRatioAndPaneId w paneId direction ratio size cwd ⟨w.newV4 sm.minted⟩

/-- Drop the single-leaf tabs of a pane from one workspace. Answers, if there was
one, whether that emptied the workspace. -/
def dropLeafTabsOf (id : PaneId) (wsIdx : ℕ) (ws : SessionWorkspace) :
    SessionWorkspace × Option (Option ℕ) :=
  let kept := { ws with tabs := ws.tabs.filter fun t => t.paneTree ≠ .leaf id }
  if ws.tabs.length ≠ kept.tabs.length then
    (clampActiveTab kept, some (if kept.tabs = [] then some wsIdx else none))
  else (kept, none)

/-- The same over the workspaces, up to the first that had such a tab. -/
def dropLeafTabs (id : PaneId) (workspaces : List SessionWorkspace) :
    List SessionWorkspace × Option (Option ℕ) :=
  visit (dropLeafTabsOf id) workspaces

/-- Only a tab that consists of the pane alone goes away with it: a split that
contains the pane keeps its leaf. -/
def closePane (w : World) (id : PaneId) (sm : SessionManager) :
    SessionManager × Except ForgettyError Unit :=
  if id ∈ sm.panes then
    let sm := sm.unregister id
    let dropped := dropLeafTabs id sm.layout.workspaces
    let sm := (sm.setWorkspaces dropped.1).send (.paneClosed id)
    (sm.healEmptied w (dropped.2.getD none), .ok ())
  else (sm, .ok ())

end SessionManager

end Forgetty
