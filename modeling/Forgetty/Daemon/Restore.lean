import Forgetty.Session.Snapshot
import Forgetty.Workspace.Persistence

/-! The cold start of a daemon: it loads its session file and rebuilds the layout by
the calls a client would make. Errors of single calls are logged and skipped. -/

namespace Forgetty

open Lib

/-! ### Saved pane trees -/

def firstLeafCwd : PaneTreeState → PathBuf
  | .leaf l => l.cwd
  | .node _ first _ => firstLeafCwd first

def firstLeafPaneId : PaneTreeState → Option Uuid
  | .leaf l => l.paneId
  | .node _ first _ => firstLeafPaneId first

/-- The live pane at the place where `savedTarget` is in the saved tree. -/
def livePaneIdForSaved (savedTarget : Uuid) : PaneTreeState → PaneTreeLayout → Option PaneId
  | .leaf saved, .leaf liveId => if saved.paneId = some savedTarget then some liveId else none
  | .node _ sa sb, .node _ la lb =>
    (livePaneIdForSaved savedTarget sa la).or (livePaneIdForSaved savedTarget sb lb)
  | _, _ => none

section

variable (w : World) (isDir : PathBuf → Bool)

/-- A saved directory, if it is still there. -/
def effectiveCwd (cwd : PathBuf) : Option PathBuf := if isDir cwd then some cwd else none

/-- Rebuild a saved tree in the place of the live pane `anchorId`. When a split
fails, what was to come below it is left out. -/
def restoreSubtree (size : PtySize) : PaneTreeState → PaneId → SessionManager → SessionManager
  | .leaf l, anchorId, sm => if isDir l.cwd then sm.setPaneCwd anchorId l.cwd else sm
  | .node label first second, anchorId, sm =>
    let cwd := effectiveCwd isDir (firstLeafCwd second)
    let splitResult := match firstLeafPaneId second with
      | some pid =>
        sm.splitPaneWithRatioAndPaneId w anchorId label.direction label.ratio size cwd ⟨pid⟩
      | none => sm.splitPaneWithRatio w anchorId label.direction label.ratio size cwd
    match splitResult with
    | (sm, .ok secondPaneId) =>
      restoreSubtree size second secondPaneId (restoreSubtree size first anchorId sm)
    | (sm, .error _) => sm

/-- One saved tab: its root pane first, then the splits. -/
def restoreTab (size : PtySize) (wsIdx : ℕ) (sm : SessionManager) (tab : TabState) :
    SessionManager :=
  let rootCwd := effectiveCwd isDir (firstLeafCwd tab.paneTree)
  let createResult := match firstLeafPaneId tab.paneTree with
    | some pid => sm.createTabWithPaneId w wsIdx rootCwd size none ⟨pid⟩
    | none => sm.createTab w wsIdx rootCwd size none
  match createResult with
  | (sm, .ok (rootPaneId, _)) => restoreSubtree w isDir size tab.paneTree rootPaneId sm
  | (sm, .error _) => sm

/-- The tabs of one saved workspace. One that was saved empty gets a default tab. -/
def restoreWorkspace (size : PtySize) (wsIdx : ℕ) (workspace : Workspace) (sm : SessionManager) :
    SessionManager :=
  let sm := workspace.tabs.foldl (restoreTab w isDir size wsIdx) sm
  let sm := if workspace.tabs.isEmpty then (sm.createTab w wsIdx none size none).1 else sm
  (sm.setActiveTab wsIdx workspace.activeTab).1

/-- The workspaces from index `wsIdx` on. -/
def restoreWorkspaces (size : PtySize) : ℕ → List Workspace → SessionManager → SessionManager
  | _, [], sm => sm
  | wsIdx, workspace :: rest, sm =>
    restoreWorkspaces size (wsIdx + 1) rest (restoreWorkspace w isDir size wsIdx workspace sm)

/-- The slot of a saved workspace: the first is there already. -/
def restoreSlot (wsIdx : ℕ) (savedWs : Workspace) (sm : SessionManager) : SessionManager :=
  let sm :=
    if wsIdx = 0 then (sm.renameWorkspace 0 savedWs.name).1
    else (sm.createWorkspace w savedWs.name).1
  if savedWs.color.isSome then (sm.setWorkspaceColor wsIdx savedWs.color).1 else sm

def restoreSlots : ℕ → List Workspace → SessionManager → SessionManager
  | _, [], sm => sm
  | wsIdx, savedWs :: rest, sm => restoreSlots (wsIdx + 1) rest (restoreSlot w wsIdx savedWs sm)

/-- The focus to set in the tabs of one workspace, saved tabs paired with live ones. -/
def focusTargets (wsIdx : ℕ) : List TabState → List SessionTab → List (ℕ × Uuid × PaneId)
  | savedTab :: savedTabs, liveTab :: liveTabs =>
    let target := savedTab.activePaneId.bind fun savedPaneUuid =>
      (livePaneIdForSaved savedPaneUuid savedTab.paneTree liveTab.paneTree).map fun livePaneId =>
        (wsIdx, liveTab.id, livePaneId)
    target.toList ++ focusTargets wsIdx savedTabs liveTabs
  | _, _ => []

def restoreTargets : ℕ → List Workspace → List SessionWorkspace → List (ℕ × Uuid × PaneId)
  | wsIdx, saved :: savedWorkspaces, live :: liveWorkspaces =>
    focusTargets wsIdx saved.tabs live.tabs ++
      restoreTargets (wsIdx + 1) savedWorkspaces liveWorkspaces
  | _, _, _ => []

def setFocus (sm : SessionManager) (target : ℕ × Uuid × PaneId) : SessionManager :=
  (sm.setActivePane target.1 target.2.1 (some target.2.2)).1

/-- Rebuild a loaded session in a fresh manager. -/
def coldStart (state : WorkspaceState) (sm : SessionManager) : SessionManager :=
  if state.workspaces.isEmpty then sm
  else
    let sm := if state.pinned then sm.setPinned true else sm
    let sm := restoreSlots w 0 state.workspaces sm
    let sm := restoreWorkspaces w isDir .default 0 state.workspaces sm
    let sm := (sm.setActiveWorkspace state.activeWorkspace).1
    (restoreTargets 0 state.workspaces sm.layout.workspaces).foldl setFocus sm

/-- The start of the daemon of a session. Without a session file it starts afresh. -/
def daemonStart {α : Type} (os : Os Uuid) (codec : SessionCodec α) (sessionId : Uuid)
    (byteLogRingKb byteLogMaxMb : UInt32) (d : Disk α) (logFiles : PMap Uuid Bytes) :
    SessionManager :=
  let sm := (SessionManager.new w logFiles).setByteLogConfig byteLogRingKb byteLogMaxMb
  match (loadSessionFor os codec sessionId d).2 with
  | .ok (some state) => coldStart w isDir state sm
  | _ => sm

end

end Forgetty
