import Forgetty.Session.Manager
import Forgetty.Lib.Run

/-! The calls clients and drain tasks make on the session manager, as data, and
what one call does to the state. A run of the manager is a list of calls. -/

namespace Forgetty

open Lib

/-- The calls that may change the state. The answers of the system that a call
reads (the working directory of a process, the liveness probe, the outcome of
resizing a terminal) are part of the call. -/
inductive Op where
  | createPane (size : PtySize) (cwd : Option PathBuf) (command : Option (List String))
      (shell : Option String) (loginShell : Bool)
  | createTab (workspaceIdx : ℕ) (cwd : Option PathBuf) (size : PtySize)
      (command : Option (List String))
  | splitPane (paneId : PaneId) (direction : String) (size : PtySize) (cwd : Option PathBuf)
  | splitPaneWithRatio (paneId : PaneId) (direction : String) (ratio : F32) (size : PtySize)
      (cwd : Option PathBuf)
  | closePane (id : PaneId)
  | closeTab (tabId : Uuid)
  | moveTab (tabId : Uuid) (newIndex : ℕ)
  | createWorkspace (name : String)
  | deleteWorkspace (workspaceIdx : ℕ)
  | duplicateWorkspace (sourceIdx : ℕ) (newName : Option String) (size : PtySize)
  | moveWorkspace (fromIdx toIdx : ℕ)
  | renameWorkspace (workspaceIdx : ℕ) (newName : String)
  | setWorkspaceColor (workspaceIdx : ℕ) (color : Option String)
  | setActiveTab (workspaceIdx tabIdx : ℕ)
  | setActiveWorkspace (workspaceIdx : ℕ)
  | setActivePane (workspaceIdx : ℕ) (tabId : Uuid) (paneId : Option PaneId)
  | updateSplitRatios (updates : List (PaneId × F32))
  | setPaneCwd (id : PaneId) (cwd : PathBuf)
  | setPinned (pinned : Bool)
  | resizePane (resizeOk : Except String Unit) (id : PaneId) (size : PtySize)
  | processPaneBytes (procCwd : ℕ → Option PathBuf) (alive : Bool) (id : PaneId) (bytes : Bytes)

/-- The new state, and whether the call answered an error. -/
def Op.exec (w : World) (sm : SessionManager) :
    Op → SessionManager × Except ForgettyError Unit
  | createPane size cwd command shell loginShell =>
    (sm.createPane w size cwd command shell loginShell).map id (Except.map fun _ => ())
  | createTab idx cwd size command =>
    (sm.createTab w idx cwd size command).map id (Except.map fun _ => ())
  | splitPane p direction size cwd =>
    (sm.splitPane w p direction size cwd).map id (Except.map fun _ => ())
  | splitPaneWithRatio p direction ratio size cwd =>
    (sm.splitPaneWithRatio w p direction ratio size cwd).map id (Except.map fun _ => ())
  | closePane p => sm.closePane w p
  | closeTab tabId => sm.closeTab w tabId
  | moveTab tabId newIndex => sm.moveTab tabId newIndex
  | createWorkspace name => ((sm.createWorkspace w name).1, .ok ())
  | deleteWorkspace idx => sm.deleteWorkspace idx
  | duplicateWorkspace idx name size =>
    (sm.duplicateWorkspace w idx name size).map id (Except.map fun _ => ())
  | moveWorkspace fromIdx toIdx => sm.moveWorkspace fromIdx toIdx
  | renameWorkspace idx name => sm.renameWorkspace idx name
  | setWorkspaceColor idx color => sm.setWorkspaceColor idx color
  | setActiveTab idx tabIdx => sm.setActiveTab idx tabIdx
  | setActiveWorkspace idx => sm.setActiveWorkspace idx
  | setActivePane idx tabId p => sm.setActivePane idx tabId p
  | updateSplitRatios updates => (sm.updateSplitRatios updates, .ok ())
  | setPaneCwd p cwd => (sm.setPaneCwd p cwd, .ok ())
  | setPinned pinned => (sm.setPinned pinned, .ok ())
  | resizePane resizeOk p size => sm.resizePane resizeOk p size
  | processPaneBytes procCwd alive p bytes =>
    (sm.processPaneBytes procCwd alive p bytes).map id (Except.map fun _ => ())

/-- The state after a call. -/
def SessionManager.apply (w : World) (sm : SessionManager) (op : Op) : SessionManager :=
  (op.exec w sm).1

/-- The state after a list of calls. -/
def SessionManager.runOps (w : World) (sm : SessionManager) (ops : List Op) : SessionManager :=
  run (SessionManager.apply w) sm ops

end Forgetty
