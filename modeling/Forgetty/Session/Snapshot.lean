import Forgetty.Session.Operations
import Forgetty.Workspace.State

/-! The snapshot of a session manager that is written to disk. -/

namespace Forgetty

open Lib

/-- The saved form of a pane tree. A pane that is not registered gets the home directory. -/
def convertPaneTreeLayout (w : World) (panes : PMap PaneId PaneState) :
    PaneTreeLayout → PaneTreeState
  | .leaf paneId =>
    .leaf { cwd := ((panes.get paneId).map (·.cwd)).getD w.homeDirFallback
            paneId := some paneId.uuid }
  | .node label first second =>
    .node label (convertPaneTreeLayout w panes first) (convertPaneTreeLayout w panes second)

/-- The saved form of a leaf. -/
def savedLeaf (w : World) (panes : PMap PaneId PaneState) (paneId : PaneId) : SavedLeaf where
  cwd := ((panes.get paneId).map (·.cwd)).getD w.homeDirFallback
  paneId := some paneId.uuid

theorem convertPaneTreeLayout_eq_map (w : World) (panes : PMap PaneId PaneState)
    (t : PaneTreeLayout) : convertPaneTreeLayout w panes t = t.map (savedLeaf w panes) := by
  induction t with
  | leaf p => rfl
  | node n l r hl hr => simp only [convertPaneTreeLayout, LeafTree.map, hl, hr]

def SessionTab.toTabState (w : World) (panes : PMap PaneId PaneState) (tab : SessionTab) :
    TabState where
  title := tab.title
  paneTree := convertPaneTreeLayout w panes tab.paneTree
  paneId := none
  activePaneId := tab.activePaneId.map (·.uuid)

def SessionWorkspace.toWorkspace (w : World) (panes : PMap PaneId PaneState)
    (ws : SessionWorkspace) : Workspace where
  id := ws.id
  name := ws.name
  rootPaths := []
  tabs := ws.tabs.map (·.toTabState w panes)
  activeTab := ws.activeTab
  color := ws.color

namespace SessionManager

/-- Read the working directory of every live pane. -/
def refreshPaneCwds (procCwd : ℕ → Option PathBuf) (sm : SessionManager) : SessionManager :=
  { sm with panes := sm.panes.mapVals fun _ pane =>
      { pane with cwd := (pane.ptyBridge.pty.pid.bind procCwd).getD pane.cwd } }

/-- The saved form of a session as it is. -/
def toWorkspaceState (w : World) (sm : SessionManager) : WorkspaceState where
  version := 1
  workspaces := sm.layout.workspaces.map (·.toWorkspace w sm.panes)
  activeWorkspace := sm.layout.activeWorkspace
  windowWidth := none
  windowHeight := none
  pinned := sm.pinned

def snapshotToWorkspaceState (w : World) (procCwd : ℕ → Option PathBuf) (sm : SessionManager) :
    SessionManager × WorkspaceState :=
  let sm := sm.refreshPaneCwds procCwd
  (sm, sm.toWorkspaceState w)

@[simp] theorem refreshPaneCwds_layout (procCwd : ℕ → Option PathBuf) (sm : SessionManager) :
    (sm.refreshPaneCwds procCwd).layout = sm.layout := rfl

@[simp] theorem refreshPaneCwds_pinned (procCwd : ℕ → Option PathBuf) (sm : SessionManager) :
    (sm.refreshPaneCwds procCwd).pinned = sm.pinned := rfl

@[simp] theorem refreshPaneCwds_mem_panes (procCwd : ℕ → Option PathBuf) (sm : SessionManager)
    (p : PaneId) : p ∈ (sm.refreshPaneCwds procCwd).panes ↔ p ∈ sm.panes := by
  simp [refreshPaneCwds]

end SessionManager

end Forgetty
