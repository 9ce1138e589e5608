import Forgetty.Session.Edits

/-! A connection that subscribed to the layout: which of the broadcast events it is sent,
and what a client that keeps a copy of the layout makes of each. A notification has
neither titles nor split ratios, so the copy is one up to these. -/

namespace Forgetty

open Lib SessionManager

/-! ### The connection -/

/-- The notifications, each with its parameters. -/
inductive LayoutNotification where
  | tabCreated (workspaceIdx : ℕ) (tabId : Uuid) (paneId : PaneId)
  | tabClosed (workspaceIdx : ℕ) (tabId : Uuid)
  | paneSplit (tabId : Uuid) (parentPaneId newPaneId : PaneId) (direction : String)
  | tabMoved (workspaceIdx : ℕ) (tabId : Uuid) (newIndex : ℕ)
  | activeTabChanged (workspaceIdx tabIdx : ℕ)
  | activeWorkspaceChanged (workspaceIdx : ℕ)
  | workspaceCreated (workspaceIdx : ℕ) (workspaceId : Uuid) (name : String)
  | workspaceRenamed (workspaceIdx : ℕ) (workspaceId : Uuid) (name : String)
  | workspaceDeleted (workspaceIdx : ℕ) (workspaceId : Uuid)
  | workspaceColorChanged (workspaceIdx : ℕ) (workspaceId : Uuid) (color : Option String)
  | workspacesReordered (fromIdx toIdx : ℕ) (fromWorkspaceId toWorkspaceId : Uuid)
  | activePaneChanged (workspaceIdx : ℕ) (tabId : Uuid) (paneId : Option PaneId)
  deriving DecidableEq, Repr

/-- What the connection sends for an event. Output and the events of single panes are not
forwarded. -/
def handleSubscribeLayout : SessionEvent → Option LayoutNotification
  | .tabCreated i tabId p => some (.tabCreated i tabId p)
  | .tabClosed i tabId => some (.tabClosed i tabId)
  | .paneSplit tabId p q direction => some (.paneSplit tabId p q direction)
  | .tabMoved i tabId k => some (.tabMoved i tabId k)
  | .activeTabChanged i j => some (.activeTabChanged i j)
  | .activeWorkspaceChanged i => some (.activeWorkspaceChanged i)
  | .workspaceCreated i id name => some (.workspaceCreated i id name)
  | .workspaceRenamed i id name => some (.workspaceRenamed i id name)
  | .workspaceDeleted i id => some (.workspaceDeleted i id)
  | .workspaceColorChanged i id color => some (.workspaceColorChanged i id color)
  | .workspacesReordered i j u v => some (.workspacesReordered i j u v)
  | .activePaneChanged i tabId p => some (.activePaneChanged i tabId p)
  | .ptyOutput .. | .paneCreated _ | .paneClosed _ => none

/-- What a connection that subscribed in the one state and did not lag was sent by the
time of the other. -/
def SessionManager.layoutStream (s t : SessionManager) : List LayoutNotification :=
  (t.eventTx.sent.drop s.subscribeOutput.next).filterMap handleSubscribeLayout

/-! ### The copy -/

/-- The first tab of a workspace becomes the active one. -/
def showTab (tabId : Uuid) (p : PaneId) (ws : SessionWorkspace) : SessionWorkspace :=
  { addTab tabId p ws with activeTab := if ws.tabs = [] then 0 else ws.activeTab }

/-- The tab with the id goes to its new place. -/
def moveTabById (tabId : Uuid) (k : ℕ) (ws : SessionWorkspace) : SessionWorkspace :=
  let j := ws.tabs.findIdx (·.id = tabId)
  match ws.tabs[j]? with
  | some tab => moveTabTo j k tab ws
  | none => ws

/-- Split the pane in the tab with the id. -/
def splitTabById (tabId : Uuid) (p q : PaneId) (direction : String) (tab : SessionTab) :
    SessionTab :=
  if tab.id = tabId then { tab with paneTree := (replaceLeaf p q direction tab.paneTree).1 } else tab

namespace SessionLayout

def modifyAt (i : ℕ) (f : SessionWorkspace → SessionWorkspace) (l : SessionLayout) : SessionLayout :=
  { l with workspaces := l.workspaces.modify i f }

/-- What a client makes of a notification. -/
def onNotification (l : SessionLayout) : LayoutNotification → SessionLayout
  | .tabCreated i tabId p => l.modifyAt i (showTab tabId p)
  | .tabClosed i tabId => l.modifyAt i (dropTabs fun tab => tab.id = tabId)
  | .paneSplit tabId p q direction =>
    { l with workspaces := l.workspaces.map fun ws =>
        { ws with tabs := ws.tabs.map (splitTabById tabId p q direction) } }
  | .tabMoved i tabId k => l.modifyAt i (moveTabById tabId k)
  | .activeTabChanged i j => l.modifyAt i fun ws => { ws with activeTab := j }
  | .activeWorkspaceChanged i => { l with activeWorkspace := i }
  | .workspaceCreated i id name =>
    { workspaces := l.workspaces.insertIdx i (emptyWorkspace id name)
      activeWorkspace := if i ≤ l.activeWorkspace then l.activeWorkspace + 1 else l.activeWorkspace }
  | .workspaceRenamed i _ name => l.modifyAt i fun ws => { ws with name := name }
  | .workspaceDeleted i _ =>
    { workspaces := l.workspaces.eraseIdx i
      activeWorkspace :=
        if i < l.activeWorkspace then l.activeWorkspace - 1
        else if l.workspaces.length - 1 ≤ l.activeWorkspace then l.workspaces.length - 2
        else l.activeWorkspace }
  | .workspaceColorChanged i _ color => l.modifyAt i fun ws => { ws with color := color }
  | .workspacesReordered i j _ _ =>
    { workspaces := swapIdx l.workspaces i j, activeWorkspace := follow i j l.activeWorkspace }
  | .activePaneChanged i tabId p => l.modifyAt i (writeActivePane tabId p)

end SessionLayout

/-! ### Up to ratios and titles -/

/-- Every split has the ratio of a new one. -/
def SplitLabel.bare (label : SplitLabel) : SplitLabel := { label with ratio := 1 / 2 }

def SessionTab.bare (tab : SessionTab) : SessionTab :=
  { tab with title := "", paneTree := tab.paneTree.relabel SplitLabel.bare }

def SessionWorkspace.bare (ws : SessionWorkspace) : SessionWorkspace :=
  { ws with tabs := ws.tabs.map SessionTab.bare }

/-- The layout without what notifications do not tell. -/
def SessionLayout.bare (l : SessionLayout) : SessionLayout :=
  { l with workspaces := l.workspaces.map SessionWorkspace.bare }

section Bare

variable {ws : SessionWorkspace} {tab : SessionTab}

@[simp] theorem SessionTab.bare_id : tab.bare.id = tab.id := rfl

@[simp] theorem SessionWorkspace.length_bare_tabs : ws.bare.tabs.length = ws.tabs.length :=
  List.length_map ..

theorem SessionWorkspace.bare_tabs_eq_nil : ws.bare.tabs = [] ↔ ws.tabs = [] := List.map_eq_nil_iff

/-- Where the tab with an id is does not depend on ratios and titles. -/
theorem findIdx_map_bare (tabs : List SessionTab) (id : Uuid) :
    (tabs.map SessionTab.bare).findIdx (·.id = id) = tabs.findIdx (·.id = id) :=
  List.findIdx_map ..

/-- Splitting does not look at the ratios. -/
theorem bare_replaceLeafWithRatio (p q : PaneId) (direction : String) (ratio : F32)
    (t : PaneTreeLayout) :
    (replaceLeafWithRatio p q direction (1 / 2) (t.relabel SplitLabel.bare)).1 =
        (replaceLeafWithRatio p q direction ratio t).1.relabel SplitLabel.bare ∧
      (replaceLeafWithRatio p q direction (1 / 2) (t.relabel SplitLabel.bare)).2 =
        (replaceLeafWithRatio p q direction ratio t).2 := by
  induction t with
  | leaf r =>
    simp only [LeafTree.relabel, replaceLeafWithRatio]
    split_ifs <;> exact ⟨rfl, rfl⟩
  | node label l r hl hr =>
    simp only [LeafTree.relabel, replaceLeafWithRatio, hl.2]
    split_ifs
    · exact ⟨by rw [hl.1, LeafTree.relabel], rfl⟩
    · exact ⟨by rw [hl.1, hr.1, LeafTree.relabel], hr.2⟩

/-- Nor does updating them show. -/
theorem bare_updateRatioForPane (p : PaneId) (ratio : F32) (t : PaneTreeLayout) :
    (updateRatioForPane p ratio t).1.relabel SplitLabel.bare = t.relabel SplitLabel.bare := by
  induction t with
  | leaf q => rfl
  | node label l r hl hr =>
    simp only [updateRatioForPane]
    split_ifs <;> simp only [LeafTree.relabel, SplitLabel.bare, hl, hr]

theorem bare_splitTab (p q : PaneId) (direction : String) (ratio : F32) :
    ({ tab with paneTree := (replaceLeafWithRatio p q direction ratio tab.paneTree).1 } :
        SessionTab).bare =
      { tab.bare with paneTree := (replaceLeaf p q direction tab.bare.paneTree).1 } := by
  rw [SessionTab.bare, SessionTab.bare, replaceLeaf, (bare_replaceLeafWithRatio p q direction ratio _).1]

theorem bare_splitTabById (tabId : Uuid) (p q : PaneId) (direction : String) :
    (splitTabById tabId p q direction tab).bare = splitTabById tabId p q direction tab.bare := by
  unfold splitTabById
  rw [SessionTab.bare_id]
  split_ifs
  · exact bare_splitTab p q direction _
  · rfl

theorem bare_addTab (tabId : Uuid) (p : PaneId) : (addTab tabId p ws).bare = addTab tabId p ws.bare := by
  simp only [SessionWorkspace.bare, addTab, List.map_append]
  rfl

theorem bare_showTab (tabId : Uuid) (p : PaneId) :
    (showTab tabId p ws).bare = showTab tabId p ws.bare := by
  have h := congrArg SessionWorkspace.tabs (@bare_addTab ws tabId p)
  simp only [showTab, SessionWorkspace.bare_tabs_eq_nil]
  exact congrArg (fun tabs => ({ ws with
    tabs := tabs, activeTab := if ws.tabs = [] then 0 else ws.activeTab } : SessionWorkspace)) h

theorem bare_dropTabs (tabId : Uuid) :
    (dropTabs (fun tab => tab.id = tabId) ws).bare = dropTabs (fun tab => tab.id = tabId) ws.bare := by
  have hkept : (ws.tabs.map SessionTab.bare).filter (fun tab => !decide (tab.id = tabId)) =
      (ws.tabs.filter fun tab => !decide (tab.id = tabId)).map SessionTab.bare := List.filter_map ..
  simp only [dropTabs, clampActiveTab, SessionWorkspace.bare, hkept, List.length_map, ne_eq,
    List.map_eq_nil_iff]
  split_ifs <;> rfl

theorem bare_moveTabTo (j k : ℕ) (tab : SessionTab) :
    (moveTabTo j k tab ws).bare = moveTabTo j k tab.bare ws.bare := by
  have htabs : ((ws.tabs.map SessionTab.bare).eraseIdx j).insertIdx k tab.bare =
      ((ws.tabs.eraseIdx j).insertIdx k tab).map SessionTab.bare := by
    rw [List.map_insertIdx, List.eraseIdx_map]
  have hactive : ((ws.tabs.map SessionTab.bare)[ws.activeTab]?).map (·.id) =
      (ws.tabs[ws.activeTab]?).map (·.id) := by
    rw [List.getElem?_map, Option.map_map]
    rfl
  have hfind (id : Uuid) (tabs : List SessionTab) :
      (tabs.map SessionTab.bare).findIdx? (·.id = id) = tabs.findIdx? (·.id = id) :=
    List.findIdx?_map ..
  simp only [moveTabTo, SessionWorkspace.bare, htabs, hactive, hfind]

theorem bare_moveTabById (tabId : Uuid) (k : ℕ) :
    (moveTabById tabId k ws).bare = moveTabById tabId k ws.bare := by
  have hfind : ws.bare.tabs.findIdx (·.id = tabId) = ws.tabs.findIdx (·.id = tabId) :=
    findIdx_map_bare ws.tabs tabId
  have hget (j : ℕ) : ws.bare.tabs[j]? = (ws.tabs[j]?).map SessionTab.bare := List.getElem?_map ..
  simp only [moveTabById, hfind, hget]
  cases ws.tabs[ws.tabs.findIdx (·.id = tabId)]? with
  | none => rfl
  | some tab => exact bare_moveTabTo _ k tab

theorem bare_writeActivePane (tabId : Uuid) (p : Option PaneId) :
    (writeActivePane tabId p ws).bare = writeActivePane tabId p ws.bare := by
  have hmap (j : ℕ) : (ws.tabs.modify j fun tab => { tab with activePaneId := p }).map
      SessionTab.bare = (ws.tabs.map SessionTab.bare).modify j fun tab =>
        { tab with activePaneId := p } := by
    refine map_modify ?_ _ _
    exact fun _ => rfl
  simp only [writeActivePane, SessionWorkspace.bare, hmap, findIdx_map_bare]

end Bare

namespace SessionLayout

variable {l : SessionLayout}

theorem bare_modifyAt {f : SessionWorkspace → SessionWorkspace} (h : ∀ ws, (f ws).bare = f ws.bare)
    (i : ℕ) : (l.modifyAt i f).bare = l.bare.modifyAt i f := by
  rw [bare, modifyAt, map_modify h]
  rfl

/-- A client need not know ratios and titles. -/
theorem bare_onNotification (n : LayoutNotification) :
    (l.onNotification n).bare = l.bare.onNotification n := by
  have hlen : l.bare.workspaces.length = l.workspaces.length := List.length_map ..
  cases n with
  | tabCreated i tabId p =>
    refine bare_modifyAt (fun _ => ?_) i
    exact bare_showTab tabId p
  | tabClosed i tabId =>
    refine bare_modifyAt (fun _ => ?_) i
    exact bare_dropTabs tabId
  | paneSplit tabId p q direction =>
    have hws (ws : SessionWorkspace) :
        ({ ws with tabs := ws.tabs.map (splitTabById tabId p q direction) } : SessionWorkspace).bare =
          { ws.bare with tabs := ws.bare.tabs.map (splitTabById tabId p q direction) } := by
      simp only [SessionWorkspace.bare, List.map_map]
      congr 1
      exact List.map_congr_left fun tab _ => bare_splitTabById tabId p q direction
    simp only [onNotification, bare, List.map_map]
    congr 1
    exact List.map_congr_left fun ws _ => hws ws
  | tabMoved i tabId k =>
    refine bare_modifyAt (fun _ => ?_) i
    exact bare_moveTabById tabId k
  | activeTabChanged i j =>
    refine bare_modifyAt (fun _ => ?_) i
    exact rfl
  | activeWorkspaceChanged i => rfl
  | workspaceCreated i id name =>
    simp only [onNotification, bare, List.map_insertIdx]
    rfl
  | workspaceRenamed i id name =>
    refine bare_modifyAt (fun _ => ?_) i
    exact rfl
  | workspaceDeleted i id =>
    simp only [onNotification, hlen]
    simp only [bare, List.eraseIdx_map]
    rfl
  | workspaceColorChanged i id color =>
    refine bare_modifyAt (fun _ => ?_) i
    exact rfl
  | workspacesReordered i j u v =>
    simp only [onNotification, bare, map_swapIdx]
  | activePaneChanged i tabId p =>
    refine bare_modifyAt (fun _ => ?_) i
    exact bare_writeActivePane tabId p

theorem bare_foldl_onNotification (ns : List LayoutNotification) :
    (ns.foldl onNotification l).bare = ns.foldl onNotification l.bare := by
  induction ns generalizing l with
  | nil => rfl
  | cons n ns ih => rw [List.foldl_cons, List.foldl_cons, ih, bare_onNotification]

end SessionLayout

end Forgetty
