import Forgetty.Gtk.PaneTree
import Forgetty.Session.Belonging
import Forgetty.Session.TabOrder

/-! Closing a tab by the button on it. The page is walked and a request to close the whole
tab is sent for every drawing area in it, one after the other; other clients may be served
in between. One of the requests closes the tab. The others find their pane gone, and
neither close the tab that was seeded in its place nor any other. -/

namespace Forgetty

open Lib SessionManager

/-- The daemon, the drawing areas that are registered, and what other clients are about to
ask: the calls that are served before each of the requests still to be sent. -/
structure Closing where
  sm : SessionManager
  tabStates : PMap PaneName PaneId
  coming : List (List Op)

namespace Closing

/-- What arrived before the next request is served. -/
def serve (w : World) (v : Closing) : Closing where
  sm := v.sm.runOps w (v.coming.headD [])
  tabStates := v.tabStates
  coming := v.coming.tail

def daemonClosePane (w : World) (paneName : PaneName) (isSolePane : Bool) (v : Closing) :
    Closing :=
  match v.tabStates.get paneName with
  | none => { v with tabStates := v.tabStates.erase paneName }
  | some paneId =>
    let v := v.serve w
    { v with
      sm := if isSolePane then DaemonClient.closeTabByPaneId w paneId v.sm
        else DaemonClient.closePane w paneId v.sm
      tabStates := v.tabStates.erase paneName }

/-- Every pane counts as the only one. -/
def daemonClosePanesInSubtree (w : World) : PaneWidget → Closing → Closing
  | .leaf paneName, v => v.daemonClosePane w paneName true
  | .node _ start stop, v =>
    daemonClosePanesInSubtree w stop (daemonClosePanesInSubtree w start v)

theorem daemonClosePanesInSubtree_eq (w : World) (page : PaneWidget) (v : Closing) :
    v.daemonClosePanesInSubtree w page =
      page.leaves.foldl (fun v name => v.daemonClosePane w name true) v := by
  induction page generalizing v with
  | leaf name => rfl
  | node paned start stop hstart hstop =>
    rw [daemonClosePanesInSubtree, hstart, hstop, LeafTree.leaves_node, List.foldl_append]

end Closing

/-! ### One request -/

section Request

variable {w : World} {s t : SessionManager} {tab : SessionTab} {p : PaneId}

/-- A live pane that was shown in a tab is still in the tab with this id. -/
theorem holds_of_live (hw : Function.Injective w.newV4) (hs : Tracked w s) (hi : Identified w s)
    (htab : tab ∈ s.layout.tabs) (hp : p ∈ tab.paneTree.leaves) (ops : List Op)
    (hlive : p ∈ (s.runOps w ops).panes) : (s.runOps w ops).layout.Holds tab.id p := by
  have hheld : s.layout.Holds tab.id p := SessionLayout.holds_of_mem_tabs htab hp
  obtain ⟨id, h⟩ := SessionLayout.exists_holds ((hs.runOps hw ops).live_leaf p hlive)
  rwa [hheld.eq hs.leaves_nodup (holds_runOps hw hs hi (hs.old hheld.leaf) ops h)] at h

/-- Closing the tab with an id ends every pane in a tab with the id. -/
theorem not_live_closeTab (ht : Tracked w t) (hi : Identified w t) {id : Uuid}
    (hheld : p ∈ t.panes → t.layout.Holds id p) (hn : Old w p t)
    (hsome : ∃ tab ∈ t.layout.tabs, tab.id = id) : p ∉ (t.closeTab w id).1.panes := by
  obtain ⟨tab, htab, rfl⟩ := hsome
  obtain ⟨ws, hws, hmem⟩ := List.mem_flatMap.mp htab
  obtain ⟨i, hi'⟩ := List.mem_iff_getElem?.mp hws
  obtain ⟨j, hj⟩ := List.mem_iff_getElem?.mp hmem
  have hfind := findTab_of_nodup hi.tabIds_nodup hi' hj
  obtain ⟨new, he, hm⟩ := effect_closeTab_of_found w ht.leaves_nodup hfind hi' hj
  intro hp
  rcases (he.keys p).mp hp with ⟨hlive, hgone⟩ | hnew
  · obtain ⟨tab', htab', hid, hp'⟩ := (hheld hlive).tab
    obtain rfl := List.inj_on_of_nodup_map hi.tabIds_nodup htab' htab hid
    exact hgone hp'
  · obtain ⟨n, hle, -, rfl⟩ := hm.2 p hnew
    exact hn n hle rfl

/-- The request to close the tab that shows a live pane. -/
theorem closeTabByPaneId_of_holds (hd : t.layout.leaves.Nodup) {id : Uuid} (hlive : p ∈ t.panes)
    (h : t.layout.Holds id p) : DaemonClient.closeTabByPaneId w p t = (t.closeTab w id).1 := by
  have hinfo : (t.paneInfo p).isSome = true := by
    rw [PMap.mem_def] at hlive
    simpa [paneInfo] using hlive
  rw [DaemonClient.closeTabByPaneId, if_pos hinfo, closeTabByPaneRpc]
  cases hfind : findTabForPane t.layout p with
  | none =>
    obtain ⟨ws, hws, tab, htab, -, hp⟩ := h
    have hnone := List.findSome?_eq_none_iff.mp hfind ws hws
    have hfalse := List.find?_eq_none.mp hnone tab htab
    exact absurd ((treeContainsPane_iff p tab.paneTree).mpr hp) hfalse
  | some tab' =>
    obtain ⟨ws, hws, htab, hp⟩ := findTabForPane_some hfind
    obtain rfl := h.eq hd ⟨ws, hws, tab', htab, rfl, hp⟩
    rfl

theorem closeTabByPaneId_of_not_live (hdead : p ∉ t.panes) :
    DaemonClient.closeTabByPaneId w p t = t := by
  have hinfo : ¬(t.paneInfo p).isSome = true := by
    rw [PMap.mem_def] at hdead
    simpa [paneInfo] using hdead
  rw [DaemonClient.closeTabByPaneId, if_neg hinfo]

end Request

/-! ### All of them -/

/-- What other clients asked was served, and nothing else was done, or the tab was closed
once somewhere among it and none of its panes lives. -/
inductive ClosesOnly (w : World) (s : SessionManager) (tab : SessionTab) (served : List Op) :
    SessionManager → Prop
  | unclosed : ClosesOnly w s tab served (s.runOps w served)
  | closed (before after : List Op) (h : before ++ after = served)
    (dead : ∀ p ∈ tab.paneTree.leaves,
      p ∉ (s.runOps w (before ++ .closeTab tab.id :: after)).panes) :
    ClosesOnly w s tab served (s.runOps w (before ++ .closeTab tab.id :: after))

section Walk

variable {w : World} {s t : SessionManager} {tab : SessionTab} {served : List Op}

theorem runOps_append (s : SessionManager) (ops ops' : List Op) :
    s.runOps w (ops ++ ops') = (s.runOps w ops).runOps w ops' := run_append s ops ops'

/-- A pane that ended does not come back. -/
theorem not_live_runOps (hw : Function.Injective w.newV4) (hs : Tracked w s) {p : PaneId}
    (hn : Old w p s) (hdead : p ∉ s.panes) (ops : List Op) : p ∉ (s.runOps w ops).panes := by
  induction ops generalizing s with
  | nil => exact hdead
  | cons op ops ih =>
    refine ih (hs.apply hw op) (hn.mono (inherits_apply w op s).minted) fun hlive => hdead ?_
    obtain ⟨es, h⟩ := apply_traffic hn op
    exact h.panes hlive

theorem ClosesOnly.leads (h : ClosesOnly w s tab served t) : ∃ ops, t = s.runOps w ops := by
  cases h with
  | unclosed => exact ⟨_, rfl⟩
  | closed before after => exact ⟨_, rfl⟩

theorem ClosesOnly.tracked (hw : Function.Injective w.newV4) (hs : Tracked w s)
    (h : ClosesOnly w s tab served t) : Tracked w t := by
  obtain ⟨ops, rfl⟩ := h.leads
  exact hs.runOps hw ops

theorem ClosesOnly.old (hs : Tracked w s) (htab : tab ∈ s.layout.tabs)
    (h : ClosesOnly w s tab served t) {p : PaneId} (hp : p ∈ tab.paneTree.leaves) : Old w p t := by
  obtain ⟨ops, rfl⟩ := h.leads
  exact (hs.old (SessionLayout.holds_of_mem_tabs htab hp).leaf).mono (inherits_runOps ops s).minted

theorem ClosesOnly.serve (hw : Function.Injective w.newV4) (hs : Tracked w s)
    (htab : tab ∈ s.layout.tabs) (h : ClosesOnly w s tab served t) (ops : List Op) :
    ClosesOnly w s tab (served ++ ops) (t.runOps w ops) := by
  cases id h with
  | unclosed =>
    rw [← runOps_append]
    exact .unclosed
  | closed before after heq dead =>
    have happ : before ++ Op.closeTab tab.id :: (after ++ ops) =
        (before ++ .closeTab tab.id :: after) ++ ops := by simp
    rw [← runOps_append, ← happ]
    refine .closed before (after ++ ops) (by rw [← heq, List.append_assoc]) fun p hp => ?_
    rw [happ, runOps_append]
    exact not_live_runOps hw (h.tracked hw hs) (h.old hs htab hp) (dead p hp) ops

/-- A request for a pane of the tab closes the tab, or finds it closed. -/
theorem ClosesOnly.close (hw : Function.Injective w.newV4) (hs : Tracked w s)
    (hi : Identified w s) (htab : tab ∈ s.layout.tabs) (h : ClosesOnly w s tab served t) {p : PaneId}
    (hp : p ∈ tab.paneTree.leaves) :
    ClosesOnly w s tab served (DaemonClient.closeTabByPaneId w p t) ∧
      p ∉ (DaemonClient.closeTabByPaneId w p t).panes := by
  by_cases hlive : p ∈ t.panes
  · cases h with
    | closed before after heq dead => exact absurd hlive (dead p hp)
    | unclosed =>
      have ht := hs.runOps hw served
      have hinh := inherits_runOps (w := w) served s
      have hheld := holds_of_live hw hs hi htab hp served hlive
      obtain ⟨tab', htab', hid, -⟩ := hheld.tab
      have hdead : ∀ q ∈ tab.paneTree.leaves, q ∉ ((s.runOps w served).closeTab w tab.id).1.panes := by
        intro q hq
        refine not_live_closeTab ht (hinh.identified hw hi)
          (holds_of_live hw hs hi htab hq served) ?_ ⟨tab', htab', hid⟩
        exact (hs.old (SessionLayout.holds_of_mem_tabs htab hq).leaf).mono hinh.minted
      have heq : ((s.runOps w served).closeTab w tab.id).1 =
          s.runOps w (served ++ [.closeTab tab.id]) := by
        rw [runOps_append]
        rfl
      rw [closeTabByPaneId_of_holds ht.leaves_nodup hlive hheld, heq]
      rw [heq] at hdead
      exact ⟨.closed served [] (List.append_nil _) hdead, hdead p hp⟩
  · rw [closeTabByPaneId_of_not_live hlive]
    exact ⟨h, hlive⟩

/-- The request brings no pane back. -/
theorem not_live_closeTabByPaneId {q : PaneId} (hn : Old w q t) (hdead : q ∉ t.panes)
    (p : PaneId) : q ∉ (DaemonClient.closeTabByPaneId w p t).panes := by
  unfold DaemonClient.closeTabByPaneId closeTabByPaneRpc
  split_ifs
  · split
    · exact fun h => hdead ((silent_closeTab hn _).panes h)
    · exact fun h => hdead ((silent_closePane hn _).panes h)
  · exact hdead

/-- After the drawing areas with the names. -/
structure Walked (w : World) (s : SessionManager) (tab : SessionTab)
    (tabStates : PMap PaneName PaneId) (coming : List (List Op)) (names : List PaneName)
    (v : Closing) : Prop where
  closes : ∃ served, coming = served ++ v.coming ∧ ClosesOnly w s tab served.flatten v.sm
  ended : ∀ name ∈ names, ∀ p, tabStates.get name = some p → p ∉ v.sm.panes
  states : ∀ name, v.tabStates.get name = if name ∈ names then none else tabStates.get name

variable {tabStates : PMap PaneName PaneId} {coming : List (List Op)} {names : List PaneName}
  {v : Closing}

theorem get_erase_walked (h : Walked w s tab tabStates coming names v) (name n : PaneName) :
    (v.tabStates.erase name).get n = if n ∈ names ++ [name] then none else tabStates.get n := by
  by_cases hn : n = name
  · subst hn
    simp
  · rw [PMap.get_erase_of_ne hn, h.states]
    simp [hn]

/-- One drawing area. -/
theorem Walked.step (hw : Function.Injective w.newV4) (hs : Tracked w s) (hi : Identified w s)
    (htab : tab ∈ s.layout.tabs) (h : Walked w s tab tabStates coming names v) {name : PaneName}
    (hpage : ∀ n ∈ names ++ [name], ∀ p, tabStates.get n = some p → p ∈ tab.paneTree.leaves) :
    Walked w s tab tabStates coming (names ++ [name]) (v.daemonClosePane w name true) := by
  obtain ⟨served, hcoming, hcloses⟩ := h.closes
  unfold Closing.daemonClosePane
  split
  · rename_i hnone
    refine ⟨⟨served, hcoming, hcloses⟩, fun n hn p hp => ?_, get_erase_walked h name⟩
    rcases List.mem_append.mp hn with hn | hn
    · exact h.ended n hn p hp
    · obtain rfl := List.mem_singleton.mp hn
      rw [h.states] at hnone
      split_ifs at hnone with hmem
      · exact h.ended n hmem p hp
      · rw [hp] at hnone
        cases hnone
  · rename_i paneId hsome
    have hserved := hcloses.serve hw hs htab (v.coming.headD [])
    obtain ⟨hmem, hstate⟩ : name ∉ names ∧ tabStates.get name = some paneId := by
      rw [h.states] at hsome
      split_ifs at hsome with hmem
      exact ⟨hmem, hsome⟩
    have hpane := hpage name (List.mem_append_right _ List.mem_cons_self) paneId hstate
    obtain ⟨hclosed, hgone⟩ := hserved.close hw hs hi htab hpane
    refine ⟨⟨served ++ v.coming.take 1, ?_, ?_⟩, fun n hn p hp => ?_, get_erase_walked h name⟩
    · rw [hcoming, List.append_assoc]
      show _ = served ++ (v.coming.take 1 ++ v.coming.tail)
      rw [← List.drop_one, List.take_append_drop]
    · have hflat : (served ++ v.coming.take 1).flatten =
          served.flatten ++ v.coming.headD [] := by
        cases v.coming <;> simp
      rw [hflat]
      exact hclosed
    · rcases List.mem_append.mp hn with hmem' | hmem'
      · have hp' := hpage n hn p hp
        refine not_live_closeTabByPaneId (hserved.old hs htab hp') ?_ paneId
        exact not_live_runOps hw (hcloses.tracked hw hs) (hcloses.old hs htab hp')
          (h.ended n hmem' p hp) _
      · obtain rfl := List.mem_singleton.mp hmem'
        obtain rfl := Option.some.inj (hstate.symm.trans hp)
        exact hgone

theorem Walked.foldl (hw : Function.Injective w.newV4) (hs : Tracked w s) (hi : Identified w s)
    (htab : tab ∈ s.layout.tabs) (h : Walked w s tab tabStates coming names v)
    (more : List PaneName)
    (hpage : ∀ n ∈ names ++ more, ∀ p, tabStates.get n = some p → p ∈ tab.paneTree.leaves) :
    Walked w s tab tabStates coming (names ++ more)
      (more.foldl (fun v name => v.daemonClosePane w name true) v) := by
  induction more generalizing names v with
  | nil => rwa [List.append_nil]
  | cons name more ih =>
    rw [List.append_cons] at hpage ⊢
    exact ih (h.step hw hs hi htab fun n hn => hpage n (List.mem_append_left _ hn)) hpage

end Walk

/-- Closing the page of a tab, whatever other clients ask between its requests: their calls are
served as they came, the tab is closed at most once and no other tab is, and in the end no
pane of the page lives or is registered. -/
theorem closes_only_tab (w : World) (hw : Function.Injective w.newV4) (s : SessionManager)
    (hs : Reachable w s) (tab : SessionTab) (htab : tab ∈ s.layout.tabs) (page : PaneWidget)
    (tabStates : PMap PaneName PaneId)
    (hpage : ∀ n ∈ page.leaves, ∀ p, tabStates.get n = some p → p ∈ tab.paneTree.leaves)
    (coming : List (List Op)) :
    Walked w s tab tabStates coming page.leaves
      (Closing.daemonClosePanesInSubtree w page ⟨s, tabStates, coming⟩) := by
  rw [Closing.daemonClosePanesInSubtree_eq]
  have hstart : Walked w s tab tabStates coming [] ⟨s, tabStates, coming⟩ :=
    ⟨⟨[], rfl, .unclosed⟩, nofun, fun _ => rfl⟩
  have h := hstart.foldl hw (hs.tracked hw) (hs.identified hw) htab page.leaves hpage
  rwa [List.nil_append] at h

/-- Another client splits the pane of the tab before the request to close it arrives. -/
theorem closes_only_tab_splitMeanwhile :
    Walked .counting twoTabsMade (.ofLeaf ⟨2⟩ ⟨⟨1⟩⟩) (PMap.empty.insert 0 ⟨⟨1⟩⟩)
      [[.splitPane ⟨⟨1⟩⟩ "horizontal" .default none]] (LeafTree.leaves (.leaf 0 : PaneWidget))
      (Closing.daemonClosePanesInSubtree .counting (.leaf 0) ⟨twoTabsMade,
        PMap.empty.insert 0 ⟨⟨1⟩⟩, [[.splitPane ⟨⟨1⟩⟩ "horizontal" .default none]]⟩) := by
  refine closes_only_tab .counting World.counting_injective twoTabsMade ⟨_, _, rfl⟩
    (.ofLeaf ⟨2⟩ ⟨⟨1⟩⟩) List.mem_cons_self (.leaf 0) _ (fun n hn p hp => ?_) _
  obtain rfl := List.mem_singleton.mp hn
  rw [PMap.get_insert_self] at hp
  obtain rfl := Option.some.inj hp
  exact List.mem_singleton.mpr rfl

end Forgetty
