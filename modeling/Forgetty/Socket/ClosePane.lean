import Forgetty.Socket.Handlers

/-! Closing one pane of a split over the socket. What it is for is stated on the
layout: the leaf is pruned and its sibling takes the place of the split. The
handler picks the manager's `closePane` for it, which edits no tree, so the
layout stays as it was, however many panes of the tab are closed. -/

namespace Forgetty

open Lib SessionManager

/-! ### What closing a pane is for -/

/-- The tab without the leaf, if another leaf is left. -/
def SessionTab.prune (p : PaneId) (tab : SessionTab) : Option SessionTab :=
  (tab.paneTree.prune p).map fun tree => { tab with paneTree := tree }

/-- The layout without the leaf. A tab with nothing else is gone. -/
def SessionLayout.deleteLeaf (p : PaneId) (l : SessionLayout) : SessionLayout :=
  { l with workspaces := l.workspaces.map fun ws => { ws with tabs := ws.tabs.filterMap (·.prune p) } }

/-- The pane left the registry and its leaf the layout, and nothing else changed. -/
structure ClosesLeaf (p : PaneId) (s t : SessionManager) : Prop where
  layout : t.layout = s.layout.deleteLeaf p
  panes : p ∉ t.panes
  paneOrder : t.paneOrder = s.paneOrder.filter (· ≠ p)
  others : ∀ q, q ≠ p → t.panes.get q = s.panes.get q

theorem SessionLayout.leaves_deleteLeaf (p : PaneId) (l : SessionLayout) :
    p ∉ (l.deleteLeaf p).leaves := by
  intro h
  simp only [SessionLayout.leaves, deleteLeaf, SessionWorkspace.leaves, List.mem_flatMap,
    List.mem_map, exists_exists_and_eq_and, List.mem_filterMap] at h
  obtain ⟨ws, -, t, ⟨tab, -, ht⟩, hp⟩ := h
  obtain ⟨tree, htree, rfl⟩ := Option.map_eq_some_iff.mp ht
  have hl := LeafTree.leaves_prune p tab.paneTree
  rw [htree] at hl
  have : p ∈ LeafTree.leaves? (some tree) := hp
  rw [hl] at this
  simp at this

/-! ### What the handler does -/

theorem treeContainsPane_iff (p : PaneId) (t : PaneTreeLayout) :
    treeContainsPane p t = true ↔ p ∈ t.leaves := by
  induction t with
  | leaf q => simp [treeContainsPane, eq_comm]
  | node n l r hl hr => simp [treeContainsPane, hl, hr]

theorem collectAllPaneIds_eq (t : PaneTreeLayout) (out : List PaneId) :
    collectAllPaneIds t out = out ++ t.leaves := by
  induction t generalizing out with
  | leaf p => rfl
  | node n l r hl hr => simp [collectAllPaneIds, hl, hr]

/-- The tab found has the pane. -/
theorem findTabForPane_some {l : SessionLayout} {p : PaneId} {tab : SessionTab}
    (h : findTabForPane l p = some tab) :
    ∃ ws ∈ l.workspaces, tab ∈ ws.tabs ∧ p ∈ tab.paneTree.leaves := by
  obtain ⟨ws, hws, hf⟩ := List.exists_of_findSome?_eq_some h
  exact ⟨ws, hws, List.mem_of_find?_eq_some hf,
    (treeContainsPane_iff p _).mp (by simpa using List.find?_some hf)⟩

section Split

variable {w : World} {s : SessionManager} {p : PaneId}

/-- A pane named in a request that was accepted is live. -/
theorem requirePaneId_live {req : Request} (h : requirePaneId req s = .ok p) : p ∈ s.panes := by
  unfold requirePaneId at h
  split at h
  · simp at h
  · split at h
    · simp at h
    · split_ifs at h with hp
      simp only [Except.ok.injEq] at h
      subst h
      simpa [paneInfo, PMap.mem_def, Option.isSome_iff_ne_none] using hp

/-- Closing a leaf of a split only unregisters the pane. -/
theorem closePaneRpc_of_splitLeaf (hs : Tracked w s) (hp : SplitLeaf p s) (hlive : p ∈ s.panes)
    (req : Request) : (closePaneRpc w req p s).1 = (s.unregister p).send (.paneClosed p) := by
  have hclose := closePane_of_splitLeaf w hs.leaves_nodup hlive hp
  unfold closePaneRpc
  split
  · rename_i tab htab
    obtain ⟨ws, hws, ht, hpt⟩ := findTabForPane_some htab
    rw [collectAllPaneIds_eq, List.nil_append, if_neg, Prod.map_fst, hclose, id]
    intro hlen
    have hleaf := LeafTree.eq_leaf_of_length hlen
    rw [hleaf, LeafTree.leaves_leaf, List.mem_singleton] at hpt
    exact no_leafTab_of_splitLeaf hs.leaves_nodup hp ws hws tab ht (hpt ▸ hleaf)
  · rw [Prod.map_fst, hclose, id]

theorem splitLeaf_of_two {ws : SessionWorkspace} (hws : ws ∈ s.layout.workspaces)
    {tab : SessionTab} (ht : tab ∈ ws.tabs) (h2 : 2 ≤ tab.paneTree.leaves.length)
    (hp : p ∈ tab.paneTree.leaves) : SplitLeaf p s :=
  ⟨ws, hws, tab, ht, hp, fun h => by simp [h] at h2⟩

/-- Requests that each close a live pane of one split tab leave the layout alone. -/
theorem run_handleClosePane (hw : Function.Injective w.newV4) (hs : Tracked w s)
    {ws : SessionWorkspace} (hws : ws ∈ s.layout.workspaces) {tab : SessionTab}
    (ht : tab ∈ ws.tabs) (h2 : 2 ≤ tab.paneTree.leaves.length) (reqs : List Request)
    (hreqs : Meets (fun t req => (handleClosePane w req t).1)
      (fun t req => ∃ q ∈ tab.paneTree.leaves, requirePaneId req t = .ok q) s reqs) :
    (run (fun t req => (handleClosePane w req t).1) s reqs).layout = s.layout := by
  induction reqs generalizing s with
  | nil => rfl
  | cons req reqs ih =>
    obtain ⟨⟨q, hq, hreq⟩, hrest⟩ := hreqs
    have hlive := requirePaneId_live hreq
    have hstep : (handleClosePane w req s).1 = (s.unregister q).send (.paneClosed q) := by
      rw [handleClosePane, hreq]
      exact closePaneRpc_of_splitLeaf hs (splitLeaf_of_two hws ht h2 hq) hlive req
    have htracked : Tracked w (handleClosePane w req s).1 := by
      rw [hstep]
      have := hs.apply hw (.closePane q)
      rwa [apply_closePane_of_splitLeaf hs (splitLeaf_of_two hws ht h2 hq), if_pos hlive] at this
    have hlayout : (handleClosePane w req s).1.layout = s.layout := by rw [hstep]; rfl
    rw [run_cons, ih htracked (hlayout ▸ hws) hrest, hlayout]

theorem not_closesLeaf_of_layout {t : SessionManager} (hp : p ∈ s.layout.leaves)
    (h : t.layout = s.layout) : ¬ClosesLeaf p s t := fun hc =>
  s.layout.leaves_deleteLeaf p (by rw [← hc.layout, h]; exact hp)

end Split

/-- In no reachable state does the handler prune a leaf of a tab with more than
one, and a run of requests that close panes of such a tab never removes it. -/
theorem handleClosePane_keeps_layout (w : World) (hw : Function.Injective w.newV4)
    (s : SessionManager) (hs : Reachable w s) (ws : SessionWorkspace)
    (hws : ws ∈ s.layout.workspaces) (tab : SessionTab) (ht : tab ∈ ws.tabs)
    (h2 : 2 ≤ tab.paneTree.leaves.length) :
    (∀ p ∈ tab.paneTree.leaves, ∀ req, requirePaneId req s = .ok p →
      (handleClosePane w req s).1.layout = s.layout ∧
        ¬ClosesLeaf p s (handleClosePane w req s).1) ∧
    ∀ reqs, Meets (fun t req => (handleClosePane w req t).1)
        (fun t req => ∃ q ∈ tab.paneTree.leaves, requirePaneId req t = .ok q) s reqs →
      (run (fun t req => (handleClosePane w req t).1) s reqs).layout = s.layout := by
  refine ⟨fun p hp req hreq => ?_, fun reqs => run_handleClosePane hw (hs.tracked hw) hws ht h2 reqs⟩
  have hlayout := run_handleClosePane hw (hs.tracked hw) hws ht h2 [req] ⟨⟨p, hp, hreq⟩, trivial⟩
  exact ⟨hlayout, not_closesLeaf_of_layout
    (List.mem_flatMap.mpr ⟨ws, hws, List.mem_flatMap.mpr ⟨tab, ht, hp⟩⟩) hlayout⟩

/-- A manager with one tab split in two, and the request to close its second pane. -/
def splitTab : SessionManager :=
  (new .counting .empty).runOps .counting (splitThenClose.take 2)

def closeSecond : Request :=
  { method := "close_pane"
    params := .obj [("pane_id", .str "00000000-0000-0000-0000-000000000003")]
    id := none }

theorem requirePaneId_closeSecond : requirePaneId closeSecond splitTab = .ok ⟨⟨3⟩⟩ := rfl

theorem exists_splitTab : ∃ ws ∈ splitTab.layout.workspaces, ∃ tab ∈ ws.tabs,
    2 ≤ tab.paneTree.leaves.length ∧ ⟨⟨3⟩⟩ ∈ tab.paneTree.leaves := by decide

theorem handleClosePane_splitTab :
    (handleClosePane .counting closeSecond splitTab).1.layout = splitTab.layout := by
  obtain ⟨ws, hws, tab, ht, h2, hp⟩ := exists_splitTab
  exact ((handleClosePane_keeps_layout .counting World.counting_injective splitTab
    ⟨.empty, splitThenClose.take 2, rfl⟩ ws hws tab ht h2).1 _ hp closeSecond
    requirePaneId_closeSecond).1

theorem not_closesLeaf_splitTab :
    ¬ClosesLeaf ⟨⟨3⟩⟩ splitTab (handleClosePane .counting closeSecond splitTab).1 :=
  not_closesLeaf_of_layout (by decide) (by rfl)

end Forgetty
