import Forgetty.Session.LiveFocus
import Forgetty.Session.Traffic

/-! A pane belongs to a tab. No call moves a pane to another tab: a pane that was in the
layout before a run of calls and is there after it is in the tab with the same id. -/

namespace Forgetty

open Lib

/-- The tab with the id shows the pane. -/
def SessionLayout.Holds (l : SessionLayout) (id : Uuid) (p : PaneId) : Prop :=
  ∃ ws ∈ l.workspaces, ∃ tab ∈ ws.tabs, tab.id = id ∧ p ∈ tab.paneTree.leaves

namespace SessionLayout

variable {l : SessionLayout} {id id' : Uuid} {p : PaneId}

theorem Holds.leaf (h : l.Holds id p) : p ∈ l.leaves := by
  obtain ⟨ws, hws, tab, htab, -, hp⟩ := h
  exact List.mem_flatMap.mpr ⟨ws, hws, List.mem_flatMap.mpr ⟨tab, htab, hp⟩⟩

theorem exists_holds (h : p ∈ l.leaves) : ∃ id, l.Holds id p := by
  obtain ⟨ws, hws, h⟩ := List.mem_flatMap.mp h
  obtain ⟨tab, htab, hp⟩ := List.mem_flatMap.mp h
  exact ⟨tab.id, ws, hws, tab, htab, rfl, hp⟩

/-- In a layout that shows every pane once, a pane has one tab. -/
theorem tab_eq (hd : l.leaves.Nodup) {tab tab' : SessionTab} (ht : tab ∈ l.tabs)
    (ht' : tab' ∈ l.tabs) (hp : p ∈ tab.paneTree.leaves) (hp' : p ∈ tab'.paneTree.leaves) :
    tab = tab' := by
  rw [leaves_eq] at hd
  exact eq_of_mem_flatMap hd ht ht' hp hp'

theorem holds_of_mem_tabs {tab : SessionTab} (ht : tab ∈ l.tabs) (hp : p ∈ tab.paneTree.leaves) :
    l.Holds tab.id p := by
  obtain ⟨ws, hws, htab⟩ := List.mem_flatMap.mp ht
  exact ⟨ws, hws, tab, htab, rfl, hp⟩

theorem Holds.tab (h : l.Holds id p) : ∃ tab ∈ l.tabs, tab.id = id ∧ p ∈ tab.paneTree.leaves := by
  obtain ⟨ws, hws, tab, htab, h⟩ := h
  exact ⟨tab, List.mem_flatMap.mpr ⟨ws, hws, htab⟩, h⟩

theorem Holds.eq (hd : l.leaves.Nodup) (h : l.Holds id p) (h' : l.Holds id' p) : id' = id := by
  obtain ⟨tab, ht, rfl, hp⟩ := h.tab
  obtain ⟨tab', ht', rfl, hp'⟩ := h'.tab
  rw [tab_eq hd ht ht' hp hp']

end SessionLayout

namespace SessionManager

section Step

variable {w : World} {s t : SessionManager} {id : Uuid} {p q : PaneId}

/-- A workspace whose tabs show the pane only where the workspace before showed it. -/
def Brings (p : PaneId) (ws ws' : SessionWorkspace) : Prop :=
  ∀ tab' ∈ ws'.tabs, p ∈ tab'.paneTree.leaves →
    ∃ tab ∈ ws.tabs, tab.id = tab'.id ∧ p ∈ tab.paneTree.leaves

theorem holds_of_mem {ws' : SessionWorkspace} (hws' : ws' ∈ s.layout.workspaces)
    {tab : SessionTab} (htab : tab ∈ ws'.tabs) (hid : tab.id = id) (hp : p ∈ tab.paneTree.leaves) :
    s.layout.Holds id p := ⟨ws', hws', tab, htab, hid, hp⟩

theorem holds_of_eq (ht : t.layout.workspaces = s.layout.workspaces) (h : t.layout.Holds id p) :
    s.layout.Holds id p := by
  rwa [SessionLayout.Holds, ht] at h

/-- A change of one workspace. -/
theorem holds_of_modify {i : ℕ} {f : SessionWorkspace → SessionWorkspace}
    (hf : ∀ ws, s.layout.workspaces[i]? = some ws → Brings p ws (f ws))
    (ht : t.layout.workspaces = s.layout.workspaces.modify i f) (h : t.layout.Holds id p) :
    s.layout.Holds id p := by
  obtain ⟨ws', hws', tab', htab', rfl, hp⟩ := h
  rw [ht] at hws'
  rcases mem_modify hws' with ⟨ws, hws, rfl⟩ | ⟨k, -, hws⟩
  · obtain ⟨tab, htab, hid, hp⟩ := hf ws hws tab' htab' hp
    exact holds_of_mem (List.mem_of_getElem? hws) htab hid hp
  · exact holds_of_mem (List.mem_of_getElem? hws) htab' rfl hp

theorem brings_self {ws ws' : SessionWorkspace} (h : ∀ tab ∈ ws'.tabs, tab ∈ ws.tabs) :
    Brings p ws ws' := fun tab' htab' hp => ⟨tab', h tab' htab', rfl, hp⟩

theorem brings_addTab {tabId : Uuid} {ws : SessionWorkspace} (h : p ≠ q) :
    Brings p ws (addTab tabId q ws) := by
  intro tab' htab' hp
  rcases List.mem_append.mp htab' with htab' | htab'
  · exact ⟨tab', htab', rfl, hp⟩
  · rw [List.mem_singleton.mp htab'] at hp
    exact absurd (List.mem_singleton.mp hp) h

/-- A split brings in no pane but the new one. -/
theorem brings_split {ws : SessionWorkspace} (j : ℕ) (r : PaneId) (direction : String)
    (ratio : F32) (h : p ≠ q) :
    Brings p ws { ws with tabs := ws.tabs.modify j fun tab =>
      { tab with paneTree := (replaceLeafWithRatio r q direction ratio tab.paneTree).1 } } := by
  intro tab' htab' hp
  rcases mem_modify htab' with ⟨tab, htab, rfl⟩ | ⟨k, -, htab⟩
  · refine ⟨tab, List.mem_of_getElem? htab, rfl, ?_⟩
    by_cases hr : r ∈ tab.paneTree.leaves
    · have hp := (replaceLeafWithRatio_leaves hr).subset hp
      rcases List.mem_append.mp hp with hp | hp
      · exact hp
      · exact absurd (List.mem_singleton.mp hp) h
    · simpa only [replaceLeafWithRatio_miss hr] using hp
  · exact ⟨tab', List.mem_of_getElem? htab, rfl, hp⟩

theorem brings_writeActivePane {tabId : Uuid} {r : Option PaneId} {ws : SessionWorkspace} :
    Brings p ws (writeActivePane tabId r ws) := by
  intro tab' htab' hp
  rcases mem_modify htab' with ⟨tab, htab, rfl⟩ | ⟨k, -, htab⟩
  · exact ⟨tab, List.mem_of_getElem? htab, rfl, hp⟩
  · exact ⟨tab', List.mem_of_getElem? htab, rfl, hp⟩

/-- A pane that was shown before is not among those that came. -/
theorem not_mem_gained {qs : List PaneId} (hd : t.layout.leaves.Nodup)
    (hperm : t.layout.leaves.Perm (s.layout.leaves ++ qs)) (hp : p ∈ s.layout.leaves) : p ∉ qs := by
  intro hq
  have hd := hperm.nodup_iff.mp hd
  rw [List.nodup_append] at hd
  exact hd.2.2 p hp p hq rfl

theorem leaves_split {ws : SessionWorkspace} {j : ℕ} {tab : SessionTab} {r : PaneId}
    (htab : ws.tabs[j]? = some tab) (hr : r ∈ tab.paneTree.leaves) (direction : String)
    (ratio : F32) :
    ({ ws with tabs := ws.tabs.modify j fun tab =>
        { tab with paneTree := (replaceLeafWithRatio r q direction ratio tab.paneTree).1 } } :
      SessionWorkspace).leaves.Perm (ws.leaves ++ [q]) := by
  obtain ⟨pre, post, hs, -, hm, -⟩ := exists_split htab
  simp only [SessionWorkspace.leaves]
  rw [hm, hs]
  exact flatMap_perm_of_gain (replaceLeafWithRatio_leaves hr)

theorem leaves_addTab (tabId : Uuid) (q : PaneId) (ws : SessionWorkspace) :
    (addTab tabId q ws).leaves.Perm (ws.leaves ++ [q]) := by
  rw [addTab, SessionWorkspace.leaves, List.flatMap_append]
  exact List.Perm.refl _

/-- A pane and a workspace that got a tab for another pane. -/
theorem ne_of_modify {i : ℕ} {f : SessionWorkspace → SessionWorkspace} {ws : SessionWorkspace}
    (hd : t.layout.leaves.Nodup) (ht : t.layout.workspaces = s.layout.workspaces.modify i f)
    (hws : s.layout.workspaces[i]? = some ws) (hf : (f ws).leaves.Perm (ws.leaves ++ [q]))
    (hp : p ∈ s.layout.leaves) : p ≠ q := by
  have hperm : t.layout.leaves.Perm (s.layout.leaves ++ [q]) := by
    rw [SessionLayout.leaves, ht]
    exact leaves_modify hws hf
  exact fun h => not_mem_gained hd hperm hp (List.mem_singleton.mpr h)

theorem Edit.holds (h : Edit w s t) (hd : t.layout.leaves.Nodup) (hp : p ∈ s.layout.leaves)
    (hold : t.layout.Holds id p) : s.layout.Holds id p := by
  cases h with
  | quiet es output changed => exact holds_of_eq changed.workspaces hold
  | split i ws j tab r q direction ratio hws htab hr changed =>
    have hne := ne_of_modify hd changed.workspaces hws (leaves_split htab hr direction ratio) hp
    exact holds_of_modify (fun ws _ => brings_split j r direction ratio hne) changed.workspaces hold
  | tabMoved i ws j k tab hws htab hk changed =>
    refine holds_of_modify (fun ws' hws' => ?_) changed.workspaces hold
    obtain rfl := Option.some.inj (hws.symm.trans hws')
    exact brings_self fun tab' h => (insertIdx_eraseIdx_perm htab hk).subset h
  | workspaceMade name changed =>
    obtain ⟨ws', hws', tab', htab', hid, hp⟩ := hold
    rw [changed.workspaces] at hws'
    rcases List.mem_append.mp hws' with hws' | hws'
    · exact holds_of_mem hws' htab' hid hp
    · rw [List.mem_singleton.mp hws'] at htab'
      exact absurd htab' List.not_mem_nil
  | workspaceDeleted i ws hws hlen changed =>
    obtain ⟨ws', hws', tab', htab', hid, hp⟩ := hold
    rw [changed.workspaces] at hws'
    exact holds_of_mem (List.mem_of_mem_eraseIdx hws') htab' hid hp
  | duplicated i n dupName dupTabs hi hn changed =>
    obtain ⟨ws', hws', tab', htab', hid, hp'⟩ := hold
    have hperm := List.perm_insertIdx
      ({ id := w.newV4 n, name := dupName, tabs := dupTabs.map fun dt => .ofLeaf dt.tabId dt.paneId,
         activeTab := 0, color := none } : SessionWorkspace) s.layout.workspaces
      (Nat.succ_le_of_lt hi)
    rw [changed.workspaces] at hws'
    rcases List.mem_cons.mp (hperm.subset hws') with rfl | hws'
    · have hleaves : t.layout.leaves.Perm (s.layout.leaves ++ SessionWorkspace.leaves
          { id := w.newV4 n, name := dupName, color := none, activeTab := 0
            tabs := dupTabs.map fun dt => .ofLeaf dt.tabId dt.paneId }) := by
        rw [SessionLayout.leaves, changed.workspaces]
        exact (hperm.flatMap_right _).trans List.perm_append_comm
      exact absurd (List.mem_flatMap.mpr ⟨tab', htab', hp'⟩) (not_mem_gained hd hleaves hp)
    · exact holds_of_mem hws' htab' hid hp'
  | swapped i j u v hi hj changed =>
    obtain ⟨ws', hws', tab', htab', hid, hp⟩ := hold
    rw [changed.workspaces] at hws'
    exact holds_of_mem ((swapIdx_perm _ i j).subset hws') htab' hid hp
  | renamed i id name changed =>
    refine holds_of_modify (fun ws _ => ?_) changed.workspaces hold
    exact brings_self fun tab h => h
  | colored i id color changed =>
    refine holds_of_modify (fun ws _ => ?_) changed.workspaces hold
    exact brings_self fun tab h => h
  | ratios updates changed =>
    obtain ⟨ws', hws', tab', htab', hid, hp⟩ := hold
    rw [changed.workspaces] at hws'
    obtain ⟨ws, hws, rfl⟩ := List.mem_map.mp hws'
    obtain ⟨tab, htab, rfl⟩ := List.mem_map.mp htab'
    refine holds_of_mem hws htab hid ?_
    simpa only [updateRatios_leaves] using hp

theorem Closed.holds {i : ℕ} {drop : SessionTab → Bool} {gone : List PaneId}
    {told : List SessionEvent} (h : Closed w i drop gone told s t) (hp : Old w p s)
    (hold : t.layout.Holds id p) : s.layout.Holds id p := by
  cases h with
  | left changed =>
    refine holds_of_modify (fun ws _ => ?_) changed.workspaces hold
    exact brings_self fun tab h => (mem_dropTabs.mp h).1
  | seeded n minted emptied changed =>
    refine holds_of_modify (fun ws _ tab' htab' hp' => ?_) changed.workspaces hold
    obtain ⟨tab, htab, h⟩ := brings_addTab (hp n minted) tab' htab' hp'
    exact ⟨tab, (mem_dropTabs.mp htab).1, h⟩

/-- One case for each outcome of the call. -/
theorem holds_invoke (hs : Identified w s) (call : Call)
    (hd : (s.invoke w call).layout.leaves.Nodup) (hp : p ∈ s.layout.leaves) (hn : Old w p s)
    (hold : (s.invoke w call).layout.Holds id p) : s.layout.Holds id p := by
  have hout := outcome_invoke hs call
  generalize s.invoke w call = t at hd hold hout
  cases hout with
  | unchanged _ _ h => exact holds_of_eq h.workspaces hold
  | edit _ _ h => exact h.holds hd hp hold
  | paneMade size cwd command shell login changed =>
    refine holds_of_modify (fun ws hws => ?_) changed.workspaces hold
    exact brings_addTab (ne_of_modify hd changed.workspaces hws (leaves_addTab _ _ ws) hp)
  | tabMade _ i tabId q _ changed =>
    refine holds_of_modify (fun ws hws => ?_) changed.workspaces hold
    exact brings_addTab (ne_of_modify hd changed.workspaces hws (leaves_addTab _ _ ws) hp)
  | paneClosed q _ _ changed => exact holds_of_eq changed.workspaces hold
  | leafClosed q i ws _ _ _ h => exact h.holds hn hold
  | tabClosed i ws tab qs _ _ _ h => exact h.holds hn hold
  | tabActivated i j changed =>
    refine holds_of_modify (fun ws _ => ?_) changed.workspaces hold
    exact brings_self fun tab h => h
  | workspaceActivated i _ changed => exact holds_of_eq changed.workspaces hold
  | paneActivated i tabId q ws tab _ _ _ changed =>
    exact holds_of_modify (fun ws _ => brings_writeActivePane) changed.workspaces hold

end Step

/-! ### Runs -/

section Runs

variable {w : World} {s : SessionManager} {id id' : Uuid} {p : PaneId}

/-- A pane that came before the call is not shown for the first time after it. -/
theorem leaf_of_apply (hw : Function.Injective w.newV4) (hs : Tracked w s) (hn : Old w p s) (op : Op)
    (hp : p ∈ (s.apply w op).layout.leaves) : p ∈ s.layout.leaves := by
  by_cases hop : KeepsSplits s op
  · obtain ⟨gone, new, he, hm⟩ := apply_effect hw hs op hop
    rcases List.mem_append.mp (he.leaves.subset hp) with hp | hp
    · exact (List.mem_filter.mp hp).1
    · obtain ⟨n, hle, -, rfl⟩ := hm.2 p hp
      exact absurd rfl (hn n hle)
  · simp only [KeepsSplits, not_forall, not_not] at hop
    obtain ⟨q, rfl, hq⟩ := hop
    rw [apply_closePane_of_splitLeaf hs hq] at hp
    split_ifs at hp
    · exact hp
    · exact hp

theorem Tracked.runOps (hw : Function.Injective w.newV4) (hs : Tracked w s) (ops : List Op) :
    Tracked w (s.runOps w ops) := (along_of_step hs fun _ op ht => Tracked.apply hw ht op).last

theorem inherits_runOps (ops : List Op) (s : SessionManager) : Inherits w s (s.runOps w ops) := by
  induction ops generalizing s with
  | nil => exact .refl w s
  | cons op ops ih => exact (inherits_apply w op s).trans (ih _)

theorem holds_apply (hw : Function.Injective w.newV4) (hs : Tracked w s) (hi : Identified w s)
    (hn : Old w p s) (op : Op) (h : (s.apply w op).layout.Holds id p) : s.layout.Holds id p := by
  refine holds_invoke hi (.op op) ?_ (leaf_of_apply hw hs hn op h.leaf) hn h
  exact (hs.apply hw op).leaves_nodup

/-- What holds a pane after a run held it before. -/
theorem holds_runOps (hw : Function.Injective w.newV4) (hs : Tracked w s) (hi : Identified w s)
    (hn : Old w p s) (ops : List Op) (h : (s.runOps w ops).layout.Holds id p) :
    s.layout.Holds id p := by
  induction ops generalizing s with
  | nil => exact h
  | cons op ops ih =>
    have hinh := inherits_apply w op s
    exact holds_apply hw hs hi hn op
      (ih (hs.apply hw op) (hinh.identified hw hi) (hn.mono hinh.minted) h)

theorem Reachable.identified (hw : Function.Injective w.newV4) (h : Reachable w s) :
    Identified w s := by
  obtain ⟨logs, ops, rfl⟩ := h
  have h := identified_fresh hw logs 0 0
  exact (inherits_runOps ops (new w logs)).identified hw ⟨h.nodup, h.fresh⟩

/-- In every run of calls from a reachable state: what shows a pane of a tab afterwards is the
tab with the same id. -/
theorem Reachable.holds_runOps_iff (hw : Function.Injective w.newV4) (hs : Reachable w s)
    (h : s.layout.Holds id p) (ops : List Op) :
    (s.runOps w ops).layout.Holds id' p ↔ p ∈ (s.runOps w ops).layout.leaves ∧ id' = id := by
  have ht := hs.tracked hw
  have hkept : ∀ id', (s.runOps w ops).layout.Holds id' p → id' = id := fun id' h' =>
    h.eq ht.leaves_nodup (holds_runOps hw ht (hs.identified hw) (ht.old h.leaf) ops h')
  constructor
  · exact fun h' => ⟨h'.leaf, hkept id' h'⟩
  · rintro ⟨hleaf, rfl⟩
    obtain ⟨id'', h''⟩ := SessionLayout.exists_holds hleaf
    rwa [hkept id'' h''] at h''

def twoTabsMade : SessionManager :=
  (new .counting .empty).runOps .counting
    [.createTab 0 none .default none, .createTab 0 none .default none]

/-- The pane of the first tab is split, and the tab is moved behind the second. -/
theorem holds_runOps_iff_splitAndMoved :
    (twoTabsMade.runOps .counting
        [.splitPane ⟨⟨1⟩⟩ "horizontal" .default none, .moveTab ⟨2⟩ 1]).layout.Holds ⟨2⟩ ⟨⟨1⟩⟩ ↔
      ⟨⟨1⟩⟩ ∈ (twoTabsMade.runOps .counting
        [.splitPane ⟨⟨1⟩⟩ "horizontal" .default none, .moveTab ⟨2⟩ 1]).layout.leaves ∧
        (⟨2⟩ : Uuid) = ⟨2⟩ :=
  Reachable.holds_runOps_iff World.counting_injective ⟨_, _, rfl⟩
    ⟨_, List.mem_cons_self, _, List.mem_cons_self, by decide, by decide⟩ _

end Runs

end SessionManager

end Forgetty
