import Forgetty.Daemon.Restored

/-! A session that is saved and restored by the next daemon. The restore of a snapshot
is planned after the trees it was taken from, so the next snapshot is the same but for
the workspace ids, which are new ones. -/

namespace Forgetty

open Lib

/-- The state with other workspace ids. -/
def WorkspaceState.withIds (state : WorkspaceState) (ids : ℕ → Uuid) : WorkspaceState :=
  { state with workspaces := state.workspaces.mapIdx fun i ws => { ws with id := ids i } }

def TabState.forgetCwds (tab : TabState) : TabState :=
  { tab with paneTree := tab.paneTree.map fun l => { l with cwd := .ofString "" } }

def Workspace.forgetCwds (ws : Workspace) : Workspace :=
  { ws with tabs := ws.tabs.map TabState.forgetCwds }

/-- The state without its working directories, which a snapshot reads anew. -/
def WorkspaceState.forgetCwds (state : WorkspaceState) : WorkspaceState :=
  { state with workspaces := state.workspaces.map Workspace.forgetCwds }

/-- All directories in a saved state are there. -/
def WorkspaceState.DirsExist (isDir : PathBuf → Bool) (state : WorkspaceState) : Prop :=
  ∀ ws ∈ state.workspaces, ∀ tab ∈ ws.tabs, ∀ l ∈ tab.paneTree.leaves, isDir l.cwd = true

/-! ### The plan for a snapshot -/

section Plan

variable {w w' : World} {isDir : PathBuf → Bool} {size : PtySize}
  {panes panes' : PMap PaneId PaneState}

/-- A tree is saved with its ids. -/
theorem sameTree_convert (t : PaneTreeLayout) : SameTree (convertPaneTreeLayout w panes t) t := by
  rw [SameTree, convertPaneTreeLayout_eq_map, LeafTree.map_map]
  rfl

/-- The tree planned for a saved tree is the one it was saved from. -/
theorem planTree_convert (hw' : w'.SpawnsSucceed) (t : PaneTreeLayout) (c : Counters) :
    (planTree w' isDir size (convertPaneTreeLayout w panes t) t.leftmost c).2 = t := by
  induction t generalizing c with
  | leaf p => rfl
  | node label first second ih₁ ih₂ =>
    have hnew := (@sameTree_convert w panes second).firstLeafPaneId
    rw [convertPaneTreeLayout, planTree_node (shellSpawns_of_succeed hw' _ _)]
    simp only [hnew, planPaneId]
    have hfirst := ih₁ c.spawn
    have hsecond := ih₂ (planTree w' isDir size (convertPaneTreeLayout w panes first) first.leftmost
      c.spawn).1
    rw [LeafTree.leftmost, hfirst, hsecond]

theorem planTab_toTabState (hw' : w'.SpawnsSucceed) (tab : SessionTab) (c : Counters) :
    ∃ id, (planTab w' isDir size (tab.toTabState w panes) c).2 =
      some { id := id, title := "", paneTree := tab.paneTree, activePaneId := none } := by
  have hroot (cwd : Option PathBuf) : ∃ id, (planRoot w' size
      (firstLeafPaneId (convertPaneTreeLayout w panes tab.paneTree)) cwd c).2 =
        some (tab.paneTree.leftmost, id) := by
    rw [(sameTree_convert tab.paneTree).firstLeafPaneId, planRoot, if_pos (shellSpawns_of_succeed hw' _ _)]
    exact ⟨_, rfl⟩
  obtain ⟨id, hid⟩ := hroot (effectiveCwd isDir
    (firstLeafCwd (convertPaneTreeLayout w panes tab.paneTree)))
  refine ⟨id, ?_⟩
  rw [planTab, SessionTab.toTabState, hid]
  simp only [planTree_convert hw']

theorem planTabs_toTabState (hw' : w'.SpawnsSucceed) (tabs : List SessionTab) (c : Counters) :
    plannedLeaves (planTabs w' isDir size (tabs.map (·.toTabState w panes)) c).2 =
      tabs.flatMap fun t => t.paneTree.leaves := by
  induction tabs generalizing c with
  | nil => rfl
  | cons tab tabs ih =>
    obtain ⟨id, hid⟩ := @planTab_toTabState w w' isDir size panes hw' tab c
    rw [List.map_cons, planTabs, plannedLeaves_cons, ih, hid, List.flatMap_cons]
    simp [plannedLeaves]

theorem planWorkspace_toWorkspace {ws : SessionWorkspace}
    (hne : ws.tabs ≠ []) (c : Counters) :
    (planWorkspace w' isDir size (ws.toWorkspace w panes) c).2.live =
      (planTabs w' isDir size (ws.tabs.map (·.toTabState w panes)) c).2.reduceOption := by
  have hempty : ¬(ws.toWorkspace w panes).tabs.isEmpty = true := by
    simpa [SessionWorkspace.toWorkspace] using hne
  rw [planWorkspace, if_neg hempty, WorkspacePlan.live, Option.toList_none, List.append_nil]
  rfl

/-- The panes planned are those of the layout. -/
theorem planWorkspaces_leaves (hw' : w'.SpawnsSucceed) {wss : List SessionWorkspace}
    (hne : ∀ ws ∈ wss, ws.tabs ≠ []) (c : Counters) :
    (planWorkspaces w' isDir size (wss.map (·.toWorkspace w panes)) c).2.flatMap
      WorkspacePlan.leaves = wss.flatMap SessionWorkspace.leaves := by
  induction wss generalizing c with
  | nil => rfl
  | cons ws wss ih =>
    rw [List.map_cons, planWorkspaces, List.flatMap_cons, List.flatMap_cons,
      ih fun v hv => hne v (List.mem_cons_of_mem _ hv), WorkspacePlan.leaves,
      planWorkspace_toWorkspace (hne ws List.mem_cons_self)]
    congr 1
    exact planTabs_toTabState hw' ws.tabs c

/-! ### Focus and directories -/

/-- A focused leaf is found again. -/
theorem livePaneIdForSaved_convert (p : PaneId) {t : PaneTreeLayout} (hp : p ∈ t.leaves) :
    livePaneIdForSaved p.uuid (convertPaneTreeLayout w panes t) t = some p := by
  rw [(sameTree_convert t).livePaneIdForSaved]
  exact if_pos hp

theorem focusOf_toTabState {tab live : SessionTab} (htree : live.paneTree = tab.paneTree)
    (hactive : ∀ p, tab.activePaneId = some p → p ∈ tab.paneTree.leaves) :
    focusOf (tab.toTabState w panes) live = tab.activePaneId := by
  rw [focusOf, htree, SessionTab.toTabState]
  cases h : tab.activePaneId with
  | none => rfl
  | some p => exact livePaneIdForSaved_convert p (hactive p h)

/-- A pane that has the saved directory is saved the same. -/
theorem savedLeaf_of_hasCwds {s : SessionManager} {t : PaneTreeLayout}
    (hdirs : ∀ l ∈ (convertPaneTreeLayout w panes t).leaves, isDir l.cwd = true)
    (h : HasCwds isDir s (convertPaneTreeLayout w panes t) t) :
    ∀ p ∈ t.leaves, savedLeaf w' s.panes p = savedLeaf w panes p := by
  induction t with
  | leaf q =>
    intro p hp
    obtain rfl := List.mem_singleton.mp hp
    have hcwd := h (hdirs _ (List.mem_singleton_self _))
    rw [SessionManager.cwdOf] at hcwd
    rw [savedLeaf, hcwd]
    rfl
  | node label first second ih₁ ih₂ =>
    rw [convertPaneTreeLayout, LeafTree.leaves_node] at hdirs
    intro p hp
    rcases List.mem_append.mp hp with hp | hp
    · exact ih₁ (fun l hl => hdirs l (List.mem_append_left _ hl)) h.1 p hp
    · exact ih₂ (fun l hl => hdirs l (List.mem_append_right _ hl)) h.2 p hp

/-! ### The next snapshot -/

/-- A restored tab is saved as the tab it was restored from. -/
theorem toTabState_focusTab {tab : SessionTab} (hs : tab.Sound) (id : Uuid)
    (hcwds : ∀ p ∈ tab.paneTree.leaves, savedLeaf w' panes' p = savedLeaf w panes p) :
    (focusTab (tab.toTabState w panes)
      { id := id, title := "", paneTree := tab.paneTree, activePaneId := none }).toTabState w'
        panes' = tab.toTabState w panes := by
  have htree : convertPaneTreeLayout w' panes' tab.paneTree =
      convertPaneTreeLayout w panes tab.paneTree := by
    rw [convertPaneTreeLayout_eq_map, convertPaneTreeLayout_eq_map]
    exact LeafTree.map_congr hcwds
  have hfocus := @focusOf_toTabState w panes tab
    { id := id, title := "", paneTree := tab.paneTree, activePaneId := none } rfl hs.focus
  simp only [focusTab, hfocus, Option.or_none]
  simp only [SessionTab.toTabState, htree, hs.title]

/-- The restored tabs are saved as the tabs they were restored from. -/
theorem toTabState_focusTabs (hw' : w'.SpawnsSucceed) {tabs : List SessionTab}
    (hs : ∀ tab ∈ tabs, tab.Sound)
    (hcwds : ∀ tab ∈ tabs, ∀ p ∈ tab.paneTree.leaves, savedLeaf w' panes' p = savedLeaf w panes p)
    (c : Counters) :
    (focusTabs (tabs.map (·.toTabState w panes)) (planTabs w' isDir size
      (tabs.map (·.toTabState w panes)) c).2.reduceOption).map (·.toTabState w' panes') =
        tabs.map (·.toTabState w panes) := by
  induction tabs generalizing c with
  | nil => rfl
  | cons tab tabs ih =>
    obtain ⟨id, hid⟩ := @planTab_toTabState w w' isDir size panes hw' tab c
    rw [List.map_cons, planTabs, hid, List.reduceOption_cons_of_some, focusTabs, List.map_cons,
      toTabState_focusTab (hs tab List.mem_cons_self) id (hcwds tab List.mem_cons_self),
      ih (fun t ht => hs t (List.mem_cons_of_mem _ ht))
        fun t ht => hcwds t (List.mem_cons_of_mem _ ht)]

/-- A restored workspace is saved as the workspace it was restored from. -/
theorem toWorkspace_focused (hw' : w'.SpawnsSucceed) {ws : SessionWorkspace} (hne : ws.tabs ≠ [])
    (hs : ws.Sound) (id : Uuid)
    (hcwds : ∀ tab ∈ ws.tabs, ∀ p ∈ tab.paneTree.leaves,
      savedLeaf w' panes' p = savedLeaf w panes p) (c : Counters) :
    ((planWorkspace w' isDir size (ws.toWorkspace w panes) c).2.focused id
      (ws.toWorkspace w panes)).toWorkspace w' panes' = { ws.toWorkspace w panes with id := id } := by
  have htabs := @toTabState_focusTabs w w' isDir size panes panes' hw' ws.tabs hs.tabs hcwds c
  have hlen := congrArg List.length htabs
  rw [List.length_map, length_focusTabs, List.length_map] at hlen
  have hpos := List.length_pos_iff.mpr hne
  have hactive := hs.active
  rw [WorkspacePlan.focused, planWorkspace_toWorkspace hne, WorkspacePlan.restored,
    planWorkspace_toWorkspace hne, SessionWorkspace.toWorkspace, hlen]
  have hlt : (ws.toWorkspace w panes).activeTab < ws.tabs.length := by
    show ws.activeTab < ws.tabs.length
    omega
  rw [if_pos hlt]
  simp only [SessionWorkspace.toWorkspace, htabs]

end Plan

section Whole

open SessionManager

variable {w w' : World} {isDir : PathBuf → Bool} {s t : SessionManager}

theorem toWorkspaceState_forgetCwds (procCwd : ℕ → Option PathBuf) :
    ((s.refreshPaneCwds procCwd).toWorkspaceState w).forgetCwds = (s.toWorkspaceState w).forgetCwds := by
  have htree (panes panes' : PMap PaneId PaneState) (tree : PaneTreeLayout) :
      (convertPaneTreeLayout w panes tree).map (fun l => { l with cwd := .ofString "" }) =
        (convertPaneTreeLayout w panes' tree).map fun l => { l with cwd := .ofString "" } := by
    rw [convertPaneTreeLayout_eq_map, convertPaneTreeLayout_eq_map, LeafTree.map_map,
      LeafTree.map_map]
    exact LeafTree.map_congr fun p _ => rfl
  simp only [WorkspaceState.forgetCwds, toWorkspaceState, List.map_map, refreshPaneCwds_layout,
    refreshPaneCwds_pinned]
  congr 1
  refine List.map_congr_left fun ws _ => ?_
  simp only [Function.comp_apply, Workspace.forgetCwds, SessionWorkspace.toWorkspace, List.map_map]
  congr 1
  refine List.map_congr_left fun tab _ => ?_
  simp only [Function.comp_apply, TabState.forgetCwds, SessionTab.toTabState, htree _ s.panes]

/-- A session restored from a snapshot is saved as the snapshot, with new workspace ids. -/
theorem toWorkspaceState_restored (hw' : w'.SpawnsSucceed) (hne : ∀ ws ∈ s.layout.workspaces, ws.tabs ≠ [])
    (hs : s.layout.Sound) (hdirs : (s.toWorkspaceState w).DirsExist isDir) {t₀ : SessionManager}
    (h₀ : t₀.pinned = false) (h : Restored w' isDir (s.toWorkspaceState w) t₀ t) :
    t.toWorkspaceState w' = (s.toWorkspaceState w).withIds w'.newV4 := by
  have hlen : (s.toWorkspaceState w).workspaces.length = s.layout.workspaces.length :=
    List.length_map _
  have hlive (i : ℕ) (ws : SessionWorkspace) (hi : s.layout.workspaces[i]? = some ws) :
      ((plannedLayout w' isDir (s.toWorkspaceState w)).workspaces[i]?).map
        (·.toWorkspace w' t.panes) = some { ws.toWorkspace w s.panes with id := w'.newV4 i } := by
    have hmem := List.mem_of_getElem? hi
    have hsaved : (s.toWorkspaceState w).workspaces[i]? = some (ws.toWorkspace w s.panes) := by
      rw [toWorkspaceState, List.getElem?_map, hi]
      rfl
    obtain ⟨c, hplan⟩ := @planWorkspaces_getElem? w' isDir .default _
      ⟨(s.toWorkspaceState w).workspaces.length, 0⟩ _ _ hsaved
    have hfocused := getElem?_focusWorkspaces (w := w') _ _ 0 hsaved hplan
    rw [Nat.zero_add] at hfocused
    have hcwds := h.cwds i _ _ hsaved hplan
    refine (congrArg (Option.map _) hfocused).trans (congrArg some ?_)
    refine toWorkspace_focused hw' (hne ws hmem) (hs.workspaces ws hmem) _ (fun tab htab => ?_) c
    obtain ⟨j, hj⟩ := List.mem_iff_getElem?.mp htab
    have htabs : (ws.toWorkspace w s.panes).tabs[j]? = some (tab.toTabState w s.panes) := by
      rw [SessionWorkspace.toWorkspace, List.getElem?_map, hj]
      rfl
    obtain ⟨c', hplanned⟩ := @planTabs_getElem? w' isDir .default _ c _ _ htabs
    obtain ⟨id, hid⟩ := @planTab_toTabState w w' isDir .default s.panes hw' tab c'
    rw [hid, ← planWorkspace_tabs] at hplanned
    have hc := hcwds j _ _ htabs hplanned
    exact savedLeaf_of_hasCwds
      (hdirs _ (List.mem_of_getElem? hsaved) _ (List.mem_of_getElem? htabs)) hc
  have hws : t.layout.workspaces.map (·.toWorkspace w' t.panes) =
      ((s.toWorkspaceState w).withIds w'.newV4).workspaces := by
    rw [h.layout]
    refine List.ext_getElem? fun i => ?_
    rw [List.getElem?_map, WorkspaceState.withIds, List.getElem?_mapIdx, toWorkspaceState,
      List.getElem?_map]
    cases hi : s.layout.workspaces[i]? with
    | some ws => exact hlive i ws hi
    | none =>
      have hle := List.getElem?_eq_none_iff.mp hi
      have hout : (plannedLayout w' isDir (s.toWorkspaceState w)).workspaces[i]? = none := by
        rw [List.getElem?_eq_none_iff, plannedLayout, length_focusWorkspaces,
          length_plannedWorkspaces, hlen]
        exact hle
      exact congrArg (Option.map _) hout
  have hactive : t.layout.activeWorkspace = s.layout.activeWorkspace := by
    rw [h.layout, plannedLayout, hlen]
    exact if_pos hs.active
  have hpinned : t.pinned = s.pinned := by
    rw [h.pinned, h₀, Bool.or_false]
    rfl
  rw [toWorkspaceState, hws, hactive, hpinned]
  rfl

/-- A session is saved and the next daemon starts from the file. The load returns what was
saved exactly if its paths are text and it is not nested deeper than the parser reads. Then
the next snapshot is the same but for the workspace ids, which are those the new daemon
made, and for the working directories, which are the saved ones until the snapshot reads
them anew. -/
theorem snapshot_restored {α : Type} {os : Os Uuid} {codec : SessionCodec α}
    (hw : Function.Injective w.newV4) (hs : SessionState w s)
    (hne : ∀ ws ∈ s.layout.workspaces, ws.tabs ≠ []) (hos : os.Works)
    (hw' : Function.Injective w'.newV4) (hspawn : w'.SpawnsSucceed) (procCwd : ℕ → Option PathBuf)
    (hdirs : (s.snapshotToWorkspaceState w procCwd).2.DirsExist isDir)
    (sessionId : Uuid) (ringKb maxMb : UInt32) (logs : PMap Uuid Bytes) (d : Disk α) :
    let saved := (s.snapshotToWorkspaceState w procCwd).2
    let disk := (saveSessionFor os codec sessionId saved d).1
    let restored := daemonStart w' isDir os codec sessionId ringKb maxMb disk logs
    ((loadSessionFor os codec sessionId disk).2 = .ok (some saved) ↔
        saved.IsText ∧ saved.nesting ≤ recursionLimit) ∧
      (saved.IsText → saved.nesting ≤ recursionLimit →
        restored.toWorkspaceState w' = saved.withIds w'.newV4 ∧
          ∀ procCwd', (restored.snapshotToWorkspaceState w' procCwd').2.forgetCwds =
            (saved.withIds w'.newV4).forgetCwds) := by
  intro saved disk restored
  have hload (htext : saved.IsText) :
      (loadSessionFor os codec sessionId disk).2 = .ok (codec.decode (codec.encode saved)) :=
    loadSessionFor_saved hos htext
  refine ⟨⟨fun hback => ?_, fun ⟨htext, hdepth⟩ => ?_⟩, fun htext hdepth => ?_⟩
  · obtain ⟨c, hc⟩ := decode_of_load hback
    have htext := codec.isText_of_decode c saved hc
    rw [hload htext, Except.ok.injEq, codec.decode_encode_iff htext] at hback
    exact ⟨htext, hback⟩
  · rw [hload htext, codec.decode_encode saved htext hdepth]
  obtain ⟨ht, hsound⟩ := hs.tracked_sound hw
  have hsaved : saved.workspaces ≠ [] := fun hnil => ht.workspaces (List.map_eq_nil_iff.mp hnil)
  have hpanes : plannedPanes w' isDir saved = s.layout.leaves := planWorkspaces_leaves hspawn hne _
  have hrestored : restored = coldStart w' isDir saved
      ((SessionManager.new w' logs).setByteLogConfig ringKb maxMb) := by
    show daemonStart _ _ _ _ _ _ _ _ _ = _
    rw [daemonStart, hload htext, codec.decode_encode saved htext hdepth]
  have h := restored_coldStart hw' hsaved (fresh_new w' logs ringKb maxMb)
    (hpanes ▸ ht.leaves_nodup)
  have hsame : restored.toWorkspaceState w' = saved.withIds w'.newV4 := by
    rw [hrestored]
    exact @toWorkspaceState_restored w w' isDir (s.refreshPaneCwds procCwd) _ hspawn hne hsound
      hdirs _ rfl h
  exact ⟨hsame, fun procCwd' => (toWorkspaceState_forgetCwds procCwd').trans (by rw [hsame])⟩

end Whole

/-! A tab with a split and a second workspace, saved by one process and restored by
another one, whose UUIDs start at 100. -/

def World.next : World := { World.counting with newV4 := fun n => ⟨100 + n⟩ }

theorem World.next_injective : Function.Injective World.next.newV4 :=
  fun _ _ h => Nat.add_left_cancel (congrArg Uuid.bits h)

def twoWorkspaces : SessionManager :=
  ((SessionManager.new .counting .empty).setByteLogConfig 1024 10).runOps .counting
    [.createTab 0 none .default none, .splitPane ⟨⟨1⟩⟩ "vertical" .default none,
      .createWorkspace "other", .createTab 1 none .default none]

theorem sessionState_twoWorkspaces : SessionState .counting twoWorkspaces :=
  ⟨_, _, .empty .empty 1024 10, rfl⟩

/-- The daemon of session 7 after its predecessor saved the two workspaces. -/
def nextDaemon : SessionManager :=
  daemonStart .next (fun _ => true) ⟨fun _ => .works, fun _ => []⟩ .doubled ⟨7⟩ 1024 10
    (saveSessionFor ⟨fun _ => .works, fun _ => []⟩ .doubled ⟨7⟩
      (twoWorkspaces.snapshotToWorkspaceState .counting fun _ => none).2 ⟨.empty, 0, []⟩).1 .empty

theorem nextDaemon_toWorkspaceState :
    nextDaemon.toWorkspaceState .next =
      (twoWorkspaces.snapshotToWorkspaceState .counting fun _ => none).2.withIds World.next.newV4 :=
  ((snapshot_restored World.counting_injective sessionState_twoWorkspaces (by decide)
    (fun _ => rfl) World.next_injective (fun n _ _ _ _ => ⟨⟨some n⟩, rfl⟩) (fun _ => none)
    (fun _ _ _ _ _ _ => rfl) ⟨7⟩ 1024 10 .empty ⟨.empty, 0, []⟩).2 (by decide) (by decide)).1

/-- A directory whose name is no text. -/
def oddDirectory : PathBuf := ⟨[0x2F, 0xFF]⟩

/-- The workspace ids are other ones, and with a shell in a directory whose name is no text
there is no file at all. -/
theorem nextDaemon_other_ids :
    SessionState .counting twoWorkspaces ∧ twoWorkspaces.layout.leaves.Nodup ∧
      (∀ p ∈ twoWorkspaces.layout.leaves, p ∈ twoWorkspaces.panes) ∧
      (∀ ws ∈ twoWorkspaces.layout.workspaces, ws.tabs ≠ []) ∧
      (nextDaemon.snapshotToWorkspaceState .next fun _ => none).2.workspaces.map (·.id) ≠
        (twoWorkspaces.snapshotToWorkspaceState .counting fun _ => none).2.workspaces.map (·.id) ∧
      (loadSessionFor ⟨fun _ => .works, fun _ => []⟩ .doubled ⟨7⟩
        (saveSessionFor ⟨fun _ => .works, fun _ => []⟩ .doubled ⟨7⟩
          (twoWorkspaces.snapshotToWorkspaceState .counting fun _ => some oddDirectory).2
          ⟨.empty, 0, []⟩).1).2 = .ok none :=
  ⟨sessionState_twoWorkspaces, by decide, by decide, by decide, by decide, rfl⟩

end Forgetty
