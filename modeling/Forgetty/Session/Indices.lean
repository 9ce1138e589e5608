import Forgetty.Session.Coherence

/-! The active workspace and the active tabs are in bounds, every focus pointer
points at a leaf of its tab, and no tab has a title of its own. Every operation
keeps this; closing a pane as long as no more than one tab of a workspace goes away,
which distinct leaves make sure of. -/

namespace Forgetty

open Lib

structure SessionTab.Sound (tab : SessionTab) : Prop where
  title : tab.title = ""
  focus : ∀ p, tab.activePaneId = some p → p ∈ tab.paneTree.leaves

/-- An empty workspace has the active index 0. -/
structure SessionWorkspace.Sound (ws : SessionWorkspace) : Prop where
  active : ws.activeTab < max ws.tabs.length 1
  tabs : ∀ tab ∈ ws.tabs, tab.Sound

structure SessionLayout.Sound (l : SessionLayout) : Prop where
  active : l.activeWorkspace < l.workspaces.length
  workspaces : ∀ ws ∈ l.workspaces, ws.Sound

theorem SessionTab.sound_ofLeaf (id : Uuid) (p : PaneId) : (SessionTab.ofLeaf id p).Sound where
  title := rfl
  focus _ h := nomatch h

theorem SessionLayout.sound_newDefault (id : Uuid) : (SessionLayout.newDefault id).Sound where
  active := Nat.one_pos
  workspaces ws hws := by
    rw [newDefault, List.mem_singleton] at hws
    subst hws
    exact ⟨Nat.one_pos, by simp⟩

section Workspace

variable {ws : SessionWorkspace} {tab : SessionTab}

theorem SessionWorkspace.Sound.pushTab (h : ws.Sound) (ht : tab.Sound) :
    ({ ws with tabs := ws.tabs ++ [tab] } : SessionWorkspace).Sound where
  active := by
    have ha := h.active
    simp only [List.length_append, List.length_singleton]
    omega
  tabs t hmem := by
    rcases List.mem_append.mp hmem with hmem | hmem
    · exact h.tabs t hmem
    · exact (List.mem_singleton.mp hmem) ▸ ht

/-- Clamping brings the active index in bounds. -/
theorem clampActiveTab_lt (ws : SessionWorkspace) (h : ws.tabs = [] → ws.activeTab < 1) :
    (SessionManager.clampActiveTab ws).activeTab <
      max (SessionManager.clampActiveTab ws).tabs.length 1 := by
  rw [SessionManager.clampActiveTab_tabs, SessionManager.clampActiveTab]
  split_ifs with hc
  · have hpos := List.length_pos_iff.mpr hc.2
    show ws.tabs.length - 1 < max ws.tabs.length 1
    omega
  · by_cases hnil : ws.tabs = []
    · have h1 := h hnil
      omega
    · have hlt : ¬ws.tabs.length ≤ ws.activeTab := fun hle => hc ⟨hle, hnil⟩
      omega

theorem SessionWorkspace.Sound.eraseIdx (h : ws.Sound) (j : ℕ) (hj : j < ws.tabs.length) :
    (SessionManager.clampActiveTab { ws with tabs := ws.tabs.eraseIdx j }).Sound where
  active := by
    refine clampActiveTab_lt _ fun hnil => ?_
    have ha := h.active
    have hlen := List.length_eraseIdx_of_lt hj
    rw [show ws.tabs.eraseIdx j = [] from hnil, List.length_nil] at hlen
    show ws.activeTab < 1
    omega
  tabs t hmem := by
    rw [SessionManager.clampActiveTab_tabs] at hmem
    exact h.tabs t (List.mem_of_mem_eraseIdx hmem)

/-- One tab at most is the given leaf alone when the leaves are distinct. -/
theorem length_le_one_of_leaf {tabs : List SessionTab} {p : PaneId}
    (hd : (tabs.flatMap fun t => t.paneTree.leaves).Nodup)
    (h : ∀ t ∈ tabs, t.paneTree = .leaf p) : tabs.length ≤ 1 := by
  match tabs with
  | [] => exact Nat.zero_le 1
  | [t] => exact le_rfl
  | t :: t' :: rest =>
    rw [List.flatMap_cons, List.flatMap_cons, h t (by simp), h t' (by simp)] at hd
    simp at hd

theorem SessionWorkspace.Sound.dropLeafTabsOf (h : ws.Sound) {p : PaneId}
    (hone : (∀ t ∈ ws.tabs, t.paneTree = .leaf p) → ws.tabs.length ≤ 1) (i : ℕ) :
    (SessionManager.dropLeafTabsOf p i ws).1.Sound where
  active := by
    have ha := h.active
    have hnil : (ws.tabs.filter fun t => t.paneTree ≠ .leaf p) = [] → ws.tabs.length ≤ 1 := by
      intro hf
      refine hone fun t ht => ?_
      simpa using List.filter_eq_nil_iff.mp hf t ht
    rw [SessionManager.dropLeafTabsOf]
    generalize ws.tabs.filter (fun t => t.paneTree ≠ .leaf p) = kept at hnil ⊢
    dsimp only
    by_cases hlen : ws.tabs.length = kept.length
    · rw [if_neg (not_not.mpr hlen)]
      rw [hlen] at ha
      exact ha
    · rw [if_pos hlen]
      refine clampActiveTab_lt _ fun hk => ?_
      have hone := hnil hk
      show ws.activeTab < 1
      omega
  tabs t hmem := by
    rw [SessionManager.dropLeafTabsOf_tabs] at hmem
    exact h.tabs t (List.mem_of_mem_filter hmem)

theorem SessionWorkspace.Sound.writeActivePane (h : ws.Sound) {tabId : Uuid} {p : Option PaneId}
    (hp : ∀ tab, ws.tabs.find? (·.id = tabId) = some tab → ∀ q, p = some q →
      q ∈ tab.paneTree.leaves) : (SessionManager.writeActivePane tabId p ws).Sound where
  active := by
    have ha := h.active
    simpa [SessionManager.writeActivePane] using ha
  tabs := by
    refine forall_mem_modify h.tabs fun tab hget => ?_
    have hfind : ws.tabs.find? (·.id = tabId) = some tab := by
      rw [List.find?_eq_some_iff_getElem]
      obtain ⟨hlt, hget⟩ := List.getElem?_eq_some_iff.mp hget
      have hid := List.findIdx_getElem (w := hlt)
      rw [hget] at hid
      refine ⟨hid, _, hlt, hget, fun j hj => ?_⟩
      simpa using List.not_of_lt_findIdx hj
    exact ⟨(h.tabs tab (List.mem_of_getElem? hget)).title, hp tab hfind⟩

end Workspace

/-! ### The layout -/

namespace SessionManager

section Layout

variable {w : World} {s t : SessionManager}

theorem sound_modify (h : s.layout.Sound) {i : ℕ} {f : SessionWorkspace → SessionWorkspace}
    (hf : ∀ ws, s.layout.workspaces[i]? = some ws → ws.Sound → (f ws).Sound) :
    (s.modifyWorkspace i f).layout.Sound where
  active := by
    have ha := h.active
    simpa using ha
  workspaces := forall_mem_modify h.workspaces fun ws hws =>
    hf ws hws (h.workspaces ws (List.mem_of_getElem? hws))

/-- A fresh tab at the end of a workspace. -/
theorem sound_pushTab (h : s.layout.Sound) (i : ℕ) (id : Uuid) (p : PaneId) :
    (s.pushTab i (.ofLeaf id p)).layout.Sound :=
  sound_modify h fun _ _ hws => hws.pushTab (SessionTab.sound_ofLeaf id p)

theorem sound_createTabWithPaneId (h : s.layout.Sound) (i : ℕ) (cwd : Option PathBuf)
    (size : PtySize) (command : Option (List String)) (p : PaneId) :
    (s.createTabWithPaneId w i cwd size command p).1.layout.Sound := by
  unfold createTabWithPaneId
  split_ifs
  · exact h
  · split
    · exact h
    · dsimp only
      rw [spawnDrainTask_layout]
      exact sound_pushTab (s := (s.countSpawn.registerPane _).mint) h i _ p

theorem sound_createPane (h : s.layout.Sound) (size : PtySize) (cwd : Option PathBuf)
    (command : Option (List String)) (shell : Option String) (login : Bool) :
    (s.createPane w size cwd command shell login).1.layout.Sound := by
  unfold createPane
  dsimp only
  split
  · exact h
  · rw [spawnDrainTask_layout]
    exact sound_pushTab (s := (s.mint.countSpawn.registerPane _).mint) h 0 _ _

theorem sound_healEmptied (h : s.layout.Sound) (emptied : Option ℕ) :
    (s.healEmptied w emptied).layout.Sound := by
  have hseed (i : ℕ) : (s.autoSeedDefaultTab w i .default).1.layout.Sound := by
    unfold autoSeedDefaultTab
    split_ifs
    · exact h
    · split
      · exact h
      · refine sound_modify (sound_pushTab (s := (s.countSpawn.mint.registerPane _).mint) h i _ _)
          fun ws _ hws => ⟨?_, hws.tabs⟩
        show 0 < max _ 1
        omega
  unfold healEmptied
  split
  · exact h
  · rename_i i
    split_ifs
    · have hi := hseed i
      split <;> rename_i heq <;> rw [heq] at hi
      · rw [spawnDrainTask_layout]
        exact hi
      · exact hi
    · exact h

theorem sound_closeTab (h : s.layout.Sound) (tabId : Uuid) :
    (s.closeTab w tabId).1.layout.Sound := by
  unfold closeTab
  split
  · exact h
  · rename_i i j heq
    obtain ⟨ws, tab, hws, htab, -⟩ := findTab_spec heq
    obtain ⟨hj, -⟩ := List.getElem?_eq_some_iff.mp htab
    apply sound_healEmptied
    rw [send_layout, unregisters_closeTabPane.foldl_layout]
    refine sound_modify h fun ws' hws' hs => hs.eraseIdx j ?_
    obtain rfl := Option.some.inj (hws.symm.trans hws')
    exact hj

theorem sound_moveTab (h : s.layout.Sound) (tabId : Uuid) (newIndex : ℕ) :
    (s.moveTab tabId newIndex).1.layout.Sound := by
  unfold moveTab
  split
  · exact h
  · rename_i i j heq
    split
    · exact h
    · rename_i ws hws
      dsimp only
      split_ifs
      · exact h
      · split
        · exact h
        · rename_i tab htab
          have hp := insertIdx_eraseIdx_perm htab (Nat.min_le_right newIndex _)
          refine sound_modify h fun ws' hws' hs => ?_
          obtain rfl := Option.some.inj (hws.symm.trans hws')
          refine ⟨?_, fun t ht => hs.tabs t (hp.mem_iff.mp ht)⟩
          have ha := hs.active
          have hlen := hp.length_eq
          dsimp only
          rw [hlen]
          cases hn : ((ws.tabs[ws.activeTab]?).map (·.id)).bind fun activeId =>
            ((ws.tabs.eraseIdx j).insertIdx (min newIndex (ws.tabs.length - 1)) tab).findIdx?
              (·.id = activeId) with
          | none => exact ha
          | some k =>
            obtain ⟨activeId, -, hk⟩ := Option.bind_eq_some_iff.mp hn
            obtain ⟨hlt, -⟩ := List.findIdx?_eq_some_iff_getElem.mp hk
            rw [hlen] at hlt
            show k < _
            omega

theorem sound_createWorkspace (h : s.layout.Sound) (name : String) :
    (s.createWorkspace w name).1.layout.Sound where
  active := by
    have ha := h.active
    simp [createWorkspace]
    omega
  workspaces ws hws := by
    rcases List.mem_append.mp hws with hws | hws
    · exact h.workspaces ws hws
    · rw [List.mem_singleton] at hws
      subst hws
      exact ⟨Nat.one_pos, by simp⟩

theorem sound_deleteWorkspace (h : s.layout.Sound) (i : ℕ) :
    (s.deleteWorkspace i).1.layout.Sound := by
  unfold deleteWorkspace
  split
  · exact h
  · rename_i ws hws
    obtain ⟨hi, -⟩ := List.getElem?_eq_some_iff.mp hws
    split_ifs with hlen
    · exact h
    · have ha := h.active
      have hlayout := unregisters_deletePane.foldl_layout
      have hlen' := List.length_eraseIdx_of_lt hi
      constructor
      · simp only [send_layout, setActive_activeWorkspace, setActive_workspaces,
          setWorkspaces_workspaces, setWorkspaces_activeWorkspace, hlayout, hlen']
        split_ifs <;> omega
      · intro v hv
        simp only [send_layout, setActive_workspaces, setWorkspaces_workspaces, hlayout] at hv
        exact h.workspaces v (List.mem_of_mem_eraseIdx hv)

/-- A layout that differs by nothing `Sound` speaks of. -/
theorem sound_of_eq (h : s.layout.Sound) (heq : t.layout = s.layout) : t.layout.Sound := heq ▸ h

theorem sound_moveWorkspace (h : s.layout.Sound) (i j : ℕ) :
    (s.moveWorkspace i j).1.layout.Sound := by
  unfold moveWorkspace
  dsimp only
  split
  · exact h
  · exact h
  · rename_i fromWs toWs hi hj
    split_ifs
    · exact h
    all_goals
      have ha := h.active
      have hperm := set_set_perm hi hj
      have hlen := hperm.length_eq
      obtain ⟨hilt, -⟩ := List.getElem?_eq_some_iff.mp hi
      obtain ⟨hjlt, -⟩ := List.getElem?_eq_some_iff.mp hj
      refine ⟨?_, fun v hv => h.workspaces v (hperm.mem_iff.mp hv)⟩
      simp only [send_layout, setActive_activeWorkspace, setActive_workspaces,
        setWorkspaces_workspaces, hlen]
      omega

theorem duplicateSpawn_layout (size : PtySize) (total : ℕ) (cwds : List (Option PathBuf))
    (acc : List (PaneId × PtyBridge × PathBuf)) (s : SessionManager) :
    (duplicateSpawn w size total cwds acc s).1.layout = s.layout := by
  induction cwds generalizing acc s with
  | nil => rfl
  | cons cwd cwds ih =>
    rw [duplicateSpawn]
    dsimp only
    split
    · rw [ih]
      rfl
    · rfl

theorem duplicateTabs_sound (size : PtySize) (spawned : List (PaneId × PtyBridge × PathBuf))
    (s : SessionManager) :
    (duplicateTabs w size spawned s).1.layout = s.layout ∧
      ∀ tab ∈ (duplicateTabs w size spawned s).2.1, tab.Sound := by
  induction spawned generalizing s with
  | nil => exact ⟨rfl, nofun⟩
  | cons x spawned ih =>
    obtain ⟨p, bridge, cwd⟩ := x
    rw [duplicateTabs]
    obtain ⟨hl, ht⟩ := ih (s.registerPane (.spawned p bridge cwd size)).mint
    refine ⟨hl, fun tab hmem => ?_⟩
    rcases List.mem_cons.mp hmem with rfl | hmem
    · exact SessionTab.sound_ofLeaf _ p
    · exact ht tab hmem

theorem foldl_spawnDrainTask_layout (dupTabs : List DuplicatedTab) (s : SessionManager) :
    (dupTabs.foldl (fun sm dt => sm.spawnDrainTask w dt.paneId) s).layout = s.layout := by
  induction dupTabs generalizing s with
  | nil => rfl
  | cons dt dupTabs ih => rw [List.foldl_cons, ih, spawnDrainTask_layout]

theorem sound_duplicateCommit (h : s.layout.Sound) (size : PtySize) (name : String) (insertAt : ℕ)
    (spawned : List (PaneId × PtyBridge × PathBuf)) :
    (s.duplicateCommit w size name insertAt spawned).1.layout.Sound := by
  obtain ⟨hl, ht⟩ := duplicateTabs_sound (w := w) size spawned s.mint
  have ha := h.active
  constructor
  · simp only [duplicateCommit, sendAll_layout, send_layout, setActive_activeWorkspace,
      setActive_workspaces, setWorkspaces_workspaces, setWorkspaces_activeWorkspace, hl,
      mint_layout, List.length_insertIdx_of_le_length (Nat.min_le_right _ _)]
    split_ifs <;> omega
  · intro ws hws
    simp only [duplicateCommit, sendAll_layout, send_layout, setActive_workspaces,
      setWorkspaces_workspaces, hl, mint_layout] at hws
    rcases List.mem_cons.mp ((List.perm_insertIdx _ _ (Nat.min_le_right _ _)).mem_iff.mp hws) with
      rfl | hws
    · refine ⟨?_, ht⟩
      show 0 < max _ 1
      omega
    · exact h.workspaces ws hws

theorem sound_duplicateWorkspace (h : s.layout.Sound) (i : ℕ) (name : Option String)
    (size : PtySize) : (s.duplicateWorkspace w i name size).1.layout.Sound := by
  unfold duplicateWorkspace
  split
  · exact h
  · rename_i dupName insertAt cwds _
    have hl := duplicateSpawn_layout (w := w) size cwds.length cwds [] s
    split <;> rename_i heq <;> rw [heq] at hl
    · exact sound_of_eq h hl
    · rw [foldl_spawnDrainTask_layout]
      exact sound_duplicateCommit (sound_of_eq h hl) size dupName insertAt _

theorem sound_renameWorkspace (h : s.layout.Sound) (i : ℕ) (name : String) :
    (s.renameWorkspace i name).1.layout.Sound := by
  unfold renameWorkspace
  split
  · exact h
  · split_ifs
    · exact h
    · exact sound_modify h fun ws _ hws => ⟨hws.active, hws.tabs⟩

theorem sound_setWorkspaceColor (h : s.layout.Sound) (i : ℕ) (color : Option String) :
    (s.setWorkspaceColor i color).1.layout.Sound := by
  unfold setWorkspaceColor
  split
  · exact h
  · split_ifs
    · exact h
    · exact sound_modify h fun ws _ hws => ⟨hws.active, hws.tabs⟩

theorem sound_setActiveTab (h : s.layout.Sound) (i j : ℕ) :
    (s.setActiveTab i j).1.layout.Sound := by
  unfold setActiveTab
  split
  · exact h
  · rename_i ws hws
    split_ifs with hj
    · exact h
    · refine sound_modify h fun ws' hws' hs => ⟨?_, hs.tabs⟩
      obtain rfl := Option.some.inj (hws.symm.trans hws')
      show j < max ws.tabs.length 1
      omega

theorem sound_setActiveWorkspace (h : s.layout.Sound) (i : ℕ) :
    (s.setActiveWorkspace i).1.layout.Sound := by
  unfold setActiveWorkspace
  split_ifs with hi
  · exact h
  · exact h
  · exact ⟨not_le.mp hi, h.workspaces⟩

theorem sound_setActivePane (h : s.layout.Sound) (i : ℕ) (tabId : Uuid) (p : Option PaneId) :
    (s.setActivePane i tabId p).1.layout.Sound := by
  unfold setActivePane
  split
  · exact h
  · rename_i ws hws
    split
    · exact h
    · rename_i tab htab
      split
      · exact h
      · rename_i hleaf
        split_ifs
        · exact h
        · refine sound_modify h fun ws' hws' hs => hs.writeActivePane fun tab' htab' q hq => ?_
          obtain rfl := Option.some.inj (hws.symm.trans hws')
          obtain rfl := Option.some.inj (htab.symm.trans htab')
          subst hq
          simpa using hleaf

theorem sound_updateSplitRatios (h : s.layout.Sound) (updates : List (PaneId × F32)) :
    (s.updateSplitRatios updates).layout.Sound := by
  unfold updateSplitRatios
  induction updates generalizing s with
  | nil => exact h
  | cons u updates ih =>
    refine ih ⟨?_, fun v hv => ?_⟩
    · have ha := h.active
      simpa using ha
    · obtain ⟨ws, hws, rfl⟩ := List.mem_map.mp hv
      have hs := h.workspaces ws hws
      refine ⟨?_, fun t ht => ?_⟩
      · have ha := hs.active
        simpa using ha
      · obtain ⟨tab, htab, rfl⟩ := List.mem_map.mp ht
        have ht := hs.tabs tab htab
        exact ⟨ht.title, fun p hp => by
          rw [updateRatioForPane_leaves]
          exact ht.focus p hp⟩

theorem sound_splitAt (h : s.layout.Sound) (caller : String) (p : PaneId) (direction : String)
    (ratio : F32) (size : PtySize) (cwd : Option PathBuf) (q : PaneId) :
    (s.splitAt w caller p direction ratio size cwd q).1.layout.Sound := by
  unfold splitAt
  split
  · exact h
  · dsimp only
    split
    · exact h
    · rename_i wss tabId heq
      rw [spawnDrainTask_layout]
      obtain ⟨pre, ws, post, hs, hin, hout, -⟩ := replaceLeafInLayout_some (by rw [heq])
      obtain ⟨preT, tab, postT, hsT, hm, -, houtT, -⟩ := replaceLeafInTabs_some hin
      rw [heq] at hout
      have hs' : s.layout.workspaces = pre ++ ws :: post := hs
      have ha := h.active
      have hsound := h.workspaces
      rw [hs'] at ha hsound
      dsimp only at hout
      refine ⟨?_, fun v hv => ?_⟩
      · show s.layout.activeWorkspace < wss.length
        rw [hout]
        simpa using ha
      · have hv' : v ∈ wss := hv
        rw [hout, houtT] at hv'
        rcases List.mem_append.mp hv' with hv' | hv'
        · exact hsound v (List.mem_append_left _ hv')
        · rcases List.mem_cons.mp hv' with rfl | hv'
          · have hws := hsound ws (by simp)
            refine ⟨?_, fun t ht => ?_⟩
            · have hact := hws.active
              rw [hsT] at hact
              simpa using hact
            · rw [List.mem_append, List.mem_cons] at ht
              rcases ht with ht | rfl | ht
              · exact hws.tabs t (by rw [hsT]; simp [ht])
              · have htab := hws.tabs tab (by rw [hsT]; simp)
                refine ⟨htab.title, fun r hr => ?_⟩
                exact (replaceLeafWithRatio_leaves hm).mem_iff.mpr
                  (List.mem_append_left _ (htab.focus r hr))
              · exact hws.tabs t (by rw [hsT]; simp [ht])
          · exact hsound v (List.mem_append_right _ (List.mem_cons_of_mem _ hv'))

/-- A live pane that is closed is not, alone, each of two or more tabs of a workspace. -/
def ClosesOneTab (s : SessionManager) (op : Op) : Prop :=
  ∀ p, op = .closePane p → p ∈ s.panes → ∀ ws ∈ s.layout.workspaces,
    (∀ t ∈ ws.tabs, t.paneTree = .leaf p) → ws.tabs.length ≤ 1

/-- Where the leaves are distinct, a pane is alone in one tab at most. -/
theorem Tracked.closesOneTab (h : Tracked w s) (op : Op) : ClosesOneTab s op :=
  fun _ _ _ ws hws hall => length_le_one_of_leaf ((List.nodup_flatMap.mp h.leaves_nodup).1 ws hws) hall

theorem sound_closePane (h : s.layout.Sound) {p : PaneId} (hone : ClosesOneTab s (.closePane p)) :
    (s.closePane w p).1.layout.Sound := by
  unfold closePane
  split_ifs with hp
  · apply sound_healEmptied
    have hwss : ∀ v ∈ (dropLeafTabs p s.layout.workspaces).1, v.Sound := by
      cases hr : (dropLeafTabs p s.layout.workspaces).2 with
      | none =>
        rw [dropLeafTabs, (visit_none quiet_dropLeafTabsOf hr).1]
        exact h.workspaces
      | some b =>
        obtain ⟨pre, ws, post, hs, -, hout, -⟩ := visit_some quiet_dropLeafTabsOf hr
        rw [dropLeafTabs, hout]
        have hsound := h.workspaces
        have hmem : ws ∈ s.layout.workspaces := by rw [hs]; simp
        rw [hs] at hsound
        intro v hv
        rcases List.mem_append.mp hv with hv | hv
        · exact hsound v (List.mem_append_left _ hv)
        · rcases List.mem_cons.mp hv with rfl | hv
          · exact (hsound ws (by simp)).dropLeafTabsOf (hone p rfl hp ws hmem) _
          · exact hsound v (List.mem_append_right _ (List.mem_cons_of_mem _ hv))
    have hlen : (dropLeafTabs p s.layout.workspaces).1.length = s.layout.workspaces.length := by
      cases hr : (dropLeafTabs p s.layout.workspaces).2 with
      | none => rw [dropLeafTabs, (visit_none quiet_dropLeafTabsOf hr).1]
      | some b =>
        obtain ⟨pre, ws, post, hs, -, hout, -⟩ := visit_some quiet_dropLeafTabsOf hr
        rw [dropLeafTabs, hout, hs]
        simp
    have ha := h.active
    refine ⟨?_, hwss⟩
    show s.layout.activeWorkspace < (dropLeafTabs p s.layout.workspaces).1.length
    omega
  · exact h

@[simp] theorem setPaneCwd_layout (p : PaneId) (cwd : PathBuf) (s : SessionManager) :
    (s.setPaneCwd p cwd).layout = s.layout := by
  unfold setPaneCwd
  split <;> rfl

@[simp] theorem resizePane_layout (resizeOk : Except String Unit) (p : PaneId) (size : PtySize)
    (s : SessionManager) : (s.resizePane resizeOk p size).1.layout = s.layout := by
  unfold resizePane
  split
  · rfl
  · split <;> rfl

@[simp] theorem processPaneBytes_layout (procCwd : ℕ → Option PathBuf) (alive : Bool) (p : PaneId)
    (bytes : Bytes) (s : SessionManager) :
    (s.processPaneBytes procCwd alive p bytes).1.layout = s.layout := by
  unfold processPaneBytes
  split
  · rfl
  · dsimp only
    split <;> rfl

end Layout

/-- Every such call keeps the layout sound. -/
theorem sound_apply {w : World} {s : SessionManager} (h : s.layout.Sound) {op : Op}
    (hop : ClosesOneTab s op) : (s.apply w op).layout.Sound := by
  rw [SessionManager.apply]
  cases op with
  | createPane size cwd command shell login => exact sound_createPane h size cwd command shell login
  | createTab i cwd size command =>
    exact sound_createTabWithPaneId (s := s.mint) h i cwd size command _
  | splitPane p direction size cwd =>
    simp only [Op.exec, splitPane]
    split_ifs
    · exact sound_splitAt (s := s.mint) h _ p direction _ size cwd _
    · exact h
  | splitPaneWithRatio p direction ratio size cwd =>
    simp only [Op.exec, splitPaneWithRatio, splitPaneWithRatioAndPaneId]
    split_ifs
    · exact sound_splitAt (s := s.mint) h _ p direction ratio size cwd _
    · exact h
  | closePane p => exact sound_closePane h hop
  | closeTab tabId => exact sound_closeTab h tabId
  | moveTab tabId newIndex => exact sound_moveTab h tabId newIndex
  | createWorkspace name => exact sound_createWorkspace h name
  | deleteWorkspace i => exact sound_deleteWorkspace h i
  | duplicateWorkspace i name size => exact sound_duplicateWorkspace h i name size
  | moveWorkspace i j => exact sound_moveWorkspace h i j
  | renameWorkspace i name => exact sound_renameWorkspace h i name
  | setWorkspaceColor i color => exact sound_setWorkspaceColor h i color
  | setActiveTab i j => exact sound_setActiveTab h i j
  | setActiveWorkspace i => exact sound_setActiveWorkspace h i
  | setActivePane i tabId p => exact sound_setActivePane h i tabId p
  | updateSplitRatios updates => exact sound_updateSplitRatios h updates
  | setPaneCwd p cwd => exact sound_of_eq h (setPaneCwd_layout p cwd s)
  | setPinned pinned => exact h
  | resizePane resizeOk p size => exact sound_of_eq h (resizePane_layout resizeOk p size s)
  | processPaneBytes procCwd alive p bytes =>
    exact sound_of_eq h (processPaneBytes_layout procCwd alive p bytes s)

end SessionManager

end Forgetty
