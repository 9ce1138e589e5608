import Forgetty.Session.Calls
import Forgetty.Session.WorkspaceCalls

/-! What the calls on tabs and panes do, each in one statement: the new list of
workspaces, the active index, and the events that are sent. -/

namespace Forgetty

open Lib

namespace SessionManager

section Rules

variable {s t : SessionManager} {wss : List SessionWorkspace} {i : ℕ} {es : List SessionEvent}

/-- Something happened before that changed nothing. -/
theorem Changed.after (h : Changed wss i es t s) {u : SessionManager} (hu : Unchanged u t) :
    Changed wss i es u s :=
  ⟨h.workspaces, h.active, by rw [h.sent, hu.sent, List.append_nil]⟩

/-- Changes that agree where they are made are the same. -/
theorem modify_congr {f g : SessionWorkspace → SessionWorkspace}
    (h : ∀ ws, wss[i]? = some ws → f ws = g ws) : wss.modify i f = wss.modify i g := by
  cases hws : wss[i]? with
  | none =>
    have hlen := List.getElem?_eq_none_iff.mp hws
    rw [List.modify_eq_self hlen, List.modify_eq_self hlen]
  | some ws =>
    obtain ⟨pre, post, -, -, hmod, -⟩ := exists_split hws
    rw [hmod f, hmod g, h ws hws]

end Rules

/-! ### Tabs that are made -/

section Make

variable {w : World} {s : SessionManager}

theorem createPane_refused {size : PtySize} {cwd : Option PathBuf} {command : Option (List String)}
    {shell : Option String} {login : Bool} {e : String}
    (h : PtyBridge.spawn w s.spawned size cwd command shell login = .error e) :
    Unchanged s (s.createPane w size cwd command shell login).1 := by
  have h' : PtyBridge.spawn w s.mint.spawned size cwd command shell login = .error e := h
  unfold createPane
  dsimp only
  rw [h']
  exact .of_eq rfl rfl

/-- The new tab is in the first workspace, and only the pane is told. -/
theorem changed_createPane {size : PtySize} {cwd : Option PathBuf} {command : Option (List String)}
    {shell : Option String} {login : Bool} {bridge : PtyBridge}
    (h : PtyBridge.spawn w s.spawned size cwd command shell login = .ok bridge) :
    Changed (s.layout.workspaces.modify 0 (addTab (w.newV4 (s.minted + 1)) ⟨w.newV4 s.minted⟩))
      s.layout.activeWorkspace [.paneCreated ⟨w.newV4 s.minted⟩] s
      (s.createPane w size cwd command shell login).1 := by
  have h' : PtyBridge.spawn w s.mint.spawned size cwd command shell login = .ok bridge := h
  unfold createPane
  dsimp only
  rw [h']
  refine .trans_unchanged ?_ (unchanged_spawnDrainTask _ _)
  exact ⟨rfl, rfl, rfl⟩

theorem changed_createTabWithPaneId (i : ℕ) (cwd : Option PathBuf) (size : PtySize)
    (command : Option (List String)) (p : PaneId) :
    (Unchanged s (s.createTabWithPaneId w i cwd size command p).1 ∧
        ∀ bridge, PtyBridge.spawn w s.spawned size cwd command none true = .ok bridge →
          s.layout.workspaces.length ≤ i) ∨
      i < s.layout.workspaces.length ∧
        (∃ bridge, PtyBridge.spawn w s.spawned size cwd command none true = .ok bridge) ∧
        Changed (s.layout.workspaces.modify i (addTab (w.newV4 s.minted) p))
          s.layout.activeWorkspace
          [.paneCreated p, .tabCreated i (w.newV4 s.minted) p] s
          (s.createTabWithPaneId w i cwd size command p).1 := by
  unfold createTabWithPaneId
  split_ifs with hi
  · exact Or.inl ⟨.refl s, fun _ _ => hi⟩
  · split
    · rename_i hspawn
      refine Or.inl ⟨.of_eq rfl rfl, fun bridge h => ?_⟩
      rw [hspawn] at h
      cases h
    · rename_i bridge hspawn
      refine Or.inr ⟨Nat.not_le.mp hi, ⟨bridge, hspawn⟩, ?_⟩
      refine .trans_unchanged ?_ (unchanged_spawnDrainTask _ _)
      exact ⟨rfl, rfl, List.append_assoc _ _ _⟩

theorem changed_createWorkspace (name : String) :
    Changed (s.layout.workspaces ++ [emptyWorkspace (w.newV4 s.minted) name])
      s.layout.activeWorkspace
      [.workspaceCreated s.layout.workspaces.length (w.newV4 s.minted) name] s
      (s.createWorkspace w name).1 := by
  have hidx : (s.layout.workspaces ++ [emptyWorkspace (w.newV4 s.minted) name]).length - 1 =
      s.layout.workspaces.length := by
    rw [List.length_append, List.length_singleton, Nat.add_sub_cancel]
  refine ⟨rfl, rfl, ?_⟩
  rw [← hidx]
  rfl

/-- What a duplication leaves: nothing, or one more workspace behind its source. -/
theorem changed_duplicateWorkspace_of (i : ℕ) (name : Option String) (size : PtySize) :
    Unchanged s (s.duplicateWorkspace w i name size).1 ∨
      ∃ (n : ℕ) (dupName : String) (dupTabs : List DuplicatedTab),
        i < s.layout.workspaces.length ∧ s.minted ≤ n ∧
        Changed (s.layout.workspaces.insertIdx (i + 1)
            { id := w.newV4 n
              name := dupName
              tabs := dupTabs.map fun dt => .ofLeaf dt.tabId dt.paneId
              activeTab := 0
              color := none })
          (if i + 1 ≤ s.layout.activeWorkspace then s.layout.activeWorkspace + 1
            else s.layout.activeWorkspace)
          (.workspaceCreated (i + 1) (w.newV4 n) dupName :: dupTabs.flatMap fun dt =>
            [.paneCreated dt.paneId, .tabCreated (i + 1) dt.tabId dt.paneId]) s
          (s.duplicateWorkspace w i name size).1 := by
  unfold duplicateWorkspace duplicateSnapshot
  cases hi : s.layout.workspaces[i]? with
  | none => exact Or.inl (.refl s)
  | some source =>
    obtain ⟨hlt, -⟩ := List.getElem?_eq_some_iff.mp hi
    dsimp only
    generalize name.getD s!"{source.name} (copy)" = dupName
    generalize source.tabs.map _ = cwds
    obtain ⟨hspawn, -⟩ := @duplicateSpawn_unchanged w size cwds.length cwds [] s
    have hminted := (@inherits_duplicateSpawn w size cwds.length cwds [] s).minted
    split <;> rename_i heq <;> rw [heq] at hspawn hminted
    · exact Or.inl hspawn
    · rename_i t spawned
      obtain ⟨htabs, -, hu⟩ := @duplicateTabs_tabs w size spawned t.mint
      have hat : min (i + 1) t.layout.workspaces.length = i + 1 := by
        rw [hspawn.workspaces]
        omega
      refine Or.inr ⟨t.minted, dupName, (duplicateTabs w size spawned t.mint).2.2, hlt, hminted, ?_⟩
      refine .trans_unchanged ?_ (unchanged_foldl_spawnDrainTask _ _)
      refine Changed.after (t := t) ?_ hspawn
      have hmint : Unchanged t t.mint := .of_eq rfl rfl
      have hmade : Unchanged t (duplicateTabs w size spawned t.mint).1 := hmint.trans_unchanged hu
      rw [duplicateCommit]
      dsimp only
      rw [mint_layout, hat, htabs]
      refine ⟨?_, ?_, ?_⟩
      · rw [sendAll_layout, send_layout, setActive_workspaces, setWorkspaces_workspaces,
          hmade.workspaces, hspawn.workspaces]
      · rw [sendAll_layout, send_layout, setActive_activeWorkspace, setWorkspaces_activeWorkspace,
          hmade.active, hspawn.active]
      · show (duplicateTabs w size spawned t.mint).1.eventTx.sent ++ [_] ++ _ = _
        rw [hmade.sent, List.append_nil, List.append_assoc, List.singleton_append]

end Make

/-! ### Trees that are changed -/

section Trees

variable {w : World} {s : SessionManager}

/-- A split changes the tree of one tab, and tells which. -/
theorem changed_splitAt (caller : String) (p : PaneId) (direction : String) (ratio : F32)
    (size : PtySize) (cwd : Option PathBuf) (q : PaneId) :
    Unchanged s (s.splitAt w caller p direction ratio size cwd q).1 ∨
      ∃ i ws j tab, s.layout.workspaces[i]? = some ws ∧ ws.tabs[j]? = some tab ∧
        p ∈ tab.paneTree.leaves ∧
        Changed (s.layout.workspaces.modify i fun ws => { ws with tabs := ws.tabs.modify j fun tab =>
            { tab with paneTree := (replaceLeafWithRatio p q direction ratio tab.paneTree).1 } })
          s.layout.activeWorkspace [.paneCreated q, .paneSplit tab.id p q direction] s
          (s.splitAt w caller p direction ratio size cwd q).1 := by
  unfold splitAt
  split
  · exact Or.inl (.of_eq rfl rfl)
  · dsimp only
    split
    · exact Or.inl (.of_eq rfl rfl)
    · rename_i wss tabId heq
      rw [registerPane_layout, countSpawn_layout] at heq
      obtain ⟨pre, ws, post, hs, hin, hout, -⟩ := replaceLeafInLayout_some (by rw [heq])
      obtain ⟨preT, tab, postT, hsT, hm, rfl, houtT, -⟩ := replaceLeafInTabs_some hin
      rw [heq] at hout
      have hwss : wss = s.layout.workspaces.modify pre.length fun ws =>
          { ws with tabs := ws.tabs.modify preT.length fun tab =>
            { tab with paneTree := (replaceLeafWithRatio p q direction ratio tab.paneTree).1 } } := by
        rw [hs, modify_append_cons, hsT, modify_append_cons, ← houtT]
        exact hout
      refine Or.inr ⟨pre.length, ws, preT.length, tab, by rw [hs]; simp, by rw [hsT]; simp, hm, ?_⟩
      refine .trans_unchanged ?_ (unchanged_spawnDrainTask _ _)
      exact ⟨hwss, rfl, List.append_assoc _ _ _⟩

/-- All updates of split ratios, on one tree. -/
def updateRatios (updates : List (PaneId × F32)) (tree : PaneTreeLayout) : PaneTreeLayout :=
  updates.foldl (fun tree u => (updateRatioForPane u.1 (clampRatio u.2) tree).1) tree

/-- Nothing is told of new ratios. -/
theorem changed_updateSplitRatios (updates : List (PaneId × F32)) :
    Changed (s.layout.workspaces.map fun ws => { ws with tabs := ws.tabs.map fun tab =>
        { tab with paneTree := updateRatios updates tab.paneTree } })
      s.layout.activeWorkspace [] s (s.updateSplitRatios updates) := by
  unfold updateSplitRatios
  induction updates generalizing s with
  | nil => exact ⟨by simp [updateRatios], rfl, (List.append_nil _).symm⟩
  | cons u updates ih =>
    obtain ⟨hwss, hactive, hsent⟩ := @ih (s.setWorkspaces (s.layout.workspaces.map fun ws =>
      { ws with tabs := ws.tabs.map fun tab =>
        { tab with paneTree := (updateRatioForPane u.1 (clampRatio u.2) tab.paneTree).1 } }))
    refine ⟨hwss.trans ?_, hactive, hsent⟩
    rw [setWorkspaces_workspaces, List.map_map]
    refine List.map_congr_left fun ws _ => ?_
    simp only [Function.comp_apply, List.map_map]
    rfl

end Trees

/-! ### Tabs that are moved and focused -/

section Focus

variable {s : SessionManager}

/-- The tab that moves goes to its new place; the active index follows its tab. -/
def moveTabTo (j k : ℕ) (tab : SessionTab) (ws : SessionWorkspace) : SessionWorkspace :=
  let tabs := (ws.tabs.eraseIdx j).insertIdx k tab
  { ws with
    tabs := tabs
    activeTab := (((ws.tabs[ws.activeTab]?).map (·.id)).bind fun activeId =>
      tabs.findIdx? (·.id = activeId)).getD ws.activeTab }

theorem changed_moveTab (tabId : Uuid) (newIndex : ℕ) :
    Unchanged s (s.moveTab tabId newIndex).1 ∨
      ∃ i ws j tab, s.layout.workspaces[i]? = some ws ∧ ws.tabs[j]? = some tab ∧ tab.id = tabId ∧
        Changed (s.layout.workspaces.modify i
            (moveTabTo j (min newIndex (ws.tabs.length - 1)) tab))
          s.layout.activeWorkspace [.tabMoved i tabId (min newIndex (ws.tabs.length - 1))] s
          (s.moveTab tabId newIndex).1 := by
  unfold moveTab
  split
  · exact Or.inl (.refl s)
  · rename_i i j heq
    obtain ⟨ws, tab, hws, htab, hid⟩ := findTab_spec heq
    rw [hws]
    dsimp only
    split_ifs
    · exact Or.inl (.refl s)
    · rw [htab]
      refine Or.inr ⟨i, ws, j, tab, hws, htab, hid, ?_, rfl, rfl⟩
      refine modify_congr fun ws' hws' => ?_
      obtain rfl := Option.some.inj (hws.symm.trans hws')
      rfl

theorem changed_setActiveTab (i j : ℕ) :
    Unchanged s (s.setActiveTab i j).1 ∨
      Changed (s.layout.workspaces.modify i fun ws => { ws with activeTab := j })
        s.layout.activeWorkspace [.activeTabChanged i j] s (s.setActiveTab i j).1 := by
  unfold setActiveTab
  split
  · exact Or.inl (.refl s)
  · split_ifs
    · exact Or.inl (.refl s)
    · exact Or.inr ⟨rfl, rfl, rfl⟩

theorem changed_setActiveWorkspace_of (i : ℕ) :
    Unchanged s (s.setActiveWorkspace i).1 ∨
      i < s.layout.workspaces.length ∧
        Changed s.layout.workspaces i [.activeWorkspaceChanged i] s (s.setActiveWorkspace i).1 := by
  unfold setActiveWorkspace
  split_ifs with hi
  · exact Or.inl (.refl s)
  · exact Or.inl (.refl s)
  · exact Or.inr ⟨Nat.not_le.mp hi, rfl, rfl, rfl⟩

/-- A focus pointer is written only to a leaf of the tab. -/
theorem changed_setActivePane (i : ℕ) (tabId : Uuid) (p : Option PaneId) :
    Unchanged s (s.setActivePane i tabId p).1 ∨
      ∃ ws tab, s.layout.workspaces[i]? = some ws ∧ ws.tabs.find? (·.id = tabId) = some tab ∧
        (∀ q, p = some q → q ∈ tab.paneTree.leaves) ∧
        Changed (s.layout.workspaces.modify i (writeActivePane tabId p))
          s.layout.activeWorkspace [.activePaneChanged i tabId p] s
          (s.setActivePane i tabId p).1 := by
  unfold setActivePane
  split
  · exact Or.inl (.refl s)
  · rename_i ws hws
    split
    · exact Or.inl (.refl s)
    · rename_i tab htab
      split
      · exact Or.inl (.refl s)
      · rename_i hleaf
        split_ifs
        · exact Or.inl (.refl s)
        · refine Or.inr ⟨ws, tab, hws, htab, fun q hq => ?_, rfl, rfl, rfl⟩
          subst hq
          simpa using hleaf

end Focus

/-! ### Calls that leave the layout -/

section Quiet

variable {s : SessionManager}

theorem unchanged_setPaneCwd (p : PaneId) (cwd : PathBuf) : Unchanged s (s.setPaneCwd p cwd) := by
  unfold setPaneCwd
  split <;> exact .of_eq rfl rfl

theorem unchanged_resizePane (resizeOk : Except String Unit) (p : PaneId) (size : PtySize) :
    Unchanged s (s.resizePane resizeOk p size).1 := by
  unfold resizePane
  split
  · exact .refl s
  · split <;> exact .of_eq rfl rfl

/-- Output is told, as what it is. -/
theorem changed_processPaneBytes (procCwd : ℕ → Option PathBuf) (alive : Bool) (p : PaneId)
    (bytes : Bytes) :
    ∃ es, (∀ e ∈ es, e = .ptyOutput p bytes) ∧
      Changed s.layout.workspaces s.layout.activeWorkspace es s
        (s.processPaneBytes procCwd alive p bytes).1 := by
  unfold processPaneBytes
  split
  · exact ⟨[], nofun, Unchanged.refl s⟩
  · refine ⟨[.ptyOutput p bytes], fun e he => List.mem_singleton.mp he, ?_⟩
    dsimp only
    split <;> exact ⟨rfl, rfl, rfl⟩

end Quiet

end SessionManager

end Forgetty
