import Forgetty.Session.Indices

/-! The ids of workspaces and tabs. An id is taken when its workspace or tab is made
and stays with it. No call brings an id back that was there before: whatever is in
the layout afterwards was in it already or was handed out during the call. -/

namespace Forgetty

open Lib

/-- The id of a workspace and the ids of its tabs. -/
def SessionWorkspace.ids (ws : SessionWorkspace) : List Uuid := ws.id :: ws.tabs.map (·.id)

def SessionLayout.ids (l : SessionLayout) : List Uuid := l.workspaces.flatMap SessionWorkspace.ids

def SessionLayout.tabs (l : SessionLayout) : List SessionTab := l.workspaces.flatMap (·.tabs)

theorem SessionLayout.leaves_eq (l : SessionLayout) :
    l.leaves = l.tabs.flatMap fun tab => tab.paneTree.leaves := List.flatMap_assoc.symm

theorem SessionLayout.id_mem_ids {l : SessionLayout} {ws : SessionWorkspace}
    (h : ws ∈ l.workspaces) : ws.id ∈ l.ids :=
  List.mem_flatMap.mpr ⟨ws, h, List.mem_cons_self⟩

namespace SessionManager

/-- The ids are distinct, and none of them will be handed out again. -/
structure Identified (w : World) (s : SessionManager) : Prop where
  nodup : s.layout.ids.Nodup
  fresh : ∀ n, s.minted ≤ n → w.newV4 n ∉ s.layout.ids

theorem Identified.tabIds_nodup {w : World} {s : SessionManager} (h : Identified w s) :
    (s.layout.tabs.map (·.id)).Nodup := by
  refine List.Nodup.sublist ?_ h.nodup
  rw [SessionLayout.tabs, SessionLayout.ids, List.map_flatMap]
  induction s.layout.workspaces with
  | nil => exact List.Sublist.slnil
  | cons ws wss ih =>
    rw [List.flatMap_cons, List.flatMap_cons]
    exact (List.sublist_cons_self _ _).append ih

/-- The ids after are ids from before, or were handed out in between, each once. -/
structure Inherits (w : World) (s t : SessionManager) : Prop where
  minted : s.minted ≤ t.minted
  ids : ∃ ns : List ℕ, ns.Nodup ∧ (∀ n ∈ ns, s.minted ≤ n ∧ n < t.minted) ∧
    t.layout.ids.Subperm (s.layout.ids ++ ns.map w.newV4)

section Rules

variable {w : World} {s t u : SessionManager}

theorem Inherits.of_subperm (h : t.layout.ids.Subperm s.layout.ids) (hm : s.minted ≤ t.minted) :
    Inherits w s t where
  minted := hm
  ids := ⟨[], List.nodup_nil, nofun, by rwa [List.map_nil, List.append_nil]⟩

theorem Inherits.of_eq (h : t.layout.ids = s.layout.ids) (hm : s.minted ≤ t.minted) :
    Inherits w s t := .of_subperm (h ▸ List.Subperm.refl _) hm

theorem Inherits.of_layout (h : t.layout = s.layout) (hm : s.minted ≤ t.minted) :
    Inherits w s t := .of_eq (congrArg SessionLayout.ids h) hm

theorem Inherits.refl (w : World) (s : SessionManager) : Inherits w s s := .of_layout rfl le_rfl

theorem Inherits.send (h : Inherits w s t) (e : SessionEvent) : Inherits w s (t.send e) where
  minted := h.minted
  ids := h.ids

/-- One id that is handed out and given to something new. -/
theorem Inherits.of_mint (h : t.layout.ids.Subperm (s.layout.ids ++ [w.newV4 s.minted]))
    (hm : s.minted < t.minted) : Inherits w s t where
  minted := hm.le
  ids := by
    refine ⟨[s.minted], List.nodup_singleton _, fun n hn => ?_, h⟩
    obtain rfl := List.mem_singleton.mp hn
    exact ⟨le_rfl, hm⟩

theorem Inherits.trans (h : Inherits w s t) (h' : Inherits w t u) : Inherits w s u where
  minted := h.minted.trans h'.minted
  ids := by
    obtain ⟨ns, hd, hns, hsub⟩ := h.ids
    obtain ⟨ns', hd', hns', hsub'⟩ := h'.ids
    have hle := h.minted
    have hle' := h'.minted
    refine ⟨ns ++ ns', ?_, fun n hn => ?_, ?_⟩
    · rw [List.nodup_append]
      refine ⟨hd, hd', fun n hn n' hn' => ?_⟩
      have hlt := (hns n hn).2
      have hle := (hns' n' hn').1
      omega
    · rcases List.mem_append.mp hn with hn | hn
      · obtain ⟨hlo, hhi⟩ := hns n hn
        omega
      · obtain ⟨hlo, hhi⟩ := hns' n hn
        omega
    · rw [List.map_append, ← List.append_assoc]
      exact hsub'.trans ((List.subperm_append_right _).mpr hsub)

/-- Ids that are inherited are distinct again. -/
theorem Inherits.identified (hw : Function.Injective w.newV4) (h : Inherits w s t)
    (hs : Identified w s) : Identified w t := by
  obtain ⟨ns, hd, hns, hsub⟩ := h.ids
  constructor
  · obtain ⟨l, hperm, hl⟩ := hsub
    refine hperm.nodup_iff.mp (List.Nodup.sublist hl ?_)
    rw [List.nodup_append]
    refine ⟨hs.nodup, hd.map hw, fun x hx y hy hxy => ?_⟩
    obtain ⟨n, hn, rfl⟩ := List.mem_map.mp hy
    exact hs.fresh n (hns n hn).1 (hxy ▸ hx)
  · intro n hn hmem
    rcases List.mem_append.mp (hsub.subset hmem) with hmem | hmem
    · exact hs.fresh n (h.minted.trans hn) hmem
    · obtain ⟨k, hk, heq⟩ := List.mem_map.mp hmem
      obtain rfl := hw heq
      exact absurd hn (Nat.not_le.mpr (hns k hk).2)

/-- The id is not in the layout and will not come back. -/
structure Retired (w : World) (id : Uuid) (s : SessionManager) : Prop where
  absent : id ∉ s.layout.ids
  fresh : ∀ n, s.minted ≤ n → w.newV4 n ≠ id

theorem Retired.inherits {id : Uuid} (h : Retired w id s) (hi : Inherits w s t) :
    Retired w id t where
  absent hmem := by
    obtain ⟨ns, -, hns, hsub⟩ := hi.ids
    rcases List.mem_append.mp (hsub.subset hmem) with hmem | hmem
    · exact h.absent hmem
    · obtain ⟨n, hn, heq⟩ := List.mem_map.mp hmem
      exact h.fresh n (hns n hn).1 heq
  fresh n hn := h.fresh n (hi.minted.trans hn)

/-- The id of a workspace that is dropped. -/
theorem Identified.retired (hs : Identified w s) {i : ℕ} {ws : SessionWorkspace}
    (hi : s.layout.workspaces[i]? = some ws)
    (ht : t.layout.workspaces = s.layout.workspaces.eraseIdx i) (hm : s.minted ≤ t.minted) :
    Retired w ws.id t where
  absent hmem := by
    obtain ⟨pre, post, hsplit, -, -, herase⟩ := exists_split hi
    have hd := hs.nodup
    rw [SessionLayout.ids, hsplit] at hd
    have hperm : (pre ++ ws :: post).Perm (ws :: (pre ++ post)) := List.perm_middle
    have hd' := (hperm.flatMap_right SessionWorkspace.ids).nodup_iff.mp hd
    rw [List.flatMap_cons, List.nodup_append] at hd'
    rw [SessionLayout.ids, ht, herase] at hmem
    exact hd'.2.2 ws.id List.mem_cons_self ws.id hmem rfl
  fresh n hn heq := by
    refine hs.fresh n (hm.trans hn) ?_
    rw [heq]
    exact SessionLayout.id_mem_ids (List.mem_of_getElem? hi)

/-- Distinct ids give distinct workspaces. -/
theorem Identified.workspaceIds_nodup (hs : Identified w s) :
    (s.layout.workspaces.map (·.id)).Nodup := by
  refine List.Nodup.sublist ?_ hs.nodup
  rw [SessionLayout.ids]
  induction s.layout.workspaces with
  | nil => exact List.Sublist.slnil
  | cons ws wss ih =>
    rw [List.map_cons, List.flatMap_cons, SessionWorkspace.ids, List.cons_append]
    exact (ih.trans (List.sublist_append_right _ _)).cons_cons ws.id

end Rules

/-! ### Changes of the layout -/

section Layout

variable {w : World} {s t : SessionManager}

/-- A change that keeps the ids of every workspace. -/
theorem Inherits.modify {f : SessionWorkspace → SessionWorkspace} (h : Inherits w s t)
    (hf : ∀ ws, (f ws).ids = ws.ids) (i : ℕ) : Inherits w s (t.modifyWorkspace i f) := by
  refine h.trans (.of_eq ?_ le_rfl)
  exact flatMap_modify_of_eq hf t.layout.workspaces i

theorem ids_modify_subperm {xs : List Uuid} (f : SessionWorkspace → SessionWorkspace) (i : ℕ)
    (s : SessionManager)
    (h : ∀ ws, s.layout.workspaces[i]? = some ws → (f ws).ids.Subperm (ws.ids ++ xs)) :
    (s.modifyWorkspace i f).layout.ids.Subperm (s.layout.ids ++ xs) := by
  rw [SessionLayout.ids, SessionLayout.ids, modifyWorkspace_workspaces]
  cases hws : s.layout.workspaces[i]? with
  | none =>
    rw [List.modify_eq_self (List.getElem?_eq_none_iff.mp hws)]
    exact (List.sublist_append_left _ _).subperm
  | some ws =>
    obtain ⟨pre, post, hsplit, -, hmod, -⟩ := exists_split hws
    rw [hmod f, hsplit]
    exact flatMap_subperm_of_gain (h ws hws)

theorem ids_pushTab (ws : SessionWorkspace) (tabId : Uuid) (p : PaneId) :
    ({ ws with tabs := ws.tabs ++ [.ofLeaf tabId p] } : SessionWorkspace).ids = ws.ids ++ [tabId] := by
  simp [SessionWorkspace.ids, SessionTab.ofLeaf]

/-- A new tab with an id of its own, after steps that leave the layout alone. -/
theorem inherits_pushTab (hl : t.layout = s.layout) (hm : s.minted ≤ t.minted) (i : ℕ) (p : PaneId) :
    Inherits w s (t.mint.pushTab i (.ofLeaf (w.newV4 t.minted) p)) := by
  refine .trans (.of_layout hl hm) (.of_mint ?_ (Nat.lt_succ_self _))
  refine ids_modify_subperm _ i t.mint fun ws _ => ?_
  rw [ids_pushTab]

@[simp] theorem ids_clampActiveTab (ws : SessionWorkspace) : (clampActiveTab ws).ids = ws.ids := by
  unfold clampActiveTab
  split_ifs <;> rfl

end Layout

/-! ### The operations -/

section Operations

variable {w : World} {s t : SessionManager}

theorem inherits_spawnDrainTask (p : PaneId) (s : SessionManager) :
    Inherits w s (s.spawnDrainTask w p) := .of_layout (spawnDrainTask_layout w p s) (by simp)

theorem inherits_createPane (size : PtySize) (cwd : Option PathBuf) (command : Option (List String))
    (shell : Option String) (loginShell : Bool) (s : SessionManager) :
    Inherits w s (s.createPane w size cwd command shell loginShell).1 := by
  unfold createPane
  dsimp only
  split
  · exact .of_layout rfl (Nat.le_succ _)
  · refine .trans ?_ (inherits_spawnDrainTask _ _)
    exact (inherits_pushTab (by simp) (by simp) 0 _).send _

theorem inherits_createTabWithPaneId (i : ℕ) (cwd : Option PathBuf) (size : PtySize)
    (command : Option (List String)) (p : PaneId) (s : SessionManager) :
    Inherits w s (s.createTabWithPaneId w i cwd size command p).1 := by
  unfold createTabWithPaneId
  split_ifs
  · exact .refl w s
  · split
    · exact .of_layout rfl le_rfl
    · refine .trans ?_ (inherits_spawnDrainTask _ _)
      exact ((inherits_pushTab (by simp) (by simp) i p).send _).send _

theorem inherits_createTab (i : ℕ) (cwd : Option PathBuf) (size : PtySize)
    (command : Option (List String)) (s : SessionManager) :
    Inherits w s (s.createTab w i cwd size command).1 := by
  have hmint : Inherits w s s.mint := .of_layout rfl (Nat.le_succ _)
  exact hmint.trans (inherits_createTabWithPaneId i cwd size command _ s.mint)

theorem inherits_autoSeedDefaultTab (i : ℕ) (size : PtySize) (s : SessionManager) :
    Inherits w s (s.autoSeedDefaultTab w i size).1 := by
  unfold autoSeedDefaultTab
  split_ifs
  · exact .refl w s
  · split
    · exact .of_layout rfl le_rfl
    · have hsame : ∀ ws : SessionWorkspace, ({ ws with activeTab := 0 } : SessionWorkspace).ids =
          ws.ids := fun _ => rfl
      exact (((inherits_pushTab (by simp) (by simp) i _).modify hsame i).send _).send _

theorem inherits_healEmptied (emptied : Option ℕ) (s : SessionManager) :
    Inherits w s (s.healEmptied w emptied) := by
  unfold healEmptied
  split
  · exact .refl w s
  · rename_i i
    have h := @inherits_autoSeedDefaultTab w i .default s
    split_ifs
    · split
      · rename_i heq
        rw [heq] at h
        exact h.trans (inherits_spawnDrainTask _ _)
      · rename_i heq
        rwa [heq] at h
    · exact .refl w s

theorem inherits_closeTab (tabId : Uuid) (s : SessionManager) :
    Inherits w s (s.closeTab w tabId).1 := by
  unfold closeTab
  split
  · exact .refl w s
  · rename_i i j _
    refine .trans ?_ (inherits_healEmptied _ _)
    refine .of_subperm ?_ ?_
    · rw [send_layout, unregisters_closeTabPane.foldl_layout]
      have h := @ids_modify_subperm [] (fun ws => clampActiveTab { ws with tabs := ws.tabs.eraseIdx j })
        i s fun ws _ => by
          rw [ids_clampActiveTab, List.append_nil]
          exact (((List.eraseIdx_sublist ws.tabs j).map _).cons_cons ws.id).subperm
      rwa [List.append_nil] at h
    · rw [send_minted, unregisters_closeTabPane.foldl_minted]
      rfl

theorem ids_dropLeafTabsOf (p : PaneId) (i : ℕ) (ws : SessionWorkspace) :
    (dropLeafTabsOf p i ws).1.ids.Subperm ws.ids := by
  have hid : (dropLeafTabsOf p i ws).1.id = ws.id := by
    unfold dropLeafTabsOf clampActiveTab
    dsimp only
    split_ifs <;> rfl
  rw [SessionWorkspace.ids, hid, dropLeafTabsOf_tabs]
  exact ((List.filter_sublist.map _).cons_cons ws.id).subperm

theorem inherits_closePane (p : PaneId) (s : SessionManager) :
    Inherits w s (s.closePane w p).1 := by
  unfold closePane
  split_ifs
  · refine .trans ?_ (inherits_healEmptied _ _)
    refine .of_subperm ?_ le_rfl
    show ((dropLeafTabs p s.layout.workspaces).1.flatMap SessionWorkspace.ids).Subperm _
    cases hr : (dropLeafTabs p s.layout.workspaces).2 with
    | none =>
      rw [dropLeafTabs, (visit_none quiet_dropLeafTabsOf hr).1]
      exact List.Subperm.refl _
    | some b =>
      obtain ⟨pre, ws, post, heq, -, hout, -⟩ := visit_some quiet_dropLeafTabsOf hr
      rw [dropLeafTabs, hout, SessionLayout.ids, heq]
      have h := @flatMap_subperm_of_gain _ _ SessionWorkspace.ids ws
        (dropLeafTabsOf p pre.length ws).1 pre post [] (by
          rw [List.append_nil]
          exact ids_dropLeafTabsOf p pre.length ws)
      rwa [List.append_nil] at h
  · exact .refl w s

theorem inherits_moveTab (tabId : Uuid) (newIndex : ℕ) (s : SessionManager) :
    Inherits w s (s.moveTab tabId newIndex).1 := by
  unfold moveTab
  split
  · exact .refl w s
  · rename_i i j _
    split
    · exact .refl w s
    · rename_i ws hws
      dsimp only
      split_ifs
      · exact .refl w s
      · split
        · exact .refl w s
        · rename_i tab htab
          have hp := insertIdx_eraseIdx_perm htab (Nat.min_le_right newIndex _)
          refine .of_subperm ?_ le_rfl
          rw [send_layout, ← List.append_nil s.layout.ids]
          refine ids_modify_subperm _ i s fun ws' hws' => ?_
          obtain rfl := Option.some.inj (hws.symm.trans hws')
          rw [List.append_nil]
          exact ((hp.map _).cons _).subperm

theorem inherits_createWorkspace (name : String) (s : SessionManager) :
    Inherits w s (s.createWorkspace w name).1 := by
  refine .of_mint ?_ (Nat.lt_succ_self _)
  rw [SessionLayout.ids, createWorkspace]
  simp only [send_layout, setWorkspaces_workspaces, List.flatMap_append]
  exact List.Subperm.refl _

theorem inherits_deleteWorkspace (i : ℕ) (s : SessionManager) :
    Inherits w s (s.deleteWorkspace i).1 := by
  unfold deleteWorkspace
  split
  · exact .refl w s
  · rename_i ws hws
    split_ifs
    · exact .refl w s
    · obtain ⟨pre, post, hs, -, -, he⟩ := exists_split hws
      refine .of_subperm ?_ ?_
      · simp only [SessionLayout.ids, send_layout, setActive_workspaces, setWorkspaces_workspaces,
          unregisters_deletePane.foldl_layout]
        rw [he, hs]
        simp only [List.flatMap_append, List.flatMap_cons]
        exact ((List.sublist_append_right _ _).append_left _).subperm
      · exact (unregisters_deletePane.foldl_minted _ s).ge

theorem inherits_moveWorkspace (i j : ℕ) (s : SessionManager) :
    Inherits w s (s.moveWorkspace i j).1 := by
  unfold moveWorkspace
  dsimp only
  split
  · exact .refl w s
  · exact .refl w s
  · rename_i fromWs toWs hi hj
    split_ifs
    · exact .refl w s
    all_goals exact .of_subperm ((set_set_perm hi hj).flatMap_right _).subperm le_rfl

theorem inherits_duplicateSpawn (size : PtySize) (total : ℕ) (cwds : List (Option PathBuf))
    (spawned : List (PaneId × PtyBridge × PathBuf)) (s : SessionManager) :
    Inherits w s (duplicateSpawn w size total cwds spawned s).1 := by
  refine .of_layout (duplicateSpawn_layout size total cwds spawned s) ?_
  induction cwds generalizing spawned s with
  | nil => exact le_rfl
  | cons cwd cwds ih =>
    rw [duplicateSpawn]
    dsimp only
    split
    · refine le_trans ?_ (ih _ _)
      exact Nat.le_succ s.minted
    · exact Nat.le_succ s.minted

/-- The tabs of a copy take the next ids, one each. -/
theorem duplicateTabs_ids (size : PtySize) (spawned : List (PaneId × PtyBridge × PathBuf))
    (s : SessionManager) :
    (duplicateTabs w size spawned s).2.1.map (·.id) =
        (List.range' s.minted spawned.length).map w.newV4 ∧
      (duplicateTabs w size spawned s).1.minted = s.minted + spawned.length := by
  induction spawned generalizing s with
  | nil => exact ⟨rfl, rfl⟩
  | cons x spawned ih =>
    obtain ⟨p, bridge, cwd⟩ := x
    obtain ⟨hids, hm⟩ := ih (s.registerPane (.spawned p bridge cwd size)).mint
    rw [duplicateTabs]
    dsimp only
    refine ⟨?_, ?_⟩
    · rw [List.map_cons, hids, List.length_cons, List.range'_succ, List.map_cons]
      rfl
    · rw [hm, mint_minted, registerPane_minted, List.length_cons]
      omega

theorem inherits_duplicateCommit (size : PtySize) (name : String) (insertAt : ℕ)
    (spawned : List (PaneId × PtyBridge × PathBuf)) (s : SessionManager) :
    Inherits w s (s.duplicateCommit w size name insertAt spawned).1 := by
  obtain ⟨hl, -⟩ := duplicateTabs_sound (w := w) size spawned s.mint
  obtain ⟨hids, hm⟩ := @duplicateTabs_ids w size spawned s.mint
  rw [mint_minted] at hids hm
  have hminted : (s.duplicateCommit w size name insertAt spawned).1.minted =
      s.minted + 1 + spawned.length := hm
  refine ⟨by omega, List.range' s.minted (spawned.length + 1), List.nodup_range', fun n hn => ?_, ?_⟩
  · rw [List.mem_range'_1] at hn
    omega
  · simp only [duplicateCommit, SessionLayout.ids, sendAll_layout, send_layout,
      setActive_workspaces, setWorkspaces_workspaces, hl, mint_layout]
    refine ((List.perm_insertIdx _ _ (Nat.min_le_right _ _)).flatMap_right _).subperm.trans ?_
    rw [List.flatMap_cons, SessionWorkspace.ids, hids, List.range'_succ, List.map_cons]
    exact List.perm_append_comm.subperm

theorem inherits_duplicateWorkspace (i : ℕ) (name : Option String) (size : PtySize)
    (s : SessionManager) : Inherits w s (s.duplicateWorkspace w i name size).1 := by
  unfold duplicateWorkspace
  split
  · exact .refl w s
  · rename_i dupName insertAt cwds _
    have h := @inherits_duplicateSpawn w size cwds.length cwds [] s
    split
    · rename_i heq
      rwa [heq] at h
    · rename_i t spawned heq
      rw [heq] at h
      have hc := @inherits_duplicateCommit w size dupName insertAt spawned t
      refine h.trans (hc.trans (.of_layout (foldl_spawnDrainTask_layout _ _) ?_))
      exact (effect_foldl_spawnDrainTask w _ _).minted

theorem inherits_renameWorkspace (i : ℕ) (name : String) (s : SessionManager) :
    Inherits w s (s.renameWorkspace i name).1 := by
  unfold renameWorkspace
  split
  · exact .refl w s
  · split_ifs
    · exact .refl w s
    · refine .send (.modify (.refl w s) ?_ i) _
      exact fun _ => rfl

theorem inherits_setWorkspaceColor (i : ℕ) (color : Option String) (s : SessionManager) :
    Inherits w s (s.setWorkspaceColor i color).1 := by
  unfold setWorkspaceColor
  split
  · exact .refl w s
  · split_ifs
    · exact .refl w s
    · refine .send (.modify (.refl w s) ?_ i) _
      exact fun _ => rfl

theorem inherits_setActiveTab (i j : ℕ) (s : SessionManager) :
    Inherits w s (s.setActiveTab i j).1 := by
  unfold setActiveTab
  split
  · exact .refl w s
  · split_ifs
    · exact .refl w s
    · refine .send (.modify (.refl w s) ?_ i) _
      exact fun _ => rfl

theorem inherits_setActiveWorkspace (i : ℕ) (s : SessionManager) :
    Inherits w s (s.setActiveWorkspace i).1 := by
  unfold setActiveWorkspace
  split_ifs
  · exact .refl w s
  · exact .refl w s
  · exact .of_eq rfl le_rfl

theorem ids_writeActivePane (tabId : Uuid) (p : Option PaneId) (ws : SessionWorkspace) :
    (writeActivePane tabId p ws).ids = ws.ids := by
  rw [SessionWorkspace.ids, writeActivePane]
  dsimp only
  rw [map_modify_of_eq]
  · rfl
  · exact fun _ => rfl

theorem inherits_setActivePane (i : ℕ) (tabId : Uuid) (p : Option PaneId) (s : SessionManager) :
    Inherits w s (s.setActivePane i tabId p).1 := by
  unfold setActivePane
  split
  · exact .refl w s
  · split
    · exact .refl w s
    · split
      · exact .refl w s
      · split_ifs
        · exact .refl w s
        · exact ((Inherits.refl w s).modify (ids_writeActivePane tabId p) i).send _

theorem inherits_updateSplitRatios (updates : List (PaneId × F32)) (s : SessionManager) :
    Inherits w s (s.updateSplitRatios updates) := by
  unfold updateSplitRatios
  induction updates generalizing s with
  | nil => exact .refl w s
  | cons u updates ih =>
    refine .trans ?_ (ih _)
    refine .of_eq ?_ le_rfl
    simp [SessionLayout.ids, List.flatMap_map, SessionWorkspace.ids, Function.comp_def]
    rfl

theorem inherits_splitAt (caller : String) (p : PaneId) (direction : String) (ratio : F32)
    (size : PtySize) (cwd : Option PathBuf) (q : PaneId) (s : SessionManager) :
    Inherits w s (s.splitAt w caller p direction ratio size cwd q).1 := by
  unfold splitAt
  split
  · exact .of_layout rfl le_rfl
  · dsimp only
    split
    · exact .of_layout rfl le_rfl
    · rename_i wss tabId heq
      refine .trans ?_ (inherits_spawnDrainTask _ _)
      refine .of_eq ?_ le_rfl
      obtain ⟨pre, ws, post, hs, hin, hout, -⟩ := replaceLeafInLayout_some (by rw [heq])
      obtain ⟨preT, tab, postT, hsT, -, -, houtT, -⟩ := replaceLeafInTabs_some hin
      rw [heq, houtT] at hout
      have hwss : wss = _ := hout
      have hs' : s.layout.workspaces = pre ++ ws :: post := hs
      rw [SessionLayout.ids, SessionLayout.ids, hs']
      show wss.flatMap SessionWorkspace.ids = _
      rw [hwss]
      simp only [List.flatMap_append, List.flatMap_cons, SessionWorkspace.ids, hsT,
        List.map_append, List.map_cons]

end Operations

/-- Every call hands down the ids it finds. -/
theorem inherits_apply (w : World) (op : Op) (s : SessionManager) : Inherits w s (s.apply w op) := by
  have hmint : Inherits w s s.mint := .of_layout rfl (Nat.le_succ _)
  rw [SessionManager.apply]
  cases op with
  | createPane size cwd command shell login =>
    exact inherits_createPane size cwd command shell login s
  | createTab i cwd size command => exact inherits_createTab i cwd size command s
  | splitPane p direction size cwd =>
    simp only [Op.exec, splitPane]
    split_ifs
    · exact hmint.trans (inherits_splitAt _ p direction _ size cwd _ s.mint)
    · exact .refl w s
  | splitPaneWithRatio p direction ratio size cwd =>
    simp only [Op.exec, splitPaneWithRatio, splitPaneWithRatioAndPaneId]
    split_ifs
    · exact hmint.trans (inherits_splitAt _ p direction ratio size cwd _ s.mint)
    · exact hmint
  | closePane p => exact inherits_closePane p s
  | closeTab tabId => exact inherits_closeTab tabId s
  | moveTab tabId newIndex => exact inherits_moveTab tabId newIndex s
  | createWorkspace name => exact inherits_createWorkspace name s
  | deleteWorkspace i => exact inherits_deleteWorkspace i s
  | duplicateWorkspace i name size => exact inherits_duplicateWorkspace i name size s
  | moveWorkspace i j => exact inherits_moveWorkspace i j s
  | renameWorkspace i name => exact inherits_renameWorkspace i name s
  | setWorkspaceColor i color => exact inherits_setWorkspaceColor i color s
  | setActiveTab i j => exact inherits_setActiveTab i j s
  | setActiveWorkspace i => exact inherits_setActiveWorkspace i s
  | setActivePane i tabId p => exact inherits_setActivePane i tabId p s
  | updateSplitRatios updates => exact inherits_updateSplitRatios updates s
  | setPaneCwd p cwd =>
    exact .of_layout (setPaneCwd_layout p cwd s) (effect_setPaneCwd p cwd s).minted
  | setPinned pinned => exact .of_layout rfl le_rfl
  | resizePane resizeOk p size =>
    exact .of_layout (resizePane_layout resizeOk p size s) (effect_resizePane resizeOk p size s).minted
  | processPaneBytes procCwd alive p bytes =>
    exact .of_layout (processPaneBytes_layout procCwd alive p bytes s)
      (effect_processPaneBytes procCwd alive p bytes s).minted

end SessionManager

end Forgetty
