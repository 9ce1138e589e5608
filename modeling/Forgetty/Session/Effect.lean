import Forgetty.Session.Operations
import Forgetty.Lib.Splice

/-! What a call does to the panes. `Effect gone new s t` says that between the
states `s` and `t` the panes `gone` left and the panes `new` came, in the registry,
in the creation order and in the layout alike. Every operation is shown to have
such an effect here; what it preserves is read off the effect alone. -/

namespace Forgetty

open Lib

namespace SessionManager

structure Effect (gone new : List PaneId) (s t : SessionManager) : Prop where
  keys : ∀ p, p ∈ t.panes ↔ (p ∈ s.panes ∧ p ∉ gone) ∨ p ∈ new
  order : t.paneOrder = s.paneOrder.filter (· ∉ gone) ++ new
  leaves : t.layout.leaves.Perm (s.layout.leaves.filter (· ∉ gone) ++ new)
  minted : s.minted ≤ t.minted
  workspaces : s.layout.workspaces ≠ [] → t.layout.workspaces ≠ []

/-- The panes `new` carry UUIDs handed out between the two states, each its own. -/
def Minted (w : World) (new : List PaneId) (s t : SessionManager) : Prop :=
  new.Nodup ∧ ∀ p ∈ new, ∃ n, s.minted ≤ n ∧ n < t.minted ∧ p = ⟨w.newV4 n⟩

theorem Effect.of_same {s t : SessionManager} (keys : ∀ p, p ∈ t.panes ↔ p ∈ s.panes)
    (order : t.paneOrder = s.paneOrder) (leaves : t.layout.leaves.Perm s.layout.leaves)
    (minted : s.minted ≤ t.minted)
    (workspaces : s.layout.workspaces ≠ [] → t.layout.workspaces ≠ []) : Effect [] [] s t where
  keys := by simp [keys]
  order := by simp [order]
  leaves := by simpa using leaves
  minted := minted
  workspaces := workspaces

theorem Effect.refl (s : SessionManager) : Effect [] [] s s :=
  .of_same (fun _ => Iff.rfl) rfl (List.Perm.refl _) le_rfl id

/-- Panes that leave and come, then more that come. -/
theorem Effect.trans {gone new new' : List PaneId} {s t u : SessionManager}
    (h : Effect gone new s t) (h' : Effect [] new' t u) : Effect gone (new ++ new') s u where
  keys p := by
    rw [h'.keys, h.keys, List.mem_append, ← or_assoc]
    simp
  order := by
    rw [h'.order, h.order]
    simp
  leaves := by
    refine h'.leaves.trans ?_
    rw [List.filter_eq_self.mpr (by simp), ← List.append_assoc]
    exact h.leaves.append_right new'
  minted := h.minted.trans h'.minted
  workspaces := h'.workspaces ∘ h.workspaces

/-- Panes that leave, then panes that come. -/
theorem Effect.then_new {gone new : List PaneId} {s t u : SessionManager} (h : Effect gone [] s t)
    (h' : Effect [] new t u) : Effect gone new s u := h.trans h'

theorem Effect.trans_same {gone new : List PaneId} {s t u : SessionManager}
    (h : Effect gone new s t) (h' : Effect [] [] t u) : Effect gone new s u := by
  have hall := h.trans h'
  rwa [List.append_nil] at hall

theorem Minted.nil (w : World) (s t : SessionManager) : Minted w [] s t := by simp [Minted]

theorem Minted.mono {w : World} {new : List PaneId} {s t u : SessionManager}
    (h : Minted w new t u) (hst : s.minted ≤ t.minted) : Minted w new s u :=
  ⟨h.1, fun _ hp =>
    let ⟨n, hn, hn', hpn⟩ := h.2 _ hp
    ⟨n, hst.trans hn, hn', hpn⟩⟩

theorem Minted.mono_right {w : World} {new : List PaneId} {s t u : SessionManager}
    (h : Minted w new s t) (htu : t.minted ≤ u.minted) : Minted w new s u :=
  ⟨h.1, fun _ hp =>
    let ⟨n, hn, hn', hpn⟩ := h.2 _ hp
    ⟨n, hn, hn'.trans_le htu, hpn⟩⟩

theorem Minted.single {w : World} {s t : SessionManager} {n : ℕ} (h : s.minted ≤ n)
    (h' : n < t.minted) : Minted w [⟨w.newV4 n⟩] s t :=
  ⟨List.nodup_singleton _, fun _ hp => ⟨n, h, h', List.mem_singleton.mp hp⟩⟩

/-- A workspace that gained leaves. -/
theorem leaves_modify {wss : List SessionWorkspace} {i : ℕ} {ws : SessionWorkspace}
    {f : SessionWorkspace → SessionWorkspace} {ps : List PaneId} (h : wss[i]? = some ws)
    (hf : (f ws).leaves.Perm (ws.leaves ++ ps)) :
    ((wss.modify i f).flatMap SessionWorkspace.leaves).Perm
      (wss.flatMap SessionWorkspace.leaves ++ ps) := by
  obtain ⟨pre, post, hs, -, hm, -⟩ := exists_split h
  rw [hm f, hs]
  exact flatMap_perm_of_gain hf

/-! ### A pane that comes -/

/-- A registered pane with a tab of its own in an existing workspace. -/
theorem effect_registerPane {s t : SessionManager} {p : PaneId}
    (keys : ∀ q, q ∈ t.panes ↔ q = p ∨ q ∈ s.panes) (order : t.paneOrder = s.paneOrder ++ [p])
    (leaves : t.layout.leaves.Perm (s.layout.leaves ++ [p])) (minted : s.minted ≤ t.minted)
    (workspaces : s.layout.workspaces ≠ [] → t.layout.workspaces ≠ []) :
    Effect [] [p] s t where
  keys q := by rw [keys, or_comm]; simp
  order := by simp [order]
  leaves := by simpa using leaves
  minted := minted
  workspaces := workspaces

theorem leaves_pushTab {ws : SessionWorkspace} {tabId : Uuid} {p : PaneId} :
    ({ ws with tabs := ws.tabs ++ [.ofLeaf tabId p] } : SessionWorkspace).leaves =
      ws.leaves ++ [p] := by
  simp [SessionWorkspace.leaves, SessionTab.ofLeaf]

theorem effect_createTabWithPaneId (w : World) (i : ℕ) (cwd : Option PathBuf) (size : PtySize)
    (command : Option (List String)) (p : PaneId) (s : SessionManager) :
    ∃ new, (new = [] ∨ new = [p]) ∧
      Effect [] new s (s.createTabWithPaneId w i cwd size command p).1 := by
  unfold createTabWithPaneId
  split_ifs with hi
  · exact ⟨[], Or.inl rfl, .refl s⟩
  · obtain ⟨ws, hws⟩ : ∃ ws, s.layout.workspaces[i]? = some ws := ⟨_, List.getElem?_eq_getElem (by omega)⟩
    split
    · exact ⟨[], Or.inl rfl, .of_same (by simp) (by simp) (by simp) (by simp) (by simp)⟩
    · refine ⟨[p], Or.inr rfl, effect_registerPane (by simp [PaneState.spawned])
        (by simp [PaneState.spawned]) ?_ (by simp) ?_⟩
      · simp only [SessionLayout.leaves, spawnDrainTask_layout, send_layout, pushTab_workspaces]
        exact leaves_modify hws (by rw [leaves_pushTab])
      · simp

theorem effect_autoSeedDefaultTab (w : World) (i : ℕ) (size : PtySize) (s : SessionManager) :
    ∃ new, Effect [] new s (s.autoSeedDefaultTab w i size).1 ∧
      Minted w new s (s.autoSeedDefaultTab w i size).1 := by
  unfold autoSeedDefaultTab
  split_ifs with hi
  · exact ⟨[], .refl s, .nil w s s⟩
  · obtain ⟨ws, hws⟩ : ∃ ws, s.layout.workspaces[i]? = some ws := ⟨_, List.getElem?_eq_getElem (by omega)⟩
    split
    · exact ⟨[], .of_same (by simp) (by simp) (by simp) (by simp) (by simp), .nil w _ _⟩
    · refine ⟨[⟨w.newV4 s.minted⟩], effect_registerPane (by simp [PaneState.spawned])
        (by simp [PaneState.spawned]) ?_ (by simp; omega) ?_,
        .single (by simp) (by show s.minted < s.minted + 1 + 1; omega)⟩
      · simp only [SessionLayout.leaves, send_layout, modifyWorkspace_workspaces,
          pushTab_workspaces, mint_layout, registerPane_layout, countSpawn_layout]
        rw [List.modify_modify_eq]
        exact leaves_modify hws (by
          show ({ ws with tabs := ws.tabs ++ [.ofLeaf _ _], activeTab := 0 } : SessionWorkspace).leaves.Perm _
          simp [SessionWorkspace.leaves, SessionTab.ofLeaf])
      · simp

theorem effect_spawnDrainTask (w : World) (p : PaneId) (s : SessionManager) :
    Effect [] [] s (s.spawnDrainTask w p) :=
  .of_same (by simp) (by simp) (by simp) (by simp) (by simp)

theorem effect_healEmptied (w : World) (emptied : Option ℕ) (s : SessionManager) :
    ∃ new, Effect [] new s (s.healEmptied w emptied) ∧ Minted w new s (s.healEmptied w emptied) := by
  unfold healEmptied
  split
  · exact ⟨[], .refl s, .nil w s s⟩
  · rename_i i
    split_ifs with hlen
    · obtain ⟨new, he, hm⟩ := effect_autoSeedDefaultTab w i .default s
      split
      · rename_i t p tabId heq
        rw [heq] at he hm
        have hd := effect_spawnDrainTask w p t
        refine ⟨new, ?_, ?_⟩
        · simpa using he.trans_same hd
        · exact hm.mono_right (by simp)
      · rename_i t e heq
        rw [heq] at he hm
        exact ⟨new, he, hm⟩
    · exact ⟨[], .refl s, .nil w s s⟩

theorem effect_createPane (w : World) (size : PtySize) (cwd : Option PathBuf)
    (command : Option (List String)) (shell : Option String) (login : Bool) {s : SessionManager}
    (hws : s.layout.workspaces ≠ []) :
    ∃ new, Effect [] new s (s.createPane w size cwd command shell login).1 ∧
      Minted w new s (s.createPane w size cwd command shell login).1 := by
  unfold createPane
  obtain ⟨ws, rest, hcons⟩ := List.exists_cons_of_ne_nil hws
  have hws0 : s.layout.workspaces[0]? = some ws := by rw [hcons]; rfl
  dsimp only
  split
  · exact ⟨[], .of_same (by simp) (by simp) (by simp) (by simp) (by simp), .nil w _ _⟩
  · refine ⟨[⟨w.newV4 s.minted⟩], effect_registerPane (by simp [PaneState.spawned])
      (by simp [PaneState.spawned]) ?_ (by simp; omega) ?_,
      .single (by simp) (by rw [spawnDrainTask_minted]; show s.minted < s.minted + 1 + 1; omega)⟩
    · simp only [SessionLayout.leaves, spawnDrainTask_layout, send_layout, pushTab_workspaces,
        mint_layout, registerPane_layout, countSpawn_layout]
      exact leaves_modify hws0 (by rw [leaves_pushTab])
    · simp

/-! ### Panes that leave -/

/-- A step that takes one pane out of the registry and leaves the layout alone. -/
structure Unregisters (f : SessionManager → PaneId → SessionManager) : Prop where
  panes : ∀ s p, (f s p).panes = s.panes.erase p
  paneOrder : ∀ s p, (f s p).paneOrder = s.paneOrder.filter (· ≠ p)
  layout : ∀ s p, (f s p).layout = s.layout
  minted : ∀ s p, (f s p).minted = s.minted

theorem unregisters_closeTabPane : Unregisters closeTabPane where
  panes s p := by unfold closeTabPane; split_ifs <;> simp
  paneOrder s p := by unfold closeTabPane; split_ifs <;> simp
  layout s p := by unfold closeTabPane; split_ifs <;> simp
  minted s p := by unfold closeTabPane; split_ifs <;> simp

theorem unregisters_deletePane : Unregisters deletePane where
  panes _ _ := rfl
  paneOrder _ _ := rfl
  layout _ _ := rfl
  minted _ _ := rfl

namespace Unregisters

variable {f : SessionManager → PaneId → SessionManager} (hf : Unregisters f)
include hf

theorem foldl_layout (ps : List PaneId) (s : SessionManager) :
    (ps.foldl f s).layout = s.layout := by
  induction ps generalizing s with
  | nil => rfl
  | cons p ps ih => rw [List.foldl_cons, ih, hf.layout]

theorem foldl_minted (ps : List PaneId) (s : SessionManager) :
    (ps.foldl f s).minted = s.minted := by
  induction ps generalizing s with
  | nil => rfl
  | cons p ps ih => rw [List.foldl_cons, ih, hf.minted]

theorem foldl_mem_panes (ps : List PaneId) (s : SessionManager) (q : PaneId) :
    q ∈ (ps.foldl f s).panes ↔ q ∈ s.panes ∧ q ∉ ps := by
  induction ps generalizing s with
  | nil => simp
  | cons p ps ih =>
    rw [List.foldl_cons, ih, hf.panes, PMap.mem_erase, List.mem_cons, not_or]
    tauto

theorem foldl_paneOrder (ps : List PaneId) (s : SessionManager) :
    (ps.foldl f s).paneOrder = s.paneOrder.filter (· ∉ ps) := by
  induction ps generalizing s with
  | nil => simp
  | cons p ps ih =>
    rw [List.foldl_cons, ih, hf.paneOrder, List.filter_filter]
    apply List.filter_congr
    intro q _
    simp only [List.mem_cons, not_or, Bool.decide_and, ne_eq, Bool.and_comm]

/-- Panes that leave the registry and, with `wss`, the layout. -/
theorem effect {s t : SessionManager} {ps : List PaneId} (wss : List SessionWorkspace)
    (hd : s.layout.leaves.Nodup) (panes : ∀ q, q ∈ t.panes ↔ q ∈ (ps.foldl f s).panes)
    (order : t.paneOrder = (ps.foldl f s).paneOrder) (layout : t.layout.workspaces = wss)
    (leaves : s.layout.leaves.Perm (wss.flatMap SessionWorkspace.leaves ++ ps))
    (minted : s.minted ≤ t.minted) (ne : wss ≠ []) : Effect ps [] s t where
  keys q := by rw [panes, hf.foldl_mem_panes]; simp
  order := by rw [order, hf.foldl_paneOrder, List.append_nil]
  leaves := by
    rw [List.append_nil, SessionLayout.leaves, layout]
    have hnd := leaves.nodup_iff.mp hd
    refine List.Perm.symm ((leaves.filter _).trans ?_)
    rw [List.filter_append, List.filter_eq_self.mpr, List.filter_eq_nil_iff.mpr, List.append_nil]
    · simp
    · intro q hq
      simpa using fun hp => (List.nodup_append.mp hnd).2.2 q hq q hp rfl
  minted := minted
  workspaces _ := layout ▸ ne

end Unregisters

/-- A workspace that lost leaves. -/
theorem leaves_modify_loss {wss : List SessionWorkspace} {i : ℕ} {ws : SessionWorkspace}
    {f : SessionWorkspace → SessionWorkspace} {ps : List PaneId} (h : wss[i]? = some ws)
    (hf : ws.leaves.Perm ((f ws).leaves ++ ps)) :
    (wss.flatMap SessionWorkspace.leaves).Perm
      ((wss.modify i f).flatMap SessionWorkspace.leaves ++ ps) := by
  obtain ⟨pre, post, hs, -, hm, -⟩ := exists_split h
  rw [hm f, hs]
  exact flatMap_perm_of_gain hf

@[simp] theorem clampActiveTab_tabs (ws : SessionWorkspace) :
    (clampActiveTab ws).tabs = ws.tabs := by
  unfold clampActiveTab; split_ifs <;> rfl

theorem leaves_eraseIdx {ws : SessionWorkspace} {j : ℕ} {tab : SessionTab}
    (h : ws.tabs[j]? = some tab) :
    ws.leaves.Perm ((clampActiveTab { ws with tabs := ws.tabs.eraseIdx j }).leaves ++
      tab.paneTree.leaves) := by
  obtain ⟨pre, post, hs, -, -, he⟩ := exists_split h
  simp only [SessionWorkspace.leaves, clampActiveTab_tabs, he]
  rw [hs, List.flatMap_append, List.flatMap_cons, List.flatMap_append, List.append_assoc]
  exact List.Perm.append_left _ List.perm_append_comm

/-- The tab found has the id and is where the indices say. -/
theorem findTab_spec {s : SessionManager} {tabId : Uuid} {i j : ℕ}
    (h : s.findTab tabId = some (i, j)) :
    ∃ ws tab, s.layout.workspaces[i]? = some ws ∧ ws.tabs[j]? = some tab ∧ tab.id = tabId := by
  obtain ⟨pre, ws, post, hs, hf, -, -⟩ := visit_some (by intro i ws _; rfl) h
  simp only [Option.map_eq_some_iff, Prod.mk.injEq] at hf
  obtain ⟨j', hj, rfl, rfl⟩ := hf
  obtain ⟨hlt, hid, -⟩ := List.findIdx?_eq_some_iff_getElem.mp hj
  exact ⟨ws, ws.tabs[j'], by simp [hs], List.getElem?_eq_getElem hlt, by simpa using hid⟩

/-- The tab found goes with its panes. -/
theorem effect_closeTab_of_found (w : World) {tabId : Uuid} {s : SessionManager}
    (hd : s.layout.leaves.Nodup) {i j : ℕ} (hfind : s.findTab tabId = some (i, j))
    {ws : SessionWorkspace} {tab : SessionTab} (hws : s.layout.workspaces[i]? = some ws)
    (htab : ws.tabs[j]? = some tab) :
    ∃ new, Effect tab.paneTree.leaves new s (s.closeTab w tabId).1 ∧
      Minted w new s (s.closeTab w tabId).1 := by
  rw [closeTab, hfind]
  simp only [hws, Option.bind_some, htab, Option.map_some, Option.getD_some, collectPaneIds_eq,
    List.nil_append]
  have hmid : Effect tab.paneTree.leaves [] s
      ((tab.paneTree.leaves.foldl closeTabPane (s.modifyWorkspace i fun ws =>
        clampActiveTab { ws with tabs := ws.tabs.eraseIdx j })).send (.tabClosed i tabId)) := by
    have hu := unregisters_closeTabPane
    refine hu.effect _ hd (fun q => by simp [hu.foldl_mem_panes]) (by simp [hu.foldl_paneOrder])
      (by rw [send_layout, hu.foldl_layout, modifyWorkspace_workspaces]) ?_
      (by simp [hu.foldl_minted]) ?_
    · exact leaves_modify_loss hws (leaves_eraseIdx htab)
    · rw [← List.length_pos_iff, List.length_modify]
      have := (List.getElem?_eq_some_iff.mp hws).1
      omega
  obtain ⟨new, he, hm⟩ := effect_healEmptied w _ _
  exact ⟨new, hmid.then_new he, hm.mono hmid.minted⟩

theorem effect_closeTab (w : World) (tabId : Uuid) {s : SessionManager}
    (hd : s.layout.leaves.Nodup) :
    ∃ gone new, Effect gone new s (s.closeTab w tabId).1 ∧
      Minted w new s (s.closeTab w tabId).1 := by
  cases hfind : s.findTab tabId with
  | none =>
    rw [closeTab, hfind]
    exact ⟨[], [], .refl s, .nil w s s⟩
  | some place =>
    obtain ⟨i, j⟩ := place
    obtain ⟨ws, tab, hws, htab, -⟩ := findTab_spec hfind
    exact ⟨_, effect_closeTab_of_found w hd hfind hws htab⟩

theorem foldl_collectPaneIds (tabs : List SessionTab) (out : List PaneId) :
    tabs.foldl (fun out tab => collectPaneIds tab.paneTree out) out =
      out ++ tabs.flatMap fun t => t.paneTree.leaves := by
  induction tabs generalizing out with
  | nil => simp
  | cons t tabs ih =>
    rw [List.foldl_cons, ih, collectPaneIds_eq, List.append_assoc, List.flatMap_cons]

/-- A workspace that is not the only one goes with its panes. -/
theorem effect_deleteWorkspace_of_get {i : ℕ} {s : SessionManager} (hd : s.layout.leaves.Nodup)
    {ws : SessionWorkspace} (hws : s.layout.workspaces[i]? = some ws)
    (hlen : ¬s.layout.workspaces.length ≤ 1) : Effect ws.leaves [] s (s.deleteWorkspace i).1 := by
  rw [deleteWorkspace, hws]
  dsimp only
  rw [if_neg hlen]
  have hu := unregisters_deletePane
  obtain ⟨pre, post, hs, -, -, he⟩ := exists_split hws
  refine hu.effect (s.layout.workspaces.eraseIdx i) hd (fun q => ?_) ?_ ?_ ?_ ?_ ?_
  · simp [foldl_collectPaneIds, SessionWorkspace.leaves]
  · simp [foldl_collectPaneIds, SessionWorkspace.leaves]
  · simp [hu.foldl_layout]
  · rw [SessionLayout.leaves, he, hs, List.flatMap_append, List.flatMap_cons,
      List.flatMap_append, List.append_assoc]
    exact List.Perm.append_left _ List.perm_append_comm
  · simp [hu.foldl_minted]
  · have hi := (List.getElem?_eq_some_iff.mp hws).1
    rw [← List.length_pos_iff, List.length_eraseIdx_of_lt hi]
    omega

theorem effect_deleteWorkspace (i : ℕ) {s : SessionManager} (hd : s.layout.leaves.Nodup) :
    ∃ gone, Effect gone [] s (s.deleteWorkspace i).1 := by
  cases hws : s.layout.workspaces[i]? with
  | none =>
    rw [deleteWorkspace, hws]
    exact ⟨[], .refl s⟩
  | some ws =>
    by_cases hlen : s.layout.workspaces.length ≤ 1
    · rw [deleteWorkspace, hws]
      dsimp only
      rw [if_pos hlen]
      exact ⟨[], .refl s⟩
    · exact ⟨ws.leaves, effect_deleteWorkspace_of_get hd hws hlen⟩

/-! ### Panes that stay -/

theorem effect_send (e : SessionEvent) (s : SessionManager) : Effect [] [] s (s.send e) :=
  .of_same (fun _ => Iff.rfl) rfl (List.Perm.refl _) le_rfl id

/-- A workspace changed in place, all its panes kept. -/
theorem effect_modifyWorkspace (i : ℕ) {f : SessionWorkspace → SessionWorkspace}
    (s : SessionManager) (hf : ∀ ws, (f ws).leaves = ws.leaves) :
    Effect [] [] s (s.modifyWorkspace i f) := by
  refine .of_same (fun _ => Iff.rfl) rfl (List.Perm.of_eq ?_) le_rfl (by simp)
  rw [SessionLayout.leaves, modifyWorkspace_workspaces, flatMap_modify_of_eq hf,
    SessionLayout.leaves]

theorem effect_renameWorkspace (i : ℕ) (name : String) (s : SessionManager) :
    Effect [] [] s (s.renameWorkspace i name).1 := by
  unfold renameWorkspace
  split
  · exact .refl s
  · split_ifs
    · exact .refl s
    · exact (effect_modifyWorkspace i s (by intro; rfl)).trans_same (effect_send _ _)

theorem effect_setWorkspaceColor (i : ℕ) (color : Option String) (s : SessionManager) :
    Effect [] [] s (s.setWorkspaceColor i color).1 := by
  unfold setWorkspaceColor
  split
  · exact .refl s
  · split_ifs
    · exact .refl s
    · exact (effect_modifyWorkspace i s (by intro; rfl)).trans_same (effect_send _ _)

theorem effect_setActiveTab (i j : ℕ) (s : SessionManager) :
    Effect [] [] s (s.setActiveTab i j).1 := by
  unfold setActiveTab
  split
  · exact .refl s
  · split_ifs
    · exact .refl s
    · exact (effect_modifyWorkspace i s (by intro; rfl)).trans_same (effect_send _ _)

theorem effect_setActiveWorkspace (i : ℕ) (s : SessionManager) :
    Effect [] [] s (s.setActiveWorkspace i).1 := by
  unfold setActiveWorkspace
  split_ifs
  · exact .refl s
  · exact .refl s
  · exact .of_same (fun _ => Iff.rfl) rfl (List.Perm.refl _) le_rfl id

theorem leaves_writeActivePane (tabId : Uuid) (p : Option PaneId) (ws : SessionWorkspace) :
    (writeActivePane tabId p ws).leaves = ws.leaves := by
  rw [SessionWorkspace.leaves, writeActivePane, flatMap_modify_of_eq (by intro; rfl),
    SessionWorkspace.leaves]

theorem effect_setActivePane (i : ℕ) (tabId : Uuid) (p : Option PaneId) (s : SessionManager) :
    Effect [] [] s (s.setActivePane i tabId p).1 := by
  unfold setActivePane
  split
  · exact .refl s
  · split
    · exact .refl s
    · split
      · exact .refl s
      · split_ifs
        · exact .refl s
        · exact (effect_modifyWorkspace i s (leaves_writeActivePane tabId p)).trans_same
            (effect_send _ _)

theorem effect_moveWorkspace (i j : ℕ) (s : SessionManager) :
    Effect [] [] s (s.moveWorkspace i j).1 := by
  unfold moveWorkspace
  dsimp only
  split
  · exact .refl s
  · exact .refl s
  · rename_i hi hj
    split
    · exact .refl s
    · have hp := set_set_perm hi hj
      refine .of_same (fun _ => Iff.rfl) rfl (hp.flatMap_right _) le_rfl ?_
      simp

theorem effect_moveTab (tabId : Uuid) (newIndex : ℕ) (s : SessionManager) :
    Effect [] [] s (s.moveTab tabId newIndex).1 := by
  unfold moveTab
  split
  · exact .refl s
  · rename_i i j heq
    split
    · exact .refl s
    · rename_i ws hws
      dsimp only
      split_ifs
      · exact .refl s
      · split
        · exact .refl s
        · rename_i tab htab
          have hp := insertIdx_eraseIdx_perm htab (Nat.min_le_right newIndex _)
          refine Effect.trans_same (.of_same (by simp) (by simp) ?_ (by simp) (by simp))
            (effect_send _ _)
          rw [SessionLayout.leaves, modifyWorkspace_workspaces, SessionLayout.leaves,
            ← List.append_nil (s.layout.workspaces.flatMap _)]
          exact leaves_modify hws (by simpa [SessionWorkspace.leaves] using hp.flatMap_right _)

theorem effect_createWorkspace (w : World) (name : String) (s : SessionManager) :
    Effect [] [] s (s.createWorkspace w name).1 :=
  .of_same (by simp [createWorkspace]) (by simp [createWorkspace])
    (by simp [createWorkspace, SessionLayout.leaves, SessionWorkspace.leaves])
    (by simp [createWorkspace]) (by simp [createWorkspace])

theorem effect_updateSplitRatios (updates : List (PaneId × F32)) (s : SessionManager) :
    Effect [] [] s (s.updateSplitRatios updates) := by
  unfold updateSplitRatios
  induction updates generalizing s with
  | nil => exact .refl s
  | cons u updates ih =>
    refine Effect.trans_same (.of_same (by simp) (by simp) ?_ (by simp) (by simp)) (ih _)
    simp [SessionLayout.leaves, SessionWorkspace.leaves, List.flatMap_map,
      updateRatioForPane_leaves]
    rfl

theorem effect_setPane {s : SessionManager} {p : PaneId} {pane pane' : PaneState}
    (h : s.panes.get p = some pane) : Effect [] [] s (s.setPane p pane') :=
  .of_same (mem_setPane h) rfl (List.Perm.refl _) le_rfl id

theorem effect_setPaneCwd (p : PaneId) (cwd : PathBuf) (s : SessionManager) :
    Effect [] [] s (s.setPaneCwd p cwd) := by
  unfold setPaneCwd
  split
  · exact .refl s
  · exact effect_setPane ‹_›

theorem effect_resizePane (resizeOk : Except String Unit) (p : PaneId) (size : PtySize)
    (s : SessionManager) : Effect [] [] s (s.resizePane resizeOk p size).1 := by
  unfold resizePane
  split
  · exact .refl s
  · split
    · exact .refl s
    · exact effect_setPane ‹_›

theorem effect_processPaneBytes (procCwd : ℕ → Option PathBuf) (alive : Bool) (p : PaneId)
    (bytes : Bytes) (s : SessionManager) :
    Effect [] [] s (s.processPaneBytes procCwd alive p bytes).1 := by
  unfold processPaneBytes
  split
  · exact .refl s
  · rename_i pane h
    dsimp only
    refine Effect.trans_same ?_ (effect_send _ _)
    split
    · exact effect_setPane h
    · exact (effect_setPane h).trans_same (.of_same (fun _ => Iff.rfl) rfl (List.Perm.refl _) le_rfl id)

/-! ### Duplicating a workspace -/

/-- Spawning registers nothing; every pane it prepares has a UUID of its own. -/
theorem duplicateSpawn_spec {w : World} (hw : Function.Injective w.newV4) (size : PtySize)
    (total : ℕ) (cwds : List (Option PathBuf)) (acc : List (PaneId × PtyBridge × PathBuf))
    (s : SessionManager) :
    Effect [] [] s (duplicateSpawn w size total cwds acc s).1 ∧
      ∀ spawned, (duplicateSpawn w size total cwds acc s).2 = .ok spawned →
        ∃ made, spawned = acc ++ made ∧
          Minted w (made.map (·.1)) s (duplicateSpawn w size total cwds acc s).1 := by
  induction cwds generalizing acc s with
  | nil =>
    refine ⟨.refl s, fun spawned h => ⟨[], ?_, .nil w s _⟩⟩
    simpa [duplicateSpawn] using h.symm
  | cons cwd cwds ih =>
    rw [duplicateSpawn]
    dsimp only
    split
    · rename_i bridge _
      obtain ⟨he, hok⟩ := ih (acc ++ [(⟨w.newV4 s.minted⟩, bridge, cwd.getD w.homeDirFallback)])
        s.mint.countSpawn
      have hs : Effect [] [] s s.mint.countSpawn :=
        .of_same (fun _ => Iff.rfl) rfl (List.Perm.refl _) (by simp) id
      refine ⟨hs.trans_same he, fun spawned h => ?_⟩
      obtain ⟨made, rfl, hnd, hm⟩ := hok spawned h
      refine ⟨_ :: made, by rw [List.append_assoc]; rfl, ?_, ?_⟩
      · rw [List.map_cons, List.nodup_cons]
        refine ⟨fun hmem => ?_, hnd⟩
        obtain ⟨n, hn, -, heq⟩ := hm _ hmem
        have := hw (PaneId.mk.inj heq)
        simp only [countSpawn_minted, mint_minted] at hn
        omega
      · intro p hp
        rcases List.mem_cons.mp hp with rfl | hp
        · exact ⟨s.minted, le_rfl, lt_of_lt_of_le (by simp) he.minted, rfl⟩
        · obtain ⟨n, hn, hn', heq⟩ := hm p hp
          exact ⟨n, by simp at hn; omega, hn', heq⟩
    · exact ⟨.of_same (fun _ => Iff.rfl) rfl (List.Perm.refl _) (by simp) id, by simp⟩

/-- The panes of the copy are registered in order, each with a tab. -/
theorem duplicateTabs_spec (w : World) (size : PtySize)
    (spawned : List (PaneId × PtyBridge × PathBuf)) (s : SessionManager) :
    let r := duplicateTabs w size spawned s
    (∀ q, q ∈ r.1.panes ↔ q ∈ s.panes ∨ q ∈ spawned.map (·.1)) ∧
      r.1.paneOrder = s.paneOrder ++ spawned.map (·.1) ∧ r.1.layout = s.layout ∧
      s.minted ≤ r.1.minted ∧ r.2.1.flatMap (·.paneTree.leaves) = spawned.map (·.1) := by
  induction spawned generalizing s with
  | nil => simp [duplicateTabs]
  | cons x spawned ih =>
    obtain ⟨p, bridge, cwd⟩ := x
    obtain ⟨hk, ho, hl, hm, ht⟩ := ih (s.registerPane (.spawned p bridge cwd size)).mint
    refine ⟨fun q => ?_, ?_, hl, ?_, ?_⟩
    · rw [duplicateTabs, hk]
      simp only [mint_panes, registerPane_panes, PMap.mem_insert, List.map_cons, List.mem_cons,
        PaneState.spawned]
      tauto
    · rw [duplicateTabs, ho]
      simp [PaneState.spawned]
    · exact le_trans (by simp) hm
    · rw [duplicateTabs, List.flatMap_cons, ht]
      rfl

theorem effect_foldl_spawnDrainTask (w : World) (dupTabs : List DuplicatedTab)
    (s : SessionManager) :
    Effect [] [] s (dupTabs.foldl (fun sm dt => sm.spawnDrainTask w dt.paneId) s) := by
  induction dupTabs generalizing s with
  | nil => exact .refl s
  | cons dt dupTabs ih => exact (effect_spawnDrainTask w dt.paneId s).trans_same (ih _)

theorem effect_duplicateCommit (w : World) (size : PtySize) (name : String) (insertAt : ℕ)
    (spawned : List (PaneId × PtyBridge × PathBuf)) (s : SessionManager) :
    Effect [] (spawned.map (·.1)) s (s.duplicateCommit w size name insertAt spawned).1 := by
  obtain ⟨hk, ho, hl, hm, ht⟩ := duplicateTabs_spec w size spawned s.mint
  refine ⟨fun q => ?_, ?_, ?_, ?_, ?_⟩
  · simpa [duplicateCommit] using hk q
  · simpa [duplicateCommit] using ho
  · simp only [duplicateCommit, SessionLayout.leaves, sendAll_layout, send_layout,
      setActive_workspaces, setWorkspaces_workspaces, hl, mint_layout]
    refine ((List.perm_insertIdx _ _ (Nat.min_le_right _ _)).flatMap_right _).trans ?_
    rw [List.flatMap_cons]
    refine List.perm_append_comm.trans (List.Perm.of_eq ?_)
    simp only [SessionWorkspace.leaves, ht, List.not_mem_nil, not_false_eq_true, decide_true,
      List.filter_true]
  · exact le_trans (by simp) hm
  · simp only [duplicateCommit, sendAll_layout, send_layout, setActive_workspaces,
      setWorkspaces_workspaces, hl, mint_layout]
    intro _ h
    have := (List.perm_insertIdx _ _ (Nat.min_le_right _ _)).length_eq.symm.trans
      (congrArg List.length h)
    simp at this

theorem effect_duplicateWorkspace {w : World} (hw : Function.Injective w.newV4) (i : ℕ)
    (name : Option String) (size : PtySize) (s : SessionManager) :
    ∃ new, Effect [] new s (s.duplicateWorkspace w i name size).1 ∧
      Minted w new s (s.duplicateWorkspace w i name size).1 := by
  unfold duplicateWorkspace
  split
  · exact ⟨[], .refl s, .nil w s _⟩
  · rename_i dupName insertAt cwds _
    obtain ⟨he, hok⟩ := duplicateSpawn_spec hw size cwds.length cwds [] s
    split
    · rename_i t e heq
      rw [heq] at he
      exact ⟨[], he, .nil w s _⟩
    · rename_i t spawned heq
      rw [heq] at he hok
      obtain ⟨made, rfl, hm⟩ := hok _ rfl
      have hc := effect_duplicateCommit w size dupName insertAt spawned t
      have hd := effect_foldl_spawnDrainTask w
        (t.duplicateCommit w size dupName insertAt spawned).2.2.2
        (t.duplicateCommit w size dupName insertAt spawned).1
      exact ⟨_, he.then_new (hc.trans_same hd), hm.mono_right (hc.minted.trans hd.minted)⟩

/-! ### Calls that close and split nothing -/

/-- A call that takes a UUID first and may then bring the pane with that id. -/
theorem Effect.of_mint {w : World} {s t : SessionManager}
    (h : ∃ new, (new = [] ∨ new = [⟨w.newV4 s.minted⟩]) ∧ Effect [] new s.mint t) :
    ∃ new, Effect [] new s t ∧ Minted w new s t := by
  obtain ⟨new, hnew, he⟩ := h
  have hmint : Effect [] [] s s.mint :=
    .of_same (fun _ => Iff.rfl) rfl (List.Perm.refl _) (by simp) id
  refine ⟨new, hmint.then_new he, ?_⟩
  rcases hnew with rfl | rfl
  · exact .nil w s t
  · exact .single le_rfl (by have := he.minted; simp only [mint_minted] at this; omega)

/-- The calls that arrange the layout or change the record of a pane. -/
def Arranges : Op → Prop
  | .moveTab .. | .createWorkspace _ | .moveWorkspace .. | .renameWorkspace .. | .setWorkspaceColor ..
  | .setActiveTab .. | .setActiveWorkspace _ | .setActivePane .. | .updateSplitRatios _
  | .setPaneCwd .. | .setPinned _ | .resizePane .. => True
  | _ => False

theorem effect_of_arranges {w : World} {s : SessionManager} {op : Op} (h : Arranges op) :
    Effect [] [] s (s.apply w op) := by
  cases op with
  | moveTab tabId newIndex => exact effect_moveTab tabId newIndex s
  | createWorkspace name => exact effect_createWorkspace w name s
  | moveWorkspace i j => exact effect_moveWorkspace i j s
  | renameWorkspace i name => exact effect_renameWorkspace i name s
  | setWorkspaceColor i color => exact effect_setWorkspaceColor i color s
  | setActiveTab i j => exact effect_setActiveTab i j s
  | setActiveWorkspace i => exact effect_setActiveWorkspace i s
  | setActivePane i tabId p => exact effect_setActivePane i tabId p s
  | updateSplitRatios updates => exact effect_updateSplitRatios updates s
  | setPaneCwd p cwd => exact effect_setPaneCwd p cwd s
  | setPinned pinned => exact .of_same (fun _ => Iff.rfl) rfl (List.Perm.refl _) le_rfl id
  | resizePane resizeOk p size => exact effect_resizePane resizeOk p size s
  | _ => exact absurd h id

/-- Such calls only bring panes. -/
def Grows : Op → Prop
  | .splitPane .. | .splitPaneWithRatio .. | .closePane _ | .closeTab _ | .deleteWorkspace _ => False
  | _ => True

theorem effect_of_grows {w : World} (hw : Function.Injective w.newV4) {s : SessionManager}
    (hs : s.layout.workspaces ≠ []) {op : Op} (hop : Grows op) :
    ∃ new, Effect [] new s (s.apply w op) ∧ Minted w new s (s.apply w op) := by
  have kept {t : SessionManager} (h : Effect [] [] s t) :
      ∃ new, Effect [] new s t ∧ Minted w new s t := ⟨[], h, .nil w s t⟩
  cases op with
  | createPane size cwd command shell login => exact effect_createPane w size cwd command shell login hs
  | createTab i cwd size command =>
    exact Effect.of_mint (effect_createTabWithPaneId w i cwd size command _ s.mint)
  | splitPane p direction size cwd => exact absurd hop id
  | splitPaneWithRatio p direction ratio size cwd => exact absurd hop id
  | closePane p => exact absurd hop id
  | closeTab tabId => exact absurd hop id
  | deleteWorkspace i => exact absurd hop id
  | duplicateWorkspace i name size => exact effect_duplicateWorkspace hw i name size s
  | processPaneBytes procCwd alive p bytes =>
    exact kept (effect_processPaneBytes procCwd alive p bytes s)
  | _ => exact kept (effect_of_arranges trivial)

/-! ### Splitting a pane -/

section Split

variable {target newPane : PaneId} {direction : String} {ratio : F32}

theorem quiet_replaceLeafInTabs : Quiet fun (_ : ℕ) (tab : SessionTab) =>
    let inTree := replaceLeafWithRatio target newPane direction ratio tab.paneTree
    ({ tab with paneTree := inTree.1 }, if inTree.2 then some tab.id else none) := by
  intro i tab h
  have hm : target ∉ tab.paneTree.leaves := fun hm => by
    simp [(replaceLeafWithRatio_hit tab.paneTree).mpr hm] at h
  simp only [replaceLeafWithRatio_miss hm]

theorem quiet_replaceLeafInLayout : Quiet fun (_ : ℕ) (ws : SessionWorkspace) =>
    let inTabs := replaceLeafInTabs target newPane direction ratio ws.tabs
    ({ ws with tabs := inTabs.1 }, inTabs.2) := by
  intro i ws h
  simp only [replaceLeafInTabs, (visit_none quiet_replaceLeafInTabs h).1]

/-- The tabs before the one that has the leaf stay; that one is split. -/
theorem replaceLeafInTabs_some {tabs : List SessionTab} {tabId : Uuid}
    (h : (replaceLeafInTabs target newPane direction ratio tabs).2 = some tabId) :
    ∃ pre tab post, tabs = pre ++ tab :: post ∧ target ∈ tab.paneTree.leaves ∧ tab.id = tabId ∧
      (replaceLeafInTabs target newPane direction ratio tabs).1 = pre ++
        { tab with paneTree :=
          (replaceLeafWithRatio target newPane direction ratio tab.paneTree).1 } :: post ∧
      ∀ t ∈ pre, target ∉ t.paneTree.leaves := by
  obtain ⟨pre, tab, post, hs, hf, hl, hn⟩ := visit_some quiet_replaceLeafInTabs h
  by_cases hm : target ∈ tab.paneTree.leaves
  · refine ⟨pre, tab, post, hs, hm, ?_, hl, fun t ht hmem => ?_⟩
    · simpa [(replaceLeafWithRatio_hit tab.paneTree).mpr hm] using hf
    · obtain ⟨j, hj, rfl⟩ := List.getElem_of_mem ht
      have := hn j hj
      simp [(replaceLeafWithRatio_hit pre[j].paneTree).mpr hmem] at this
  · simp [replaceLeafWithRatio_miss hm] at hf

theorem replaceLeafInTabs_none {tabs : List SessionTab}
    (h : (replaceLeafInTabs target newPane direction ratio tabs).2 = none) :
    ∀ t ∈ tabs, target ∉ t.paneTree.leaves := by
  intro t ht hmem
  obtain ⟨j, hj, rfl⟩ := List.getElem_of_mem ht
  have := (visit_none quiet_replaceLeafInTabs h).2 j hj
  simp [(replaceLeafWithRatio_hit tabs[j].paneTree).mpr hmem] at this

theorem replaceLeafInLayout_some {wss : List SessionWorkspace} {tabId : Uuid}
    (h : (replaceLeafInLayout target newPane direction ratio wss).2 = some tabId) :
    ∃ pre ws post, wss = pre ++ ws :: post ∧
      (replaceLeafInTabs target newPane direction ratio ws.tabs).2 = some tabId ∧
      (replaceLeafInLayout target newPane direction ratio wss).1 = pre ++
        { ws with tabs := (replaceLeafInTabs target newPane direction ratio ws.tabs).1 } ::
          post ∧ ∀ v ∈ pre, target ∉ v.leaves := by
  obtain ⟨pre, ws, post, hs, hf, hl, hn⟩ := visit_some quiet_replaceLeafInLayout h
  refine ⟨pre, ws, post, hs, hf, hl, fun v hv hmem => ?_⟩
  obtain ⟨j, hj, rfl⟩ := List.getElem_of_mem hv
  obtain ⟨t, ht, hm⟩ := List.mem_flatMap.mp hmem
  exact replaceLeafInTabs_none (hn j hj) t ht hm

theorem replaceLeafInLayout_none {wss : List SessionWorkspace}
    (h : (replaceLeafInLayout target newPane direction ratio wss).2 = none) :
    target ∉ wss.flatMap SessionWorkspace.leaves := by
  intro hmem
  obtain ⟨v, hv, hmem⟩ := List.mem_flatMap.mp hmem
  obtain ⟨t, ht, hm⟩ := List.mem_flatMap.mp hmem
  obtain ⟨j, hj, rfl⟩ := List.getElem_of_mem hv
  exact replaceLeafInTabs_none ((visit_none quiet_replaceLeafInLayout h).2 j hj) t ht hm

/-- A split adds the new pane to the leaves of the layout. -/
theorem replaceLeafInLayout_leaves {wss : List SessionWorkspace} {tabId : Uuid}
    (h : (replaceLeafInLayout target newPane direction ratio wss).2 = some tabId) :
    ((replaceLeafInLayout target newPane direction ratio wss).1.flatMap
        SessionWorkspace.leaves).Perm (wss.flatMap SessionWorkspace.leaves ++ [newPane]) := by
  obtain ⟨pre, ws, post, rfl, hf, hl, -⟩ := replaceLeafInLayout_some h
  obtain ⟨preT, tab, postT, hs, hm, -, hlT, -⟩ := replaceLeafInTabs_some hf
  rw [hl, hlT]
  apply flatMap_perm_of_gain
  rw [SessionWorkspace.leaves, SessionWorkspace.leaves, hs]
  exact flatMap_perm_of_gain (replaceLeafWithRatio_leaves hm)

end Split

/-- A pane id that is not in use is registered and put into the layout, or neither. -/
theorem effect_splitAt (w : World) (caller : String) (p : PaneId) (direction : String)
    (ratio : F32) (size : PtySize) (cwd : Option PathBuf) {q : PaneId} {s : SessionManager}
    (hk : q ∉ s.panes) (ho : q ∉ s.paneOrder) :
    ∃ new, (new = [] ∨ new = [q]) ∧
      Effect [] new s (s.splitAt w caller p direction ratio size cwd q).1 := by
  unfold splitAt
  split
  · exact ⟨[], Or.inl rfl, .of_same (by simp) (by simp) (by simp) (by simp) (by simp)⟩
  · dsimp only
    split
    · refine ⟨[], Or.inl rfl, .of_same (fun r => ?_) ?_ (List.Perm.refl _) le_rfl id⟩
      · simp only [PaneState.spawned, registerPane_panes, PMap.mem_erase, PMap.mem_insert,
          countSpawn_panes]
        constructor
        · rintro ⟨hne, h | h⟩
          · exact absurd h hne
          · exact h
        · exact fun h => ⟨fun heq => hk (heq ▸ h), Or.inr h⟩
      · simp only [PaneState.spawned, registerPane_paneOrder, countSpawn_paneOrder,
          List.filter_append]
        rw [List.filter_eq_self.mpr]
        · simp
        · intro r hr
          simpa using fun heq : r = q => ho (heq ▸ hr)
    · rename_i wss tabId heq
      refine ⟨[q], Or.inr rfl, effect_registerPane (by simp [PaneState.spawned])
        (by simp [PaneState.spawned]) ?_ (by simp) ?_⟩
      · have hl := replaceLeafInLayout_leaves (by rw [heq])
        rw [heq] at hl
        simpa [SessionLayout.leaves] using hl
      · obtain ⟨pre, ws, post, -, -, hl, -⟩ := replaceLeafInLayout_some (by rw [heq])
        rw [heq] at hl
        simp [show wss = _ from hl]

/-! ### Closing a pane -/

section Close

variable {p : PaneId}

theorem dropLeafTabsOf_tabs (i : ℕ) (ws : SessionWorkspace) :
    (dropLeafTabsOf p i ws).1.tabs = ws.tabs.filter fun t => t.paneTree ≠ .leaf p := by
  unfold dropLeafTabsOf
  dsimp only
  split_ifs <;> simp

theorem dropLeafTabsOf_eq_none {i : ℕ} {ws : SessionWorkspace} :
    (dropLeafTabsOf p i ws).2 = none ↔ ∀ t ∈ ws.tabs, t.paneTree ≠ .leaf p := by
  have hlen := List.length_filter_eq_length_iff (l := ws.tabs)
    (p := fun t => t.paneTree ≠ .leaf p)
  simp only [decide_eq_true_eq] at hlen
  rw [← hlen, dropLeafTabsOf]
  dsimp only
  split_ifs with h
  · simpa using Ne.symm h
  · simpa using (not_not.mp h).symm

theorem quiet_dropLeafTabsOf : Quiet (dropLeafTabsOf p) := by
  intro i ws h
  have ht := List.filter_eq_self.mpr fun t ht => decide_eq_true (dropLeafTabsOf_eq_none.mp h t ht)
  unfold dropLeafTabsOf at h ⊢
  dsimp only at h ⊢
  rw [ht] at h ⊢
  simp

/-- Without a tab of its own, a pane that is closed leaves the layout as it is. -/
theorem dropLeafTabs_of_forall {wss : List SessionWorkspace}
    (h : ∀ ws ∈ wss, ∀ t ∈ ws.tabs, t.paneTree ≠ .leaf p) : dropLeafTabs p wss = (wss, none) := by
  have hn : (dropLeafTabs p wss).2 = none := by
    by_contra hne
    obtain ⟨b, hb⟩ := Option.ne_none_iff_exists'.mp hne
    obtain ⟨pre, ws, post, hs, hf, -⟩ := visit_some quiet_dropLeafTabsOf hb
    have hmem : ws ∈ wss := by rw [hs]; simp
    rw [dropLeafTabsOf_eq_none.mpr (h ws hmem)] at hf
    simp at hf
  exact Prod.ext (visit_none quiet_dropLeafTabsOf hn).1 hn

/-- In tabs where the pane is a whole tab or nothing, dropping its tabs drops its leaves. -/
theorem flatMap_filter_leaf {tabs : List SessionTab}
    (h : ∀ t ∈ tabs, p ∈ t.paneTree.leaves → t.paneTree = .leaf p) :
    (tabs.filter fun t => t.paneTree ≠ .leaf p).flatMap (·.paneTree.leaves) =
      (tabs.flatMap (·.paneTree.leaves)).filter (· ≠ p) := by
  induction tabs with
  | nil => rfl
  | cons t tabs ih =>
    have ih := ih fun t' ht' => h t' (List.mem_cons_of_mem _ ht')
    rw [List.flatMap_cons, List.filter_append, ← ih]
    by_cases ht : t.paneTree = .leaf p
    · simp [ht]
    · have hp : p ∉ t.paneTree.leaves := fun hp => ht (h t (by simp) hp)
      have hkeep : t.paneTree.leaves.filter (· ≠ p) = t.paneTree.leaves :=
        List.filter_eq_self.mpr fun q hq => by simpa using fun heq : q = p => hp (heq ▸ hq)
      rw [List.filter_cons_of_pos (by simpa using ht), List.flatMap_cons, hkeep]

end Close

/-- The pane is a leaf of a tab that has other leaves too. -/
def SplitLeaf (p : PaneId) (s : SessionManager) : Prop :=
  ∃ ws ∈ s.layout.workspaces, ∃ t ∈ ws.tabs, p ∈ t.paneTree.leaves ∧ t.paneTree ≠ .leaf p

instance (p : PaneId) (s : SessionManager) : Decidable (SplitLeaf p s) :=
  inferInstanceAs (Decidable (∃ ws ∈ s.layout.workspaces, ∃ t ∈ ws.tabs, _))

section Close

variable {p : PaneId} {s : SessionManager}

theorem leaf_of_not_splitLeaf (h : ¬SplitLeaf p s) {ws : SessionWorkspace}
    (hws : ws ∈ s.layout.workspaces) {t : SessionTab} (ht : t ∈ ws.tabs)
    (hp : p ∈ t.paneTree.leaves) : t.paneTree = .leaf p := by
  by_contra hne
  exact h ⟨ws, hws, t, ht, hp, hne⟩

/-- A leaf of a split is in no other tab. -/
theorem no_leafTab_of_splitLeaf (hd : s.layout.leaves.Nodup) (h : SplitLeaf p s) :
    ∀ ws ∈ s.layout.workspaces, ∀ t ∈ ws.tabs, t.paneTree ≠ .leaf p := by
  intro ws hws t ht heq
  obtain ⟨ws', hws', t', ht', hp', hne⟩ := h
  have hp : p ∈ t.paneTree.leaves := by simp [heq]
  obtain rfl : ws = ws' := eq_of_mem_flatMap hd hws hws'
    (List.mem_flatMap.mpr ⟨t, ht, hp⟩) (List.mem_flatMap.mpr ⟨t', ht', hp'⟩)
  have hdw : ws.leaves.Nodup := (List.nodup_flatMap.mp hd).1 ws hws
  obtain rfl : t = t' := eq_of_mem_flatMap hdw ht ht' hp hp'
  exact hne heq

/-- Closing a pane that is a tab of its own takes its leaf out of the layout. -/
theorem dropLeafTabs_leaves (hd : s.layout.leaves.Nodup) (hs : ¬SplitLeaf p s)
    (hp : p ∈ s.layout.leaves) :
    s.layout.leaves.Perm
      ((dropLeafTabs p s.layout.workspaces).1.flatMap SessionWorkspace.leaves ++ [p]) := by
  cases hr : (dropLeafTabs p s.layout.workspaces).2 with
  | none =>
    obtain ⟨ws, hws, hpw⟩ := List.mem_flatMap.mp hp
    obtain ⟨t, ht, hpt⟩ := List.mem_flatMap.mp hpw
    obtain ⟨i, hi, rfl⟩ := List.getElem_of_mem hws
    have hno := (visit_none quiet_dropLeafTabsOf hr).2 i hi
    exact absurd (leaf_of_not_splitLeaf hs hws ht hpt) (dropLeafTabsOf_eq_none.mp hno t ht)
  | some b =>
    obtain ⟨pre, ws, post, heq, hf, hl, -⟩ := visit_some quiet_dropLeafTabsOf hr
    have hws : ws ∈ s.layout.workspaces := by rw [heq]; simp
    have hdw : ws.leaves.Nodup := (List.nodup_flatMap.mp hd).1 ws hws
    have hpw : p ∈ ws.leaves := by
      by_contra hnp
      have hno : ∀ t ∈ ws.tabs, t.paneTree ≠ .leaf p := fun t ht h =>
        hnp (List.mem_flatMap.mpr ⟨t, ht, by simp [h]⟩)
      rw [dropLeafTabsOf_eq_none.mpr hno] at hf
      simp at hf
    rw [dropLeafTabs, hl, SessionLayout.leaves, heq]
    apply flatMap_perm_of_gain
    rw [SessionWorkspace.leaves, SessionWorkspace.leaves, dropLeafTabsOf_tabs,
      flatMap_filter_leaf fun t ht => leaf_of_not_splitLeaf hs hws ht]
    exact perm_filter_ne_append hdw hpw

theorem dropLeafTabs_ne_nil (p : PaneId) {wss : List SessionWorkspace} (h : wss ≠ []) :
    (dropLeafTabs p wss).1 ≠ [] := by
  cases hr : (dropLeafTabs p wss).2 with
  | none =>
    rw [dropLeafTabs, (visit_none quiet_dropLeafTabsOf hr).1]
    exact h
  | some b =>
    obtain ⟨pre, ws, post, -, -, hl, -⟩ := visit_some quiet_dropLeafTabsOf hr
    rw [dropLeafTabs, hl]
    simp

theorem unregisters_unregister : Unregisters unregister where
  panes _ _ := rfl
  paneOrder _ _ := rfl
  layout _ _ := rfl
  minted _ _ := rfl

/-- A live pane that is a tab of its own goes with the tab. -/
theorem effect_closePane_of_live (w : World) (hd : s.layout.leaves.Nodup)
    (hleaf : p ∈ s.layout.leaves) (hws : s.layout.workspaces ≠ []) (hp : p ∈ s.panes)
    (hs : ¬SplitLeaf p s) :
    ∃ new, Effect [p] new s (s.closePane w p).1 ∧ Minted w new s (s.closePane w p).1 := by
  rw [closePane, if_pos hp]
  dsimp only
  have hmid : Effect [p] [] s (((s.unregister p).setWorkspaces
      (dropLeafTabs p s.layout.workspaces).1).send (.paneClosed p)) :=
    unregisters_unregister.effect _ hd (fun _ => Iff.rfl) rfl rfl
      (dropLeafTabs_leaves hd hs hleaf) le_rfl (dropLeafTabs_ne_nil p hws)
  obtain ⟨new, he, hm⟩ := effect_healEmptied w
    ((dropLeafTabs p s.layout.workspaces).2.getD none) (((s.unregister p).setWorkspaces
      (dropLeafTabs p s.layout.workspaces).1).send (.paneClosed p))
  exact ⟨new, hmid.then_new he, hm.mono hmid.minted⟩

/-- Closing a pane that is a tab of its own, or no pane at all. -/
theorem effect_closePane (w : World) (hd : s.layout.leaves.Nodup)
    (hk : p ∈ s.panes → p ∈ s.layout.leaves) (hws : s.layout.workspaces ≠ [])
    (hs : ¬SplitLeaf p s) :
    ∃ gone new, Effect gone new s (s.closePane w p).1 ∧
      Minted w new s (s.closePane w p).1 := by
  by_cases hp : p ∈ s.panes
  · exact ⟨[p], effect_closePane_of_live w hd (hk hp) hws hp hs⟩
  · rw [closePane, if_neg hp]
    exact ⟨[], [], .refl s, .nil w s _⟩

/-- Closing a leaf of a split takes the pane out of the registry and leaves the
layout as it was. -/
theorem closePane_of_splitLeaf (w : World) (hd : s.layout.leaves.Nodup) (hp : p ∈ s.panes)
    (hs : SplitLeaf p s) :
    s.closePane w p = ((s.unregister p).send (.paneClosed p), .ok ()) := by
  rw [closePane, if_pos hp]
  simp only [unregister_layout, dropLeafTabs_of_forall (no_leafTab_of_splitLeaf hd hs)]
  rfl

end Close

end SessionManager

end Forgetty
