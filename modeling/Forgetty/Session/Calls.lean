import Forgetty.Session.Ids

/-! Every way the state is changed from outside. Besides the calls clients make there
are two that a cold start makes with pane ids it brings along, which nothing checks.
What holds in every state such calls lead to: the ids of tabs and workspaces are
distinct, live panes are in the layout, and the indices are in bounds as long as no
pane is closed that has two tabs of its own. -/

namespace Forgetty

open Lib

/-- A call, with the id of the new pane where the caller brings it along. -/
inductive Call where
  | op (op : Op)
  | createTabWithPaneId (workspaceIdx : ℕ) (cwd : Option PathBuf) (size : PtySize)
      (command : Option (List String)) (paneId : PaneId)
  | splitPaneWithRatioAndPaneId (paneId : PaneId) (direction : String) (ratio : F32)
      (size : PtySize) (cwd : Option PathBuf) (newPaneId : PaneId)

/-- The new state, and whether the call answered an error. -/
def Call.exec (w : World) (sm : SessionManager) :
    Call → SessionManager × Except ForgettyError Unit
  | .op o => o.exec w sm
  | .createTabWithPaneId idx cwd size command p =>
    (sm.createTabWithPaneId w idx cwd size command p).map id (Except.map fun _ => ())
  | .splitPaneWithRatioAndPaneId p direction ratio size cwd q =>
    (sm.splitPaneWithRatioAndPaneId w p direction ratio size cwd q).map id (Except.map fun _ => ())

namespace SessionManager

/-- The state after a call. -/
def invoke (w : World) (sm : SessionManager) (call : Call) : SessionManager := (call.exec w sm).1

/-- The manager of a daemon that comes up. -/
def fresh (w : World) (logFiles : PMap Uuid Bytes) (ringKb maxMb : UInt32) : SessionManager :=
  (new w logFiles).setByteLogConfig ringKb maxMb

/-- The states any calls can bring a manager to. -/
def Reached (w : World) (s : SessionManager) : Prop :=
  ∃ logFiles ringKb maxMb calls, s = run (invoke w) (fresh w logFiles ringKb maxMb) calls

/-- Calls lead from one state to the other. -/
def Leads (w : World) (s t : SessionManager) : Prop := ∃ calls, t = run (invoke w) s calls

section Runs

variable {w : World} {s t u : SessionManager}

theorem Leads.refl (w : World) (s : SessionManager) : Leads w s s := ⟨[], rfl⟩

theorem Leads.single (s : SessionManager) (call : Call) : Leads w s (call.exec w s).1 :=
  ⟨[call], rfl⟩

theorem Leads.trans (h : Leads w s t) (h' : Leads w t u) : Leads w s u := by
  obtain ⟨calls, rfl⟩ := h
  obtain ⟨calls', rfl⟩ := h'
  exact ⟨calls ++ calls', (run_append s calls calls').symm⟩

theorem Reached.leads (h : Reached w s) (ht : Leads w s t) : Reached w t := by
  obtain ⟨logFiles, ringKb, maxMb, calls, rfl⟩ := h
  obtain ⟨calls', rfl⟩ := ht
  exact ⟨logFiles, ringKb, maxMb, calls ++ calls', (run_append _ calls calls').symm⟩

/-- The invariant rule for reached states. -/
theorem Reached.invariant {P : SessionManager → Prop}
    (h0 : ∀ logFiles ringKb maxMb, P (fresh w logFiles ringKb maxMb))
    (hs : ∀ t call, P t → P (invoke w t call)) (h : Reached w s) : P s := by
  obtain ⟨logFiles, ringKb, maxMb, calls, rfl⟩ := h
  exact (along_of_step (h0 logFiles ringKb maxMb) hs).last

end Runs

/-! ### Ids -/

section Ids

variable {w : World} {s : SessionManager}

theorem identified_fresh (hw : Function.Injective w.newV4) (logFiles : PMap Uuid Bytes)
    (ringKb maxMb : UInt32) : Identified w (fresh w logFiles ringKb maxMb) where
  nodup := List.nodup_singleton _
  fresh n hn hmem := by
    obtain rfl := hw (List.mem_singleton.mp hmem)
    exact absurd hn (Nat.not_le.mpr Nat.one_pos)

theorem inherits_invoke (call : Call) (s : SessionManager) : Inherits w s (s.invoke w call) := by
  cases call with
  | op op => exact inherits_apply w op s
  | createTabWithPaneId i cwd size command p => exact inherits_createTabWithPaneId i cwd size command p s
  | splitPaneWithRatioAndPaneId p direction ratio size cwd q =>
    simp only [invoke, Call.exec, splitPaneWithRatioAndPaneId]
    split_ifs
    · exact inherits_splitAt _ p direction ratio size cwd q s
    · exact .refl w s

theorem Reached.identified (hw : Function.Injective w.newV4) (h : Reached w s) : Identified w s :=
  h.invariant (identified_fresh hw) fun t call ht => (inherits_invoke call t).identified hw ht

end Ids

/-! ### Live panes -/

/-- Every live pane is in the layout, and the layout has a workspace. -/
structure LiveShown (s : SessionManager) : Prop where
  leaf : ∀ p ∈ s.panes, p ∈ s.layout.leaves
  workspaces : s.layout.workspaces ≠ []

section LiveShown

variable {w : World} {s t : SessionManager}

theorem LiveShown.effect {new : List PaneId} (h : LiveShown s) (he : Effect [] new s t) :
    LiveShown t where
  leaf p hp := by
    rw [he.leaves.mem_iff, List.mem_append]
    rcases (he.keys p).mp hp with ⟨hp, -⟩ | hp
    · exact Or.inl (by simpa using h.leaf p hp)
    · exact Or.inr hp
  workspaces := he.workspaces h.workspaces

theorem liveShown_splitAt (h : LiveShown s) (caller : String) (p : PaneId) (direction : String)
    (ratio : F32) (size : PtySize) (cwd : Option PathBuf) (q : PaneId) :
    LiveShown (s.splitAt w caller p direction ratio size cwd q).1 := by
  unfold splitAt
  split
  · exact ⟨h.leaf, h.workspaces⟩
  · dsimp only
    split
    · refine ⟨fun r hr => ?_, h.workspaces⟩
      simp only [PaneState.spawned, registerPane_panes, PMap.mem_erase, PMap.mem_insert] at hr
      exact h.leaf r (hr.2.resolve_left hr.1)
    · rename_i wss tabId heq
      constructor
      · intro r hr
        have hl := replaceLeafInLayout_leaves (by rw [heq])
        rw [heq] at hl
        rw [SessionLayout.leaves, spawnDrainTask_layout]
        refine hl.symm.subset ?_
        rw [spawnDrainTask_mem_panes, send_panes, send_panes, setWorkspaces_panes,
          registerPane_panes, PMap.mem_insert] at hr
        rcases hr with rfl | hr
        · exact List.mem_append_right _ (List.mem_singleton.mpr rfl)
        · exact List.mem_append_left _ (h.leaf r hr)
      · obtain ⟨pre, ws, post, -, -, hl, -⟩ := replaceLeafInLayout_some (by rw [heq])
        rw [heq] at hl
        simp [show wss = _ from hl]

/-- Closing a pane drops tabs it has for itself, and no other pane with them. -/
theorem mem_dropLeafTabs {p q : PaneId} {wss : List SessionWorkspace} (hne : q ≠ p)
    (h : q ∈ wss.flatMap SessionWorkspace.leaves) :
    q ∈ (dropLeafTabs p wss).1.flatMap SessionWorkspace.leaves := by
  cases hr : (dropLeafTabs p wss).2 with
  | none => rwa [dropLeafTabs, (visit_none quiet_dropLeafTabsOf hr).1]
  | some b =>
    obtain ⟨pre, ws, post, rfl, -, hout, -⟩ := visit_some quiet_dropLeafTabsOf hr
    rw [dropLeafTabs, hout]
    simp only [List.flatMap_append, List.flatMap_cons, List.mem_append] at h ⊢
    refine h.imp_right fun h => h.imp_left fun h => ?_
    obtain ⟨t, ht, hq⟩ := List.mem_flatMap.mp h
    refine List.mem_flatMap.mpr ⟨t, ?_, hq⟩
    rw [dropLeafTabsOf_tabs]
    refine List.mem_filter.mpr ⟨ht, decide_eq_true fun heq => hne ?_⟩
    rw [heq] at hq
    exact List.mem_singleton.mp hq

theorem liveShown_closePane (h : LiveShown s) (p : PaneId) : LiveShown (s.closePane w p).1 := by
  unfold closePane
  split_ifs
  · obtain ⟨new, he, -⟩ := effect_healEmptied w
      ((dropLeafTabs p (s.unregister p).layout.workspaces).2.getD none)
      (((s.unregister p).setWorkspaces
        (dropLeafTabs p (s.unregister p).layout.workspaces).1).send (.paneClosed p))
    refine LiveShown.effect ⟨fun q hq => ?_, dropLeafTabs_ne_nil p h.workspaces⟩ he
    obtain ⟨hne, hq⟩ := PMap.mem_erase.mp hq
    exact mem_dropLeafTabs hne (h.leaf q hq)
  · exact h

theorem liveShown_closeTab (h : LiveShown s) (tabId : Uuid) :
    LiveShown (s.closeTab w tabId).1 := by
  unfold closeTab
  split
  · exact h
  · rename_i i j heq
    obtain ⟨ws, tab, hws, htab, -⟩ := findTab_spec heq
    simp only [hws, Option.bind_some, htab, Option.map_some, Option.getD_some, collectPaneIds_eq,
      List.nil_append]
    obtain ⟨new, he, -⟩ := effect_healEmptied w _ _
    have hu := unregisters_closeTabPane
    refine LiveShown.effect ⟨fun q hq => ?_, ?_⟩ he
    · rw [send_panes, hu.foldl_mem_panes] at hq
      obtain ⟨hq, hgone⟩ := hq
      rw [SessionLayout.leaves, send_layout, hu.foldl_layout]
      have hperm := @leaves_modify_loss _ _ _
        (fun ws => clampActiveTab { ws with tabs := ws.tabs.eraseIdx j }) _ hws
        (leaves_eraseIdx htab)
      exact (List.mem_append.mp (hperm.subset (h.leaf q hq))).resolve_right hgone
    · rw [send_layout, hu.foldl_layout, modifyWorkspace_workspaces, ← List.length_pos_iff,
        List.length_modify]
      exact List.length_pos_iff.mpr h.workspaces

theorem liveShown_deleteWorkspace (h : LiveShown s) (i : ℕ) :
    LiveShown (s.deleteWorkspace i).1 := by
  unfold deleteWorkspace
  split
  · exact h
  · rename_i ws hws
    split_ifs with hlen
    · exact h
    · obtain ⟨pre, post, hs, -, -, he⟩ := exists_split hws
      obtain ⟨hi, -⟩ := List.getElem?_eq_some_iff.mp hws
      have hu := unregisters_deletePane
      refine ⟨fun q hq => ?_, ?_⟩
      · simp only [send_panes, setActive_panes, setWorkspaces_panes, hu.foldl_mem_panes,
          foldl_collectPaneIds, List.nil_append] at hq
        simp only [SessionLayout.leaves, send_layout, setActive_workspaces,
          setWorkspaces_workspaces, hu.foldl_layout, he]
        have hmem := h.leaf q hq.1
        rw [SessionLayout.leaves, hs] at hmem
        simp only [List.flatMap_append, List.flatMap_cons, List.mem_append] at hmem ⊢
        exact hmem.imp_right fun hmem => hmem.resolve_left hq.2
      · simp only [send_layout, setActive_workspaces, setWorkspaces_workspaces, hu.foldl_layout]
        rw [← List.length_pos_iff, List.length_eraseIdx_of_lt hi]
        omega

theorem liveShown_apply (hw : Function.Injective w.newV4) (h : LiveShown s) (op : Op) :
    LiveShown (s.apply w op) := by
  have grown {t : SessionManager} (he : ∃ new, Effect [] new s t ∧ Minted w new s t) :
      LiveShown t := by
    obtain ⟨new, he, -⟩ := he
    exact h.effect he
  have hmint : LiveShown s.mint := ⟨h.leaf, h.workspaces⟩
  cases op with
  | splitPane p direction size cwd =>
    simp only [SessionManager.apply, Op.exec, splitPane]
    split_ifs
    · exact liveShown_splitAt hmint _ p direction _ size cwd _
    · exact h
  | splitPaneWithRatio p direction ratio size cwd =>
    simp only [SessionManager.apply, Op.exec, splitPaneWithRatio, splitPaneWithRatioAndPaneId]
    split_ifs
    · exact liveShown_splitAt hmint _ p direction ratio size cwd _
    · exact hmint
  | closePane p => exact liveShown_closePane h p
  | closeTab tabId => exact liveShown_closeTab h tabId
  | deleteWorkspace i => exact liveShown_deleteWorkspace h i
  | _ => exact grown (effect_of_grows hw h.workspaces trivial)

theorem liveShown_invoke (hw : Function.Injective w.newV4) (h : LiveShown s) (call : Call) :
    LiveShown (s.invoke w call) := by
  cases call with
  | op op => exact liveShown_apply hw h op
  | createTabWithPaneId i cwd size command p =>
    obtain ⟨new, -, he⟩ := effect_createTabWithPaneId w i cwd size command p s
    exact h.effect he
  | splitPaneWithRatioAndPaneId p direction ratio size cwd q =>
    simp only [invoke, Call.exec, splitPaneWithRatioAndPaneId]
    split_ifs
    · exact liveShown_splitAt h _ p direction ratio size cwd q
    · exact h

theorem liveShown_fresh (logFiles : PMap Uuid Bytes) (ringKb maxMb : UInt32) :
    LiveShown (fresh w logFiles ringKb maxMb) where
  leaf p hp := absurd hp (PMap.not_mem_empty p)
  workspaces := List.cons_ne_nil _ _

theorem Reached.liveShown (hw : Function.Injective w.newV4) (h : Reached w s) : LiveShown s :=
  h.invariant liveShown_fresh fun _ call ht => liveShown_invoke hw ht call

end LiveShown

end SessionManager

end Forgetty
