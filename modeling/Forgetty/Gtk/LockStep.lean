import Forgetty.Daemon.RestoredIds
import Forgetty.Gtk.Labels
import Forgetty.Gtk.Rebuild
import Forgetty.Session.WorkspaceCalls

/-! The list of workspaces a window shows and the list of its daemon. Every call
names a workspace by its index, so the two lists have to agree, and with them the two
active indices. Each action changes both lists on its own side. Two of them change
them differently: a new workspace becomes the active one of the window only, and the
action that deletes the active workspace leaves it on the daemon. -/

namespace Forgetty

open Lib SessionManager

namespace Attached

/-- The same workspaces in the same order, and the same one is active. -/
structure InLockStep (a : Attached) : Prop where
  ids : a.viewIds = a.layoutIds
  active : a.gtk.activeIndex = a.sm.layout.activeWorkspace

/-- The steps considered: what the user does with workspaces, and events handled. -/
def IsWorkspaceAction : Action → Prop
  | .newWorkspace _ | .duplicateWorkspace _ | .moveUp _ | .moveDown _ | .switchTo _ => True
  | .deleteAt _ | .deleteCurrent | .drain => True
  | _ => False

/-- No new workspace is made and no active workspace deleted, and an exchange that is
handled is taken for an echo of the window's own. -/
def ChangesBoth (a : Attached) : Action → Prop
  | .newWorkspace _ => False
  | .deleteCurrent => a.gtk.workspaces.length ≤ 1
  | .drain => ∀ i j u v es, a.inFlight = .workspacesReordered i j u v :: es → i ≠ j →
      i < a.gtk.workspaces.length → j < a.gtk.workspaces.length →
        (consumeReorderSelfEcho a.gtk.pendingReorders i j).2 = true
  | _ => True

/-- The deletions in flight are of workspaces that are gone for good. -/
def DeletionsRetired (w : World) (a : Attached) : Prop :=
  ∀ i id, .workspaceDeleted i id ∈ a.inFlight → Retired w id a.sm

structure Mirroring (w : World) (a : Attached) : Prop where
  next : a.next ≤ a.sm.eventTx.sent.length
  sound : a.sm.layout.Sound
  identified : Identified w a.sm
  deletions : DeletionsRetired w a

section Handle

variable {term : Terminals} {mgr : WorkspaceManagerInner}

/-- Exchanges and deletions aside, no event changes the list of workspaces. -/
theorem handleLayoutEvent_list (hids : (mgr.workspaces.map (·.id)).Nodup) (e : SessionEvent)
    (hr : ∀ i j u v, e ≠ .workspacesReordered i j u v) (hd : ∀ i id, e ≠ .workspaceDeleted i id) :
    (mgr.handleLayoutEvent term e).workspaces.map (·.id) = mgr.workspaces.map (·.id) ∧
      (mgr.handleLayoutEvent term e).activeIndex = mgr.activeIndex := by
  rw [← WorkspaceManagerInner.labels_ids, ← WorkspaceManagerInner.labels_ids]
  by_cases he : e.Relabels
  · cases e with
    | workspaceRenamed idx id name =>
      obtain ⟨hlabels, hactive⟩ := mgr.onWorkspaceRenamed_labels idx name
      refine ⟨?_, hactive⟩
      rw [WorkspaceManagerInner.handleLayoutEvent, hlabels]
      apply map_modify_of_eq
      exact fun _ => rfl
    | workspaceColorChanged idx id color =>
      obtain ⟨hlabels, hactive⟩ := mgr.onWorkspaceColorChanged_labels hids id color
      refine ⟨?_, hactive⟩
      rw [WorkspaceManagerInner.handleLayoutEvent, hlabels, List.map_map]
      refine List.map_congr_left fun l _ => ?_
      rw [Function.comp_apply]
      split_ifs <;> rfl
    | workspacesReordered i j u v => exact absurd rfl (hr i j u v)
    | workspaceDeleted i id => exact absurd rfl (hd i id)
    | _ => exact absurd he not_false
  · obtain ⟨hlabels, hactive⟩ := @WorkspaceManagerInner.handleLayoutEvent_labels term mgr e he
    exact ⟨congrArg (List.map (·.id)) hlabels, hactive⟩

/-- The deletion of a workspace that is not shown. -/
theorem onWorkspaceDeleted_of_not_mem {id : Uuid} (h : id ∉ mgr.workspaces.map (·.id)) :
    mgr.onWorkspaceDeleted id = mgr := by
  have hnone : mgr.workspaces.findIdx? (·.id = id) = none := by
    rw [List.findIdx?_eq_none_iff]
    intro ws hws
    rw [decide_eq_false_iff_not]
    rintro rfl
    exact h (List.mem_map_of_mem hws)
  rw [WorkspaceManagerInner.onWorkspaceDeleted, hnone]

/-- An exchange is carried out or changes no list. -/
theorem onWorkspacesReordered_list (i j : ℕ) (mgr : WorkspaceManagerInner) :
    ((i ≠ j → i < mgr.workspaces.length → j < mgr.workspaces.length →
        (consumeReorderSelfEcho mgr.pendingReorders i j).2 = true) ∧
      (mgr.onWorkspacesReordered i j).workspaces = mgr.workspaces ∧
      (mgr.onWorkspacesReordered i j).activeIndex = mgr.activeIndex) ∨
    (i ≠ j ∧ i < mgr.workspaces.length ∧ j < mgr.workspaces.length ∧
      (consumeReorderSelfEcho mgr.pendingReorders i j).2 ≠ true ∧
      (mgr.onWorkspacesReordered i j).workspaces = swapIdx mgr.workspaces i j) := by
  unfold WorkspaceManagerInner.onWorkspacesReordered
  dsimp only
  split_ifs with hbounds hecho
  · exact Or.inl ⟨fun _ hi hj => absurd hbounds (by omega), rfl, rfl⟩
  · exact Or.inl ⟨fun _ _ _ => hecho, rfl, rfl⟩
  · by_cases hij : i = j
    · subst hij
      exact Or.inl ⟨fun hne => absurd rfl hne, swapIdx_self _ i, follow_self i _⟩
    · exact Or.inr ⟨hij, by omega, by omega, hecho, rfl⟩

end Handle

section Steps

variable {w : World} {term : Terminals} {a b : Attached}

theorem Mirroring.lt_length (h : Mirroring w a) :
    a.sm.layout.activeWorkspace < a.sm.layout.workspaces.length := h.sound.active

theorem InLockStep.length (h : InLockStep a) :
    a.gtk.workspaces.length = a.sm.layout.workspaces.length := by
  have hlen := congrArg List.length h.ids
  rwa [viewIds, layoutIds, List.length_map, List.length_map] at hlen

/-- A call, with the events it sends. -/
theorem Mirroring.grow {es : List SessionEvent} (hw : Function.Injective w.newV4)
    (h : Mirroring w a) (hinh : Inherits w a.sm b.sm) (hsound : b.sm.layout.Sound)
    (hnext : b.next = a.next) (hsent : b.sm.eventTx.sent = a.sm.eventTx.sent ++ es)
    (hes : ∀ i id, .workspaceDeleted i id ∈ es → Retired w id b.sm) : Mirroring w b where
  next := next_le_append h.next hnext hsent
  sound := hsound
  identified := hinh.identified hw h.identified
  deletions i id hmem := by
    rw [inFlight_append h.next hnext hsent] at hmem
    rcases List.mem_append.mp hmem with hmem | hmem
    · exact (h.deletions i id hmem).inherits hinh
    · exact hes i id hmem

theorem Mirroring.switchWorkspace (hw : Function.Injective w.newV4) (h : Mirroring w a)
    (hl : InLockStep a) (target : ℕ) :
    Mirroring w (a.switchWorkspace target) ∧ InLockStep (a.switchWorkspace target) := by
  unfold Attached.switchWorkspace
  split_ifs with hc
  · exact ⟨h, hl⟩
  · have htarget : target < a.sm.layout.workspaces.length := by
      rw [← hl.length]
      omega
    obtain ⟨active, es, hes, hactive, hchanged⟩ := changed_setActiveWorkspace target a.sm
    constructor
    · refine h.grow hw (inherits_setActiveWorkspace target a.sm) ?_ rfl hchanged.sent ?_
      · exact sound_setActiveWorkspace h.sound target
      · intro i id hmem
        exact nomatch hes _ hmem
    · refine ⟨?_, (hchanged.active.trans (hactive htarget)).symm⟩
      rw [layoutIds, hchanged.workspaces]
      exact hl.ids

theorem Mirroring.duplicateWorkspace (hw : Function.Injective w.newV4) (h : Mirroring w a)
    (hl : InLockStep a) (idx : ℕ) :
    Mirroring w (a.duplicateWorkspace w term idx) ∧
      InLockStep (a.duplicateWorkspace w term idx) := by
  unfold Attached.duplicateWorkspace
  split
  · exact ⟨h, hl⟩
  · rename_i source hsource
    obtain ⟨hidx, -⟩ := List.getElem?_eq_some_iff.mp hsource
    have hidx' := hidx
    rw [hl.length] at hidx'
    have hinh := @inherits_duplicateWorkspace w idx none .default a.sm
    have hsound := @sound_duplicateWorkspace w a.sm h.sound idx none .default
    have hdup := @changed_duplicateWorkspace w a.sm idx .default _ (List.getElem?_eq_getElem hidx')
    dsimp only
    generalize a.sm.duplicateWorkspace w idx none .default = rpc at hinh hsound hdup ⊢
    obtain ⟨sm, r⟩ := rpc
    rcases hdup with ⟨e, rfl, hu⟩ | ⟨id, insertAt, dupTabs, rfl, hd⟩
    · constructor
      · exact h.grow hw hinh hsound rfl hu.sent nofun
      · refine ⟨?_, hl.active.trans hu.active.symm⟩
        rw [layoutIds, hu.workspaces]
        exact hl.ids
    · have hclamped : min insertAt a.gtk.workspaces.length = idx + 1 := by
        rw [hd.insertAt]
        omega
      dsimp only
      rw [hclamped]
      have hlen : idx + 1 < sm.layout.workspaces.length := by
        rw [hd.changed.workspaces, List.length_insertIdx_of_le_length hidx']
        omega
      obtain ⟨active, es, hes, hactive, hchanged⟩ := changed_setActiveWorkspace (idx + 1) sm
      have hall := hd.changed.trans hchanged
      constructor
      · refine h.grow hw (hinh.trans (inherits_setActiveWorkspace _ sm)) ?_ rfl hall.sent ?_
        · exact sound_setActiveWorkspace hsound _
        · intro i id' hmem
          rcases List.mem_append.mp hmem with hmem | hmem
          · simp at hmem
          · exact nomatch hes _ hmem
      · refine ⟨?_, (hchanged.active.trans (hactive hlen)).symm⟩
        have hid := (@buildPages_rest term (dupTabs.map fun dt => (dt.tabId, [dt.paneId]))
          a.gtk.nextPage (.new id s!"{source.name} (copy)")).1
        rw [layoutIds, hchanged.workspaces, hd.changed.workspaces, viewIds]
        dsimp only
        rw [List.map_insertIdx, List.map_insertIdx, hid]
        exact congrArg (List.insertIdx · (idx + 1) id) hl.ids

theorem Mirroring.moveWorkspace (hw : Function.Injective w.newV4) (h : Mirroring w a)
    (hl : InLockStep a) {i j : ℕ} (hi : i < a.gtk.workspaces.length)
    (hj : j < a.gtk.workspaces.length) (hne : i ≠ j) :
    Mirroring w (a.moveWorkspace i j) ∧ InLockStep (a.moveWorkspace i j) := by
  rw [hl.length] at hi hj
  have heq := moveWorkspace_of_ne (List.getElem?_eq_getElem hi) (List.getElem?_eq_getElem hj) hne
  have hinh := @inherits_moveWorkspace w i j a.sm
  have hsound := sound_moveWorkspace h.sound i j
  rw [heq] at hinh hsound
  rw [Attached.moveWorkspace, heq, call_of_ok rfl]
  constructor
  · refine h.grow hw hinh hsound rfl rfl ?_
    intro k id hmem
    exact nomatch List.mem_singleton.mp hmem
  · constructor
    · rw [viewIds, layoutIds]
      show (swapIdx a.gtk.workspaces i j).map _ = (swapIdx a.sm.layout.workspaces i j).map _
      rw [map_swapIdx, map_swapIdx]
      exact congrArg (swapIdx · i j) hl.ids
    · show follow i j a.gtk.activeIndex = follow i j a.sm.layout.activeWorkspace
      rw [hl.active]

theorem Mirroring.deleteWorkspace (hw : Function.Injective w.newV4) (h : Mirroring w a)
    (hl : InLockStep a) (target : ℕ) :
    Mirroring w (a.doDeleteWorkspaceAtIndex target) ∧
      InLockStep (a.doDeleteWorkspaceAtIndex target) := by
  unfold doDeleteWorkspaceAtIndex
  split_ifs with hc
  · exact ⟨h, hl⟩
  · have hlen := hl.length
    have htarget : target < a.sm.layout.workspaces.length := by omega
    have hget := List.getElem?_eq_getElem htarget
    obtain ⟨hok, hchanged⟩ := changed_deleteWorkspace hget (by omega)
    rw [call_of_ok hok]
    have hinh := @inherits_deleteWorkspace w target a.sm
    constructor
    · refine h.grow hw hinh (sound_deleteWorkspace h.sound target) rfl hchanged.sent ?_
      intro i id hmem
      rcases List.mem_append.mp hmem with hmem | hmem
      · simp at hmem
      · obtain ⟨rfl, rfl⟩ := SessionEvent.workspaceDeleted.inj (List.mem_singleton.mp hmem)
        exact h.identified.retired hget hchanged.workspaces hinh.minted
    · constructor
      · rw [layoutIds, hchanged.workspaces, viewIds]
        show (a.gtk.workspaces.eraseIdx target).map _ = _
        rw [← List.eraseIdx_map, ← List.eraseIdx_map]
        exact congrArg (List.eraseIdx · target) hl.ids
      · rw [hchanged.active]
        have hactive := h.lt_length
        have hlength : (a.gtk.workspaces.eraseIdx target).length =
            a.sm.layout.workspaces.length - 1 := by
          rw [List.length_eraseIdx_of_lt (by omega), hlen]
        show (if target < a.gtk.activeIndex then a.gtk.activeIndex - 1
          else if a.gtk.activeIndex = target then
            min target ((a.gtk.workspaces.eraseIdx target).length - 1)
          else a.gtk.activeIndex) = _
        rw [hlength, hl.active]
        split_ifs <;> omega

theorem Mirroring.drain (h : Mirroring w a) : Mirroring w (a.drain term) where
  next := next_drain_le h.next
  sound := by
    rw [sm_drain]
    exact h.sound
  identified := by
    rw [sm_drain]
    exact h.identified
  deletions i id hmem := by
    rw [inFlight_drain] at hmem
    rw [sm_drain]
    exact h.deletions i id (List.mem_of_mem_tail hmem)

/-- A handler that leaves the list of the window alone keeps the lists together. -/
theorem inLockStep_drain_of_same (hl : InLockStep a) {e : SessionEvent} {es : List SessionEvent}
    (hin : a.inFlight = e :: es)
    (hids : (a.gtk.handleLayoutEvent term e).workspaces.map (·.id) = a.viewIds)
    (hactive : (a.gtk.handleLayoutEvent term e).activeIndex = a.gtk.activeIndex) :
    InLockStep (a.drain term) := by
  rw [@drain_of_cons term a e es hin]
  exact ⟨hids.trans hl.ids, hactive.trans hl.active⟩

/-- While the lists are together, a workspace whose deletion is told is not in the window. -/
theorem onWorkspaceDeleted_of_mirroring (h : Mirroring w a) (hl : InLockStep a) {i : ℕ} {id : Uuid}
    {es : List SessionEvent} (hin : a.inFlight = .workspaceDeleted i id :: es) :
    a.gtk.handleLayoutEvent term (.workspaceDeleted i id) = a.gtk := by
  have hretired := h.deletions i id (by rw [hin]; exact List.mem_cons_self)
  have hgone : id ∉ a.gtk.workspaces.map (·.id) := by
    intro hshown
    have hstored : id ∈ a.layoutIds := hl.ids ▸ hshown
    obtain ⟨ws, hws, rfl⟩ := List.mem_map.mp hstored
    exact hretired.absent (SessionLayout.id_mem_ids hws)
  exact onWorkspaceDeleted_of_not_mem hgone

/-- An exchange that is not the echo of one made here is made a second time. -/
theorem inLockStep_drain_reordered (hl : InLockStep a) (hnodup : a.viewIds.Nodup) {i j : ℕ}
    {u v : Uuid} {es : List SessionEvent} (hin : a.inFlight = .workspacesReordered i j u v :: es) :
    InLockStep (a.drain term) ↔ ChangesBoth a .drain := by
  rcases onWorkspacesReordered_list i j a.gtk with ⟨hecho, hws, hactive⟩ | ⟨hne, hi, hj, hecho, hws⟩
  · refine ⟨fun _ i' j' u' v' es' heq => ?_, fun _ => inLockStep_drain_of_same hl hin ?_ hactive⟩
    · obtain ⟨rfl, rfl, -, -⟩ :=
        SessionEvent.workspacesReordered.inj (List.cons.inj (hin.symm.trans heq)).1
      exact hecho
    · exact congrArg (List.map (·.id)) hws
  · refine ⟨fun hl' => ?_, fun hg => absurd (hg i j u v es hin hne hi hj) hecho⟩
    have hviews : (a.drain term).viewIds = swapIdx a.viewIds i j := by
      rw [@drain_of_cons term a _ es hin, viewIds, viewIds, ← map_swapIdx]
      exact congrArg (List.map (·.id)) hws
    have hids := hl'.ids
    rw [hviews, layoutIds, sm_drain] at hids
    refine absurd (hids.trans hl.ids.symm) (swapIdx_ne hnodup hne ?_ ?_)
    · rwa [viewIds, List.length_map]
    · rwa [viewIds, List.length_map]

/-- Handling an event keeps the lists together exactly if no exchange is repeated. -/
theorem inLockStep_drain_iff (h : Mirroring w a) (hl : InLockStep a) :
    InLockStep (a.drain term) ↔ ChangesBoth a .drain := by
  cases hin : a.inFlight with
  | nil =>
    rw [drain_of_nil hin]
    refine ⟨fun _ i j u v es heq => ?_, fun _ => hl⟩
    rw [hin] at heq
    cases heq
  | cons e es =>
    have hnodup : a.viewIds.Nodup := by
      rw [hl.ids]
      exact h.identified.workspaceIds_nodup
    by_cases hr : ∃ i j u v, e = .workspacesReordered i j u v
    · obtain ⟨i, j, u, v, rfl⟩ := hr
      exact inLockStep_drain_reordered hl hnodup hin
    have hne : ∀ i j u v, e ≠ .workspacesReordered i j u v :=
      fun i j u v heq => hr ⟨i, j, u, v, heq⟩
    have hguard : ChangesBoth a .drain := by
      intro i j u v es' heq
      exact absurd (List.cons.inj (hin.symm.trans heq)).1 (hne i j u v)
    refine iff_of_true ?_ hguard
    by_cases hd : ∃ i id, e = .workspaceDeleted i id
    · obtain ⟨i, id, rfl⟩ := hd
      have hsame := @onWorkspaceDeleted_of_mirroring _ term _ h hl i id es hin
      refine inLockStep_drain_of_same hl hin ?_ ?_ <;> rw [hsame]
      rfl
    · obtain ⟨hids, hactive⟩ := @handleLayoutEvent_list term a.gtk hnodup e hne
        fun i id heq => hd ⟨i, id, heq⟩
      exact inLockStep_drain_of_same hl hin hids hactive

/-- A new workspace is not the active one of the daemon. -/
theorem not_inLockStep_newWorkspace (h : Mirroring w a) (hl : InLockStep a) (name : String) :
    ¬InLockStep (a.createAndSwitchToNewWorkspace w term name) := by
  have hlen := hl.length
  have hactive := h.lt_length
  have hcreate := changed_createWorkspaceRpc w name a.sm
  unfold createAndSwitchToNewWorkspace
  generalize createWorkspaceRpc w name a.sm = rpc at hcreate ⊢
  obtain ⟨sm, r⟩ := rpc
  rcases hcreate with ⟨e, rfl, hc⟩ | ⟨p, tabId, rfl, hc⟩
  · rw [call_of_error rfl]
    intro hl'
    have hlen' := hl'.length
    dsimp only at hlen'
    rw [hc.workspaces, List.length_append, List.length_singleton] at hlen'
    omega
  · rw [call_of_ok rfl]
    dsimp only
    intro hl'
    by_cases hshow : term.subscribeOutput p = true
    · have hactive' := hl'.active
      rw [if_pos hshow] at hactive'
      dsimp only at hactive'
      rw [hc.active] at hactive'
      omega
    · have hlen' := hl'.length
      rw [if_neg hshow] at hlen'
      dsimp only at hlen'
      rw [hc.workspaces, List.length_append, List.length_singleton] at hlen'
      omega

theorem tabsOnly_foldl_closeTabByPaneId (panes : List PaneId) (sm : SessionManager) :
    TabsOnly sm (panes.foldl (fun sm p => DaemonClient.closeTabByPaneId w p sm) sm) := by
  induction panes generalizing sm with
  | nil => exact .refl sm
  | cons p panes ih =>
    refine .trans ?_ (ih _)
    unfold DaemonClient.closeTabByPaneId
    dsimp only
    split_ifs
    · exact tabsOnly_closeTabByPaneRpc _ p sm
    · exact .refl sm

/-- The active workspace is deleted on the side of the window only. -/
theorem inLockStep_deleteCurrent_iff (h : Mirroring w a) (hl : InLockStep a) :
    InLockStep (a.deleteCurrentWorkspace w) ↔ a.gtk.workspaces.length ≤ 1 := by
  unfold deleteCurrentWorkspace
  split_ifs with hlen
  · exact ⟨fun _ => hlen, fun _ => hl⟩
  · refine ⟨fun hl' => ?_, fun hle => absurd hle hlen⟩
    have hactive := h.lt_length
    rw [← hl.active, ← hl.length] at hactive
    have hlen' := hl'.length
    dsimp only at hlen'
    rw [(tabsOnly_foldl_closeTabByPaneId _ a.sm).length, ← hl.length, List.length_eraseIdx_of_lt hactive] at hlen'
    omega

/-- A step of the kinds considered keeps the lists together exactly if it changes
both. -/
theorem Mirroring.step (hw : Function.Injective w.newV4) (h : Mirroring w a) (hl : InLockStep a)
    {i : Action} (hi : IsWorkspaceAction i) :
    (ChangesBoth a i → Mirroring w (a.step w term i)) ∧
      (InLockStep (a.step w term i) ↔ ChangesBoth a i) := by
  have both {b : Attached} {guard : Prop} (hg : guard) (hb : Mirroring w b ∧ InLockStep b) :
      (guard → Mirroring w b) ∧ (InLockStep b ↔ guard) :=
    ⟨fun _ => hb.1, iff_of_true hb.2 hg⟩
  cases i with
  | newWorkspace name =>
    exact ⟨False.elim, iff_of_false (not_inLockStep_newWorkspace h hl name) not_false⟩
  | duplicateWorkspace idx => exact both trivial (h.duplicateWorkspace hw hl idx)
  | moveUp idx =>
    refine both trivial ?_
    show Mirroring w (a.moveWorkspaceUp idx) ∧ InLockStep (a.moveWorkspaceUp idx)
    unfold moveWorkspaceUp
    split_ifs
    · exact ⟨h, hl⟩
    · exact h.moveWorkspace hw hl (by omega) (by omega) (by omega)
  | moveDown idx =>
    refine both trivial ?_
    show Mirroring w (a.moveWorkspaceDown idx) ∧ InLockStep (a.moveWorkspaceDown idx)
    unfold moveWorkspaceDown
    split_ifs
    · exact ⟨h, hl⟩
    · exact h.moveWorkspace hw hl (by omega) (by omega) (by omega)
  | switchTo target => exact both trivial (h.switchWorkspace hw hl target)
  | deleteAt target => exact both trivial (h.deleteWorkspace hw hl target)
  | deleteCurrent =>
    refine ⟨fun hg => ?_, inLockStep_deleteCurrent_iff h hl⟩
    have hlen : a.gtk.workspaces.length ≤ 1 := hg
    rw [Attached.step, deleteCurrentWorkspace, if_pos hlen]
    exact h
  | drain => exact ⟨fun _ => h.drain, inLockStep_drain_iff h hl⟩
  | _ => exact hi.elim

end Steps

/-- The two lists agree in every state of a run exactly if every step of it changes
both alike. -/
theorem inLockStep_along_iff (w : World) (hw : Function.Injective w.newV4) (term : Terminals)
    (a : Attached) (is : List Action) (hsm : SessionState w a.sm)
    (hnext : a.next ≤ a.sm.eventTx.sent.length) (hdeletions : DeletionsRetired w a)
    (hl : InLockStep a) (hr : ∀ i ∈ is, IsWorkspaceAction i) :
    Along (step w term) InLockStep a is ↔ Meets (step w term) ChangesBoth a is := by
  have h0 : Mirroring w a :=
    ⟨hnext, (hsm.tracked_sound hw).2, hsm.identified hw, hdeletions⟩
  exact along_iff_meets_of (J := fun _ i => IsWorkspaceAction i)
    (fun _ _ hb hp hi hg => (hb.step hw hp hi).1 hg) (fun _ _ hb hp hi => (hb.step hw hp hi).2)
    h0 hl (meets_of_mem hr)

theorem inLockStep_attach_twoTabs : InLockStep (attach .all ⟨100⟩ twoTabs) :=
  ⟨by decide, by decide⟩

/-- The user makes a new workspace. -/
theorem not_inLockStep_thirdWorkspace :
    SessionState .counting twoTabs ∧ InLockStep (attach .all ⟨100⟩ twoTabs) ∧
      ¬Along (step .counting .all) InLockStep (attach .all ⟨100⟩ twoTabs)
        [.newWorkspace "third"] := by
  refine ⟨sessionState_twoTabs, inLockStep_attach_twoTabs, fun h => ?_⟩
  exact absurd h.last.active (by decide)

/-- The other workspace is made active, moved, copied and deleted, and the events of
that are handled. -/
theorem inLockStep_handled :
    Along (step .counting .all) InLockStep (attach .all ⟨100⟩ twoTabs)
      [.switchTo 1, .moveDown 0, .drain, .drain, .duplicateWorkspace 1, .deleteAt 0] := by
  refine (inLockStep_along_iff .counting World.counting_injective .all (attach .all ⟨100⟩ twoTabs)
    _ sessionState_twoTabs le_rfl nofun inLockStep_attach_twoTabs
    (by simp [IsWorkspaceAction])).mpr ⟨trivial, trivial, fun i j u v es heq => ?_,
      fun i j u v es heq _ _ _ => ?_, trivial, trivial, trivial⟩
  · cases Option.some.inj (congrArg List.head? heq)
  · obtain ⟨rfl, rfl, -, -⟩ :=
      SessionEvent.workspacesReordered.inj (Option.some.inj (congrArg List.head? heq))
    decide

end Attached

end Forgetty
