import Forgetty.Daemon.RoundTrip
import Forgetty.Daemon.PartialRestore

/-! Cold starts from a file in which pane ids may be repeated. A pane that comes up twice is
twice in the creation order and in the layout, so the session is coherent exactly if no pane
is planned twice. -/

namespace Forgetty

open Lib SessionManager

section Repeated

variable {w : World} {isDir : PathBuf → Bool} {size : PtySize} {ps : List PaneId}
  {s : SessionManager}

/-- A session is coherent exactly if no pane came twice. -/
theorem HasPanes.coherent_iff (h : HasPanes ps s) : Coherent s ↔ ps.Nodup := by
  refine ⟨fun hc => h.order.nodup_iff.mp hc.order_nodup, fun hd => ⟨fun p hp => ?_, fun p hp => ?_,
    h.order.nodup_iff.mpr hd, fun p => ?_⟩⟩
  · exact (h.panes p).mpr (h.leaves.mem_iff.mp hp)
  · rw [h.leaves.count_eq]
    exact List.count_eq_one_of_mem hd ((h.panes p).mp hp)
  · rw [h.order.mem_iff, h.panes]

/-! ### When all spawns succeed -/

theorem sublist_planPaneId (saved : Option Uuid) (c : Counters) :
    (saved.toList.map PaneId.mk).Sublist [(planPaneId w saved c).2] := by
  cases saved with
  | none => exact List.nil_sublist _
  | some pid => exact .refl _

/-- The saved ids of a tree are among the panes planned for it. -/
theorem sublist_planTree (hw : w.SpawnsSucceed) (t : PaneTreeState) (anchorId : PaneId)
    (c : Counters) :
    ((t.leaves.tail.filterMap (·.paneId)).map PaneId.mk).Sublist
      (planTree w isDir size t anchorId c).2.leaves.tail := by
  induction t generalizing anchorId c with
  | leaf l => exact List.nil_sublist _
  | node label first second ih₁ ih₂ =>
    have hsecond : second.leaves.filterMap (·.paneId) = savedPaneIds second := rfl
    rw [planTree_node (shellSpawns_of_succeed hw _ _)]
    dsimp only
    rw [tail_leaves_node, tail_leaves_node, List.filterMap_append, hsecond, savedPaneIds_eq,
      List.map_append, List.map_append, leaves_planTree second]
    exact (ih₁ _ _).append ((sublist_planPaneId _ c).append (ih₂ _ _))

theorem sublist_planTab (hw : w.SpawnsSucceed) (tab : TabState) (c : Counters) :
    ((savedPaneIds tab.paneTree).map PaneId.mk).Sublist
      (plannedLeaves [(planTab w isDir size tab c).2]) := by
  rw [planTab, planRoot]
  dsimp only
  rw [if_pos (shellSpawns_of_succeed hw _ _)]
  dsimp only
  rw [plannedLeaves, List.reduceOption_cons_of_some, List.reduceOption_nil, List.flatMap_singleton,
    savedPaneIds_eq, List.map_append, leaves_planTree]
  exact (sublist_planPaneId _ c).append (sublist_planTree hw _ _ _)

theorem sublist_planTabs (hw : w.SpawnsSucceed) (tabs : List TabState) (c : Counters) :
    ((tabs.flatMap fun tab => savedPaneIds tab.paneTree).map PaneId.mk).Sublist
      (plannedLeaves (planTabs w isDir size tabs c).2) := by
  induction tabs generalizing c with
  | nil => exact List.nil_sublist _
  | cons tab tabs ih =>
    rw [planTabs]
    dsimp only
    rw [plannedLeaves_cons, List.flatMap_cons, List.map_append]
    exact (sublist_planTab hw tab c).append (ih _)

theorem sublist_planWorkspace (hw : w.SpawnsSucceed) (ws : Workspace) (c : Counters) :
    (ws.savedPaneIds.map PaneId.mk).Sublist (planWorkspace w isDir size ws c).2.leaves := by
  rw [WorkspacePlan.leaves, WorkspacePlan.live, planWorkspace_tabs, List.flatMap_append]
  exact (sublist_planTabs hw ws.tabs c).trans (List.sublist_append_left _ _)

theorem sublist_planWorkspaces (hw : w.SpawnsSucceed) (saved : List Workspace) (c : Counters) :
    ((saved.flatMap Workspace.savedPaneIds).map PaneId.mk).Sublist
      ((planWorkspaces w isDir size saved c).2.flatMap WorkspacePlan.leaves) := by
  induction saved generalizing c with
  | nil => exact List.nil_sublist _
  | cons ws rest ih =>
    rw [planWorkspaces]
    dsimp only
    rw [List.flatMap_cons, List.flatMap_cons, List.map_append]
    exact (sublist_planWorkspace hw ws c).append (ih _)

theorem nodup_savedPaneIds (hw : w.SpawnsSucceed) {state : WorkspaceState}
    (h : (plannedPanes w isDir state).Nodup) : state.savedPaneIds.Nodup :=
  (h.sublist (sublist_planWorkspaces hw state.workspaces _)).of_map _

end Repeated

/-- A cold start ends in a coherent session if and only if the panes that come up have
distinct ids. If no saved id is handed out again, distinct ids in the file are enough
for this, and when all spawns succeed they are needed. -/
theorem coherent_coldStart_iff (w : World) (isDir : PathBuf → Bool) (state : WorkspaceState)
    (logFiles : PMap Uuid Bytes) (ringKb maxMb : UInt32) :
    let restored := coldStart w isDir state
      ((SessionManager.new w logFiles).setByteLogConfig ringKb maxMb)
    (Coherent restored ↔ (plannedPanes w isDir state).Nodup) ∧
      (Function.Injective w.newV4 → (∀ n, w.newV4 n ∉ state.savedPaneIds) →
        (state.savedPaneIds.Nodup → Coherent restored) ∧
          (w.SpawnsSucceed → Coherent restored → state.savedPaneIds.Nodup)) := by
  intro restored
  have h : HasPanes (plannedPanes w isDir state) restored :=
    hasPanes_coldStart (fresh_new w logFiles ringKb maxMb)
  refine ⟨h.coherent_iff, fun hw hfresh => ⟨fun hids => ?_, fun hspawn hc => ?_⟩⟩
  · exact h.coherent_iff.mpr (nodup_plannedPanes hw isDir ⟨hids, hfresh⟩)
  · exact nodup_savedPaneIds hspawn (h.coherent_iff.mp hc)

theorem coherent_coldStart_twoTabs : Coherent (coldStart .next (fun _ => true)
    (oneWorkspace [1, 2] 0) ((SessionManager.new .next .empty).setByteLogConfig 1024 10)) := by
  refine ((coherent_coldStart_iff .next (fun _ => true) (oneWorkspace [1, 2] 0) .empty 1024 10).2
    World.next_injective fun n hn => ?_).1 (by decide)
  have hbits : 100 + n = 1 ∨ 100 + n = 2 := by
    simpa [oneWorkspace, WorkspaceState.savedPaneIds, Workspace.savedPaneIds, savedPaneIds,
      World.next] using hn
  omega

/-- Two tabs with the same pane are both restored. -/
theorem not_coherent_sameTwice : ¬ ∀ w isDir state logFiles ringKb maxMb,
    state.nesting ≤ recursionLimit → Coherent (coldStart w isDir state
      ((SessionManager.new w logFiles).setByteLogConfig ringKb maxMb)) := by
  intro h
  have hc := h .next (fun _ => true) (oneWorkspace [1, 1] 0) .empty 1024 10 (by decide)
  exact absurd hc.order_nodup (by decide)

end Forgetty
