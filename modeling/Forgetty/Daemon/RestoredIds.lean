import Forgetty.Daemon.Restored
import Forgetty.Session.Ids

/-! The ids of workspaces and tabs in a session. A restore takes all of them anew,
the workspaces before the tabs, so they are distinct however the daemon came up, and
they stay so. -/

namespace Forgetty

open Lib SessionManager

variable {w : World} {isDir : PathBuf → Bool} {s : SessionManager}

/-- The workspaces take consecutive ids. -/
theorem ids_restoredFrom (i : ℕ) (saved : List Workspace) (plans : List WorkspacePlan)
    (h : plans.length = saved.length) :
    ((restoredFrom w i saved plans).flatMap SessionWorkspace.ids).Perm
      ((List.range' i saved.length).map w.newV4 ++
        plans.flatMap fun plan => plan.live.map (·.id)) := by
  induction saved generalizing i plans with
  | nil =>
    rw [List.length_nil, List.length_eq_zero_iff] at h
    subst h
    exact List.Perm.refl _
  | cons ws saved ih =>
    cases plans with
    | nil => exact nomatch h
    | cons plan plans =>
      rw [restoredFrom, List.flatMap_cons, List.flatMap_cons, List.length_cons, List.range'_succ,
        List.map_cons, SessionWorkspace.ids, List.cons_append, List.cons_append]
      refine List.Perm.cons _ (((ih _ _ (Nat.succ.inj h)).append_left _).trans ?_)
      rw [← List.append_assoc, ← List.append_assoc]
      exact List.perm_append_comm.append_right _

theorem ids_focusWorkspaces (saved : List Workspace) (lives : List SessionWorkspace) :
    (focusWorkspaces saved lives).flatMap SessionWorkspace.ids =
      lives.flatMap SessionWorkspace.ids := by
  induction saved generalizing lives with
  | nil => rfl
  | cons ws saved ih =>
    cases lives with
    | nil => rfl
    | cons live lives =>
      rw [focusWorkspaces, List.flatMap_cons, List.flatMap_cons, ih]
      congr 1
      rw [SessionWorkspace.ids, SessionWorkspace.ids]
      congr 1
      exact focusTabs_map SessionTab.id (fun _ _ => rfl) ws.tabs live.tabs

theorem issued_range (hw : Function.Injective w.newV4) (n : ℕ) :
    Issued w [] 0 n ((List.range' 0 n).map w.newV4) where
  le := Nat.zero_le n
  nodup := List.Nodup.map hw List.nodup_range'
  source u hu := by
    obtain ⟨k, hk, rfl⟩ := List.mem_map.mp hu
    rw [List.mem_range'_1] at hk
    exact Or.inr ⟨k, hk.1, by omega, rfl⟩

/-- The ids of a restored layout were all handed out by the restore. -/
theorem issued_plannedLayout (hw : Function.Injective w.newV4) (state : WorkspaceState) :
    Issued w [] 0
      (planWorkspaces w isDir .default state.workspaces ⟨state.workspaces.length, 0⟩).1.minted
      (plannedLayout w isDir state).ids := by
  have hperm := @ids_restoredFrom w 0 state.workspaces (restorePlan w isDir state)
    (length_planWorkspaces _ _)
  have htabs := @tabIds_planWorkspaces w isDir .default hw state.workspaces
    ⟨state.workspaces.length, 0⟩
  rw [SessionLayout.ids, plannedLayout, ids_focusWorkspaces]
  exact ((issued_range hw state.workspaces.length).append hw (.nil w) htabs).perm hperm.symm

/-- Ids that were all handed out so far will not be handed out again. -/
theorem Issued.identified (hw : Function.Injective w.newV4) (h : Issued w [] 0 s.minted s.layout.ids) :
    Identified w s where
  nodup := h.nodup
  fresh n hn hmem := by
    rcases h.source _ hmem with hnil | ⟨k, -, hk, heq⟩
    · exact nomatch hnil
    · obtain rfl := hw heq
      omega

theorem Started.identified (hw : Function.Injective w.newV4) (h : Started w s) :
    Identified w s := by
  refine h.elim (fun logFiles ringKb maxMb => ?_)
    fun isDir state logFiles ringKb maxMb hne hids => ?_
  · exact Issued.identified hw (issued_range hw 1)
  · have hr := restored_coldStart hw hne (fresh_new w logFiles ringKb maxMb)
      (nodup_plannedPanes hw isDir hids)
    apply Issued.identified hw
    rw [hr.layout, hr.minted]
    exact issued_plannedLayout hw state

/-- In every state of a session the ids are distinct and will not be handed out again. -/
theorem SessionState.identified (hw : Function.Injective w.newV4) (h : SessionState w s) :
    Identified w s := by
  obtain ⟨start, ops, hstart, rfl⟩ := h
  refine (along_of_step (hstart.identified hw) fun t op ht => ?_).last
  exact (inherits_apply w op t).identified hw ht

end Forgetty
