import Forgetty.Daemon.RestoreFocus
import Forgetty.Daemon.RestorePanes

/-! The layout a cold start leaves: the planned one with its focus. The session it
starts is tracked and its layout is sound, so what holds along the runs of a session
holds along those of a restored one. -/

namespace Forgetty

open Lib

/-! ### Plans -/

/-- What is known of a plan for a saved workspace. -/
structure PlanOf (w : World) (isDir : PathBuf → Bool) (size : PtySize) (saved : Workspace)
    (plan : WorkspacePlan) : Prop where
  length : plan.tabs.length = saved.tabs.length
  ids : (plan.live.map (·.id)).Nodup
  plain : ∀ t ∈ plan.live, t.title = "" ∧ t.activePaneId = none
  made : ∀ (j : ℕ) (t : SessionTab), plan.tabs[j]? = some (some t) →
    ∃ tab c, saved.tabs[j]? = some tab ∧ (planTab w isDir size tab c).2 = some t
  no_seed : saved.tabs ≠ [] → plan.seed = none
  fallback : saved.tabs = [] → plan.seed = none → plan.fallback = false

section Plans

variable {w : World} {isDir : PathBuf → Bool} {size : PtySize} {saved : Workspace}
  {plan : WorkspacePlan} {id : Uuid}

/-- In a list with distinct ids the id tells the place. -/
theorem eq_of_getElem?_id {tabs : List SessionTab} (hd : (tabs.map (·.id)).Nodup) {i j : ℕ}
    {a b : SessionTab} (hi : tabs[i]? = some a) (hj : tabs[j]? = some b) (h : a.id = b.id) :
    i = j := by
  have hi' : (tabs.map (·.id))[i]? = some a.id := by rw [List.getElem?_map, hi]; rfl
  have hj' : (tabs.map (·.id))[j]? = some a.id := by rw [List.getElem?_map, hj, h]; rfl
  obtain ⟨hlt, -⟩ := List.getElem?_eq_some_iff.mp hi'
  exact (List.getElem?_inj hlt hd).mp (hi'.trans hj'.symm)

/-- A saved tab that came up is live at its rank, with the focus of the saved tab
that has this place in the file. -/
theorem PlanOf.getElem?_focused (h : PlanOf w isDir size saved plan) {j : ℕ} {t : SessionTab}
    (ht : plan.tabs[j]? = some (some t)) :
    plan.live[rank plan.tabs j]? = some t ∧ ∃ other, saved.tabs[rank plan.tabs j]? = some other ∧
      (plan.focused id saved).tabs[rank plan.tabs j]? = some (focusTab other t) := by
  obtain ⟨hj, -⟩ := List.getElem?_eq_some_iff.mp ht
  rw [h.length] at hj
  have hseed : plan.seed = none := h.no_seed fun hnil => by simp [hnil] at hj
  have hlive : plan.live[rank plan.tabs j]? = some t := by
    rw [WorkspacePlan.live, hseed, Option.toList_none, List.append_nil]
    exact getElem?_reduceOption_rank ht
  have hlt : rank plan.tabs j < saved.tabs.length := (rank_le plan.tabs j).trans_lt hj
  refine ⟨hlive, _, List.getElem?_eq_getElem hlt, ?_⟩
  rw [WorkspacePlan.focused, focusTabs_getElem?, hlive, List.getElem?_eq_getElem hlt]
  rfl

theorem PlanOf.live_eq (h : PlanOf w isDir size saved plan) (hne : saved.tabs ≠ []) :
    plan.live = plan.tabs.reduceOption := by
  rw [WorkspacePlan.live, h.no_seed hne, Option.toList_none, List.append_nil]

theorem PlanOf.ids_focused (h : PlanOf w isDir size saved plan) :
    ((plan.focused id saved).tabs.map (·.id)).Nodup := by
  have hmap := focusTabs_map SessionTab.id (fun _ _ => rfl) saved.tabs plan.live
  rw [WorkspacePlan.focused, hmap]
  exact h.ids

/-- Every planned workspace is a plan of its saved workspace. -/
theorem planOf_planWorkspace (hw : Function.Injective w.newV4) (ws : Workspace) (c : Counters) :
    PlanOf w isDir size ws (planWorkspace w isDir size ws c).2 := by
  have hids := (@tabIds_planWorkspace w isDir size hw ws c).nodup
  have hmade := @planTabs_made w isDir size ws.tabs c
  have hlen := @length_planTabs w isDir size ws.tabs c
  rw [planWorkspace] at hids ⊢
  dsimp only at hids ⊢
  by_cases hempty : ws.tabs.isEmpty = true
  · have hnil := List.isEmpty_iff.mp hempty
    rw [if_pos hempty] at hids ⊢
    rw [hnil, planTabs] at hids ⊢
    dsimp only at hids ⊢
    refine ⟨by rw [hnil]; rfl, hids, fun t ht => ?_, fun j t ht => absurd ht (by simp),
      fun hne => absurd hnil hne, fun _ hseed => ?_⟩
    · simp only [WorkspacePlan.live, List.reduceOption_nil, List.nil_append, Option.mem_toList,
        Option.map_eq_some_iff] at ht
      obtain ⟨r, -, rfl⟩ := ht
      exact ⟨rfl, rfl⟩
    · rw [planRoot] at hseed
      split_ifs at hseed with hspawn
      · cases hseed
      · exact Bool.eq_false_iff.mpr hspawn
  · rw [if_neg hempty] at hids ⊢
    refine ⟨hlen, hids, fun t ht => ?_, fun j t ht => hmade ht, fun _ => rfl, fun hnil => ?_⟩
    · simp only [WorkspacePlan.live, Option.toList_none, List.append_nil,
        List.reduceOption_mem_iff] at ht
      obtain ⟨j, hj⟩ := List.mem_iff_getElem?.mp ht
      obtain ⟨tab, c', -, hplan⟩ := hmade hj
      exact plain_planTab hplan
    · exact absurd (List.isEmpty_iff.mpr hnil) hempty

theorem planOf_planWorkspaces (hw : Function.Injective w.newV4) (saved : List Workspace)
    (c : Counters) {i : ℕ} {ws : Workspace} (hi : saved[i]? = some ws) :
    ∃ plan, (planWorkspaces w isDir size saved c).2[i]? = some plan ∧ PlanOf w isDir size ws plan := by
  obtain ⟨c', hplan⟩ := planWorkspaces_getElem? (w := w) saved c hi
  exact ⟨_, hplan, planOf_planWorkspace hw ws c'⟩

end Plans

/-! ### The restored layout -/

section Planned

variable (w : World) (isDir : PathBuf → Bool)

def plannedWorkspaces (state : WorkspaceState) : List SessionWorkspace :=
  restoredFrom w 0 state.workspaces (restorePlan w isDir state)

/-- The layout a cold start leaves. -/
def plannedLayout (state : WorkspaceState) : SessionLayout where
  workspaces := focusWorkspaces state.workspaces (plannedWorkspaces w isDir state)
  activeWorkspace :=
    if state.activeWorkspace < state.workspaces.length then state.activeWorkspace else 0

/-- The manager after all tabs were restored. -/
def restoredTabs (state : WorkspaceState) (s : SessionManager) : SessionManager :=
  let s := if state.pinned then s.setPinned true else s
  restoreWorkspaces w isDir .default 0 state.workspaces (restoreSlots w 0 state.workspaces s)

end Planned

section Whole

open SessionManager

variable {w : World} {isDir : PathBuf → Bool} {s : SessionManager}

theorem tabs_restoredFrom (i : ℕ) (saved : List Workspace) (plans : List WorkspacePlan) :
    ∀ ws ∈ restoredFrom w i saved plans, ∃ plan ∈ plans, ws.tabs = plan.live := by
  induction saved generalizing i plans with
  | nil => exact nofun
  | cons v rest ih =>
    cases plans with
    | nil => exact nofun
    | cons plan plans =>
      intro ws hws
      rcases List.mem_cons.mp hws with rfl | hws
      · exact ⟨plan, by simp, rfl⟩
      · obtain ⟨q, hq, heq⟩ := ih (i + 1) plans ws hws
        exact ⟨q, List.mem_cons_of_mem _ hq, heq⟩

/-- All tabs are restored as planned. -/
theorem grew_restoredTabs {state : WorkspaceState} (hne : state.workspaces ≠ []) (hs : Fresh w s)
    (hu : (plannedPanes w isDir state).Nodup) :
    Grew (plannedWorkspaces w isDir state)
        (planWorkspaces w isDir .default state.workspaces ⟨state.workspaces.length, 0⟩).1
        (plannedPanes w isDir state) (if state.pinned then s.setPinned true else s)
        (restoredTabs w isDir state s) ∧
    WorkspaceCwds isDir (restoredTabs w isDir state s) state.workspaces
      (restorePlan w isDir state) := by
  rw [restoredTabs]
  have hs' := hs.pinned state.pinned
  generalize (if state.pinned then s.setPinned true else s) = t at hs' ⊢
  have h₁ := grew_slots hne hs'
  have hu' := hu
  rw [plannedPanes, restorePlan, ← h₁.counters] at hu'
  obtain ⟨h₂, hc⟩ := @grew_restoreWorkspaces w isDir .default state.workspaces 0 [] _
    List.length_nil h₁.workspaces List.nodup_nil hu' (by simp)
  rw [h₁.counters] at h₂ hc
  exact ⟨h₁.trans h₂, hc⟩

@[simp] theorem length_focusWorkspaces (saved : List Workspace) (lives : List SessionWorkspace) :
    (focusWorkspaces saved lives).length = lives.length := by
  induction saved generalizing lives with
  | nil => rfl
  | cons ws saved ih =>
    cases lives with
    | nil => rfl
    | cons live lives => simp [focusWorkspaces, ih]

theorem length_restoredFrom (i : ℕ) (saved : List Workspace) (plans : List WorkspacePlan) :
    (restoredFrom w i saved plans).length = min saved.length plans.length := by
  induction saved generalizing i plans with
  | nil => simp [restoredFrom]
  | cons ws saved ih =>
    cases plans with
    | nil => rfl
    | cons plan plans =>
      rw [restoredFrom, List.length_cons, ih, List.length_cons, List.length_cons]
      omega

theorem length_planWorkspaces (saved : List Workspace) (c : Counters) :
    (planWorkspaces w isDir .default saved c).2.length = saved.length := by
  induction saved generalizing c with
  | nil => rfl
  | cons ws saved ih => simp [planWorkspaces, ih]

theorem length_plannedWorkspaces (state : WorkspaceState) :
    (plannedWorkspaces w isDir state).length = state.workspaces.length := by
  rw [plannedWorkspaces, length_restoredFrom, restorePlan, length_planWorkspaces, min_self]

theorem leaves_restoredFrom (i : ℕ) (saved : List Workspace) (plans : List WorkspacePlan)
    (h : plans.length = saved.length) :
    (restoredFrom w i saved plans).flatMap SessionWorkspace.leaves =
      plans.flatMap WorkspacePlan.leaves := by
  induction saved generalizing i plans with
  | nil =>
    rw [List.length_nil, List.length_eq_zero_iff] at h
    subst h
    rfl
  | cons ws saved ih =>
    cases plans with
    | nil => exact nomatch h
    | cons plan plans =>
      rw [restoredFrom, List.flatMap_cons, List.flatMap_cons, ih _ _ (Nat.succ.inj h),
        leaves_restored]

theorem leaves_plannedWorkspaces (state : WorkspaceState) :
    (plannedWorkspaces w isDir state).flatMap SessionWorkspace.leaves =
      plannedPanes w isDir state :=
  leaves_restoredFrom 0 _ _ (length_planWorkspaces _ _)

theorem leaves_focusWorkspaces (saved : List Workspace) (lives : List SessionWorkspace) :
    (focusWorkspaces saved lives).flatMap SessionWorkspace.leaves =
      lives.flatMap SessionWorkspace.leaves := by
  induction saved generalizing lives with
  | nil => rfl
  | cons ws saved ih =>
    cases lives with
    | nil => rfl
    | cons live lives =>
      have htabs := focusTabs_map (fun t => t.paneTree.leaves) (fun _ _ => rfl) ws.tabs live.tabs
      rw [focusWorkspaces, List.flatMap_cons, List.flatMap_cons, ih]
      congr 1
      rw [SessionWorkspace.leaves, SessionWorkspace.leaves, List.flatMap_def, htabs,
        List.flatMap_def]

/-- The active workspace of the file, if it is in bounds. -/
theorem setActiveWorkspace_first (i : ℕ) (s : SessionManager) (hs : s.layout.activeWorkspace = 0) :
    (s.setActiveWorkspace i).1.layout.activeWorkspace =
        (if i < s.layout.workspaces.length then i else 0) ∧
      (s.setActiveWorkspace i).1.layout.workspaces = s.layout.workspaces ∧
      (s.setActiveWorkspace i).1.panes = s.panes ∧ (s.setActiveWorkspace i).1.pinned = s.pinned ∧
      (s.setActiveWorkspace i).1.counters = s.counters := by
  rw [setActiveWorkspace]
  by_cases hi : i < s.layout.workspaces.length
  · rw [if_neg (not_le.mpr hi), if_pos hi]
    split_ifs with hsame
    · exact ⟨hsame, rfl, rfl, rfl, rfl⟩
    · exact ⟨rfl, rfl, rfl, rfl, rfl⟩
  · rw [if_pos (not_lt.mp hi), if_neg hi]
    exact ⟨hs, rfl, rfl, rfl, rfl⟩

/-- What a cold start leaves: the planned layout, the pinned flag of the file, and the
planned panes, each registered once, in their saved directories. -/
structure Restored (w : World) (isDir : PathBuf → Bool) (state : WorkspaceState)
    (s t : SessionManager) : Prop where
  layout : t.layout = plannedLayout w isDir state
  pinned : t.pinned = (state.pinned || s.pinned)
  minted : t.minted =
    (planWorkspaces w isDir .default state.workspaces ⟨state.workspaces.length, 0⟩).1.minted
  panes : ∀ p, p ∈ t.panes ↔ p ∈ plannedPanes w isDir state
  order : t.paneOrder.Perm (plannedPanes w isDir state)
  cwds : WorkspaceCwds isDir t state.workspaces (restorePlan w isDir state)

/-- A cold start from a session file leaves the planned layout. -/
theorem restored_coldStart (hw : Function.Injective w.newV4) {state : WorkspaceState}
    (hne : state.workspaces ≠ []) (hs : Fresh w s) (hu : (plannedPanes w isDir state).Nodup) :
    Restored w isDir state s (coldStart w isDir state s) := by
  have hnil : ¬state.workspaces.isEmpty = true := by simpa using hne
  obtain ⟨h₁, hc⟩ := grew_restoredTabs hne hs hu
  have hpanes := @hasPanes_coldStart w isDir s state hs
  rw [coldStart, if_neg hnil] at hpanes ⊢
  change Restored w isDir state s ((restoreTargets 0 state.workspaces
    ((restoredTabs w isDir state s).setActiveWorkspace
      state.activeWorkspace).1.layout.workspaces).foldl setFocus
    ((restoredTabs w isDir state s).setActiveWorkspace state.activeWorkspace).1)
  have hactive : (restoredTabs w isDir state s).layout.activeWorkspace = 0 := by
    rw [h₁.active]
    split_ifs <;> simp [setPinned, hs.layout, SessionLayout.newDefault]
  obtain ⟨ha, hws, hsame, hpinned, hcounters⟩ := setActiveWorkspace_first state.activeWorkspace _ hactive
  have h₂ := grew_focusWorkspaces state.workspaces [] (plannedWorkspaces w isDir state)
    (hws.trans h₁.workspaces) fun ws hmem => by
      obtain ⟨plan, hplan, htabs⟩ := tabs_restoredFrom 0 state.workspaces _ ws hmem
      rw [htabs]
      have hids := @tabIds_planWorkspaces w isDir .default hw state.workspaces
        ⟨state.workspaces.length, 0⟩
      exact (List.nodup_flatMap.mp hids.nodup).1 plan hplan
  refine ⟨?_, ?_, ?_, hpanes.panes, hpanes.order, fun i ws plan hi hplan j tab t hj ht => ?_⟩
  all_goals rw [hws, h₁.workspaces]
  · have hlayout (l : SessionLayout) (wss : List SessionWorkspace) (i : ℕ)
        (h : l.workspaces = wss) (h' : l.activeWorkspace = i) : l = ⟨wss, i⟩ := by
      cases l
      subst h h'
      rfl
    refine hlayout _ _ _ h₂.workspaces ?_
    rw [h₁.workspaces, length_plannedWorkspaces] at ha
    exact h₂.active.trans ha
  · have h := (h₂.pinned.trans hpinned).trans h₁.pinned
    refine h.trans ?_
    cases state.pinned <;> rfl
  · exact congrArg Counters.minted ((h₂.counters.trans hcounters).trans h₁.counters)
  · refine (hc i ws plan hi hplan j tab t hj ht).of_same fun p _ => ?_
    refine (h₂.cwd p List.not_mem_nil).trans ?_
    rw [cwdOf, cwdOf, hsame]

/-! ### Restored sessions -/

theorem leaves_plannedLayout (state : WorkspaceState) :
    (plannedLayout w isDir state).leaves = plannedPanes w isDir state :=
  (leaves_focusWorkspaces _ _).trans (leaves_plannedWorkspaces state)

/-- A restored session is tracked. -/
theorem tracked_coldStart (hw : Function.Injective w.newV4) {state : WorkspaceState}
    (hne : state.workspaces ≠ []) (hs : Fresh w s) (hids : Usable w state.savedPaneIds) :
    Tracked w (coldStart w isDir state s) := by
  have hu := nodup_plannedPanes hw isDir hids
  have h := restored_coldStart hw hne hs hu
  have hleaves : (coldStart w isDir state s).layout.leaves = plannedPanes w isDir state := by
    rw [h.layout, leaves_plannedLayout]
  have hissued := @issued_planWorkspaces w isDir .default hw state.workspaces
    ⟨state.workspaces.length, 0⟩ hids
  refine ⟨hleaves ▸ hu, fun p hp => ?_, h.order.nodup_iff.mpr hu, fun p => ?_, fun n hn hp => ?_,
    fun hnil => ?_⟩
  · rw [hleaves]
    exact (h.panes p).mp hp
  · rw [h.order.mem_iff, h.panes]
  · rw [hleaves] at hp
    rw [h.minted] at hn
    rcases hissued.source _ (List.mem_map.mpr ⟨_, hp, rfl⟩) with hsaved | ⟨m, -, hm, heq⟩
    · exact hids.fresh n hsaved
    · have hnm : n = m := hw heq
      omega
  · rw [h.layout] at hnil
    have hlen : (plannedLayout w isDir state).workspaces.length = state.workspaces.length := by
      rw [plannedLayout, length_focusWorkspaces, length_plannedWorkspaces]
    rw [hnil] at hlen
    exact hne (List.length_eq_zero_iff.mp hlen.symm)

/-- A restored workspace is sound. -/
theorem PlanOf.sound_focused {size : PtySize} {saved : Workspace} {plan : WorkspacePlan}
    (h : PlanOf w isDir size saved plan) (id : Uuid) : (plan.focused id saved).Sound where
  active := by
    show (if saved.activeTab < plan.live.length then saved.activeTab else 0) <
      max (focusTabs saved.tabs plan.live).length 1
    rw [length_focusTabs]
    split_ifs <;> omega
  tabs := by
    intro tab htab
    obtain ⟨k, hk⟩ := List.mem_iff_getElem?.mp htab
    rw [WorkspacePlan.focused, focusTabs_getElem?, Option.map_eq_some_iff] at hk
    obtain ⟨l, hl, rfl⟩ := hk
    obtain ⟨htitle, hnone⟩ := h.plain l (List.mem_of_getElem? hl)
    cases saved.tabs[k]? with
    | none => exact ⟨htitle, fun p hp => nomatch hnone.symm.trans hp⟩
    | some other =>
      refine ⟨htitle, fun p hp => ?_⟩
      have hp' : (focusOf other l).or l.activePaneId = some p := hp
      rw [hnone, Option.or_none] at hp'
      exact focusOf_mem hp'

/-- The layout of a restored session is sound. -/
theorem sound_plannedLayout (hw : Function.Injective w.newV4) {state : WorkspaceState}
    (hne : state.workspaces ≠ []) : (plannedLayout w isDir state).Sound := by
  have hlen : (plannedLayout w isDir state).workspaces.length = state.workspaces.length := by
    rw [plannedLayout, length_focusWorkspaces, length_plannedWorkspaces]
  refine ⟨?_, fun ws hws => ?_⟩
  · rw [hlen, plannedLayout]
    have hpos := List.length_pos_iff.mpr hne
    dsimp only
    split_ifs <;> omega
  · obtain ⟨i, hi⟩ := List.mem_iff_getElem?.mp hws
    obtain ⟨hlt, -⟩ := List.getElem?_eq_some_iff.mp hi
    rw [hlen] at hlt
    have hsaved := List.getElem?_eq_getElem hlt
    obtain ⟨plan, hplan, hof⟩ := @planOf_planWorkspaces w isDir .default hw
      state.workspaces ⟨state.workspaces.length, 0⟩ _ _ hsaved
    have hlive := getElem?_focusWorkspaces (w := w) state.workspaces _ 0 hsaved hplan
    obtain rfl := Option.some.inj (hlive.symm.trans hi)
    exact hof.sound_focused _

/-- How a daemon comes up: with an empty manager, or with a session restored from a
file whose pane ids are distinct and are not handed out again. -/
inductive Started (w : World) : SessionManager → Prop
  | empty (logFiles : PMap Uuid Bytes) (ringKb maxMb : UInt32) :
    Started w ((SessionManager.new w logFiles).setByteLogConfig ringKb maxMb)
  | restored (isDir : PathBuf → Bool) (state : WorkspaceState) (logFiles : PMap Uuid Bytes)
    (ringKb maxMb : UInt32) (hids : Usable w state.savedPaneIds) :
    Started w (coldStart w isDir state
      ((SessionManager.new w logFiles).setByteLogConfig ringKb maxMb))

/-- What holds of a new manager, and of what a session with workspaces is restored to, holds of
every manager a daemon starts with. -/
theorem Started.elim {P : SessionManager → Prop} (h : Started w s)
    (hempty : ∀ logFiles ringKb maxMb,
      P ((SessionManager.new w logFiles).setByteLogConfig ringKb maxMb))
    (hrestored : ∀ isDir state logFiles ringKb maxMb, state.workspaces ≠ [] →
      Usable w state.savedPaneIds → P (coldStart w isDir state
        ((SessionManager.new w logFiles).setByteLogConfig ringKb maxMb))) : P s := by
  cases h with
  | empty logFiles ringKb maxMb => exact hempty logFiles ringKb maxMb
  | restored isDir state logFiles ringKb maxMb hids =>
    by_cases hne : state.workspaces = []
    · rw [coldStart, if_pos (List.isEmpty_iff.mpr hne)]
      exact hempty logFiles ringKb maxMb
    · exact hrestored isDir state logFiles ringKb maxMb hne hids

theorem Started.tracked_sound (hw : Function.Injective w.newV4) (h : Started w s) :
    Tracked w s ∧ s.layout.Sound := by
  refine h.elim (P := fun t => Tracked w t ∧ t.layout.Sound) (fun logFiles ringKb maxMb => ?_)
    fun isDir state logFiles ringKb maxMb hne hids => ?_
  · have ht := tracked_new w logFiles
    exact ⟨⟨ht.1, ht.2, ht.3, ht.4, ht.5, ht.6⟩, SessionLayout.sound_newDefault _⟩
  · have hfresh := fresh_new w logFiles ringKb maxMb
    refine ⟨tracked_coldStart hw hne hfresh hids, ?_⟩
    rw [(restored_coldStart hw hne hfresh (nodup_plannedPanes hw isDir hids)).layout]
    exact sound_plannedLayout hw hne

/-- The states of a session: a daemon comes up and takes calls. -/
def SessionState (w : World) (s : SessionManager) : Prop :=
  ∃ start ops, Started w start ∧ s = start.runOps w ops

/-- A daemon that found no session and has the settings of a new manager. -/
theorem SessionState.of_new (w : World) (logFiles : PMap Uuid Bytes) (ops : List Op) :
    SessionState w ((SessionManager.new w logFiles).runOps w ops) :=
  ⟨_, ops, .empty logFiles 1024 10, rfl⟩

/-- Every state of a session is tracked and has a sound layout. -/
theorem SessionState.tracked_sound (hw : Function.Injective w.newV4) (h : SessionState w s) :
    Tracked w s ∧ s.layout.Sound := by
  obtain ⟨start, ops, hstart, rfl⟩ := h
  refine (along_of_step (P := fun t => Tracked w t ∧ t.layout.Sound) (hstart.tracked_sound hw)
    fun t op ht => ?_).last
  exact ⟨ht.1.apply hw op, sound_apply ht.2 (ht.1.closesOneTab op)⟩

end Whole

end Forgetty
