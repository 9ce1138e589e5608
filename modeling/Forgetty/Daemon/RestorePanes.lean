import Forgetty.Daemon.RestoreRun
import Forgetty.Daemon.RestoreIds
import Forgetty.Session.Indices

/-! The panes a cold start brings. The restore takes the ids of the file as they are: every
pane that comes up is put at the end of the creation order and gets a leaf, whether its id
is in use or not. So the panes of the plan are those in the order and those in the layout,
each as often as it is planned. -/

namespace Forgetty

open Lib SessionManager

/-- The panes `ps` came, each as often as it is listed. -/
structure Entered (c : Counters) (ps : List PaneId) (s t : SessionManager) : Prop where
  counters : t.counters = c
  effect : ∃ new, Effect [] new s t ∧ new.Perm ps
  length : t.layout.workspaces.length = s.layout.workspaces.length

section Entered

variable {w : World} {isDir : PathBuf → Bool} {size : PtySize} {c c' : Counters}
  {ps ps' : List PaneId} {s t u : SessionManager} {p q : PaneId}

theorem Entered.refl (s : SessionManager) : Entered s.counters [] s s :=
  ⟨rfl, ⟨[], .refl s, List.Perm.refl _⟩, rfl⟩

theorem Entered.trans (h : Entered c ps s t) (h' : Entered c' ps' t u) :
    Entered c' (ps ++ ps') s u := by
  obtain ⟨new, he, hp⟩ := h.effect
  obtain ⟨new', he', hp'⟩ := h'.effect
  exact ⟨h'.counters, ⟨new ++ new', he.trans he', hp.append hp'⟩, h'.length.trans h.length⟩

theorem Entered.perm (h : Entered c ps s t) (hp : ps.Perm ps') : Entered c ps' s t := by
  obtain ⟨new, he, hnew⟩ := h.effect
  exact ⟨h.counters, ⟨new, he, hnew.trans hp⟩, h.length⟩

theorem Entered.mem_panes (h : Entered c ps s t) : p ∈ t.panes ↔ p ∈ s.panes ∨ p ∈ ps := by
  obtain ⟨new, he, hp⟩ := h.effect
  rw [he.keys, hp.mem_iff, and_iff_left List.not_mem_nil]

theorem Entered.mem_leaves (h : Entered c ps s t) :
    p ∈ t.layout.leaves ↔ p ∈ s.layout.leaves ∨ p ∈ ps := by
  obtain ⟨new, he, hp⟩ := h.effect
  rw [he.leaves.mem_iff, List.mem_append, hp.mem_iff]
  simp

/-- A call that brings no pane. -/
theorem Entered.of_quiet (hc : t.counters = c) (he : Effect [] [] s t)
    (hl : t.layout.workspaces.length = s.layout.workspaces.length) : Entered c [] s t :=
  ⟨hc, ⟨[], he, List.Perm.refl _⟩, hl⟩

/-! ### The calls -/

theorem entered_takePaneId (w : World) (saved : Option Uuid) (s : SessionManager) :
    Entered (planPaneId w saved s.counters).1 [] s (s.takePaneId w saved).1 := by
  cases saved with
  | none =>
    exact .of_quiet rfl (.of_same (fun _ => Iff.rfl) rfl (List.Perm.refl _) (Nat.le_succ _) id) rfl
  | some pid => exact .refl s

theorem entered_countSpawn (s : SessionManager) : Entered s.counters.spawn [] s s.countSpawn :=
  .of_quiet rfl (.of_same (fun _ => Iff.rfl) rfl (List.Perm.refl _) le_rfl id) rfl

theorem length_replaceLeafInLayout {direction : String} {ratio : F32}
    {wss : List SessionWorkspace} {tabId : Uuid}
    (h : (replaceLeafInLayout p q direction ratio wss).2 = some tabId) :
    (replaceLeafInLayout p q direction ratio wss).1.length = wss.length := by
  obtain ⟨pre, ws, post, rfl, -, hout, -⟩ := replaceLeafInLayout_some h
  rw [hout, List.length_append, List.length_append, List.length_cons, List.length_cons]

/-- A live leaf is split, whether the new pane is there already or not. -/
theorem entered_split (q : PaneId) (label : SplitLabel) {cwd : Option PathBuf} (hp : p ∈ s.panes)
    (hleaf : p ∈ s.layout.leaves) (h : shellSpawns w size s.spawned cwd = true) :
    ∃ t, s.splitPaneWithRatioAndPaneId w p label.direction label.ratio size cwd q = (t, .ok q) ∧
      Entered s.counters.spawn [q] s t := by
  obtain ⟨b, wss, tabId, hr, heq⟩ := split_live q label.direction label.ratio hp hleaf h
  have hleaves := replaceLeafInLayout_leaves (congrArg Prod.snd hr)
  have hlen := length_replaceLeafInLayout (congrArg Prod.snd hr)
  rw [hr] at hleaves hlen
  refine ⟨_, heq, ?_, ⟨[q], ?_, List.Perm.refl _⟩, ?_⟩
  · simp [SessionManager.counters]
    rfl
  · refine effect_registerPane (by simp [PaneState.spawned]) (by simp [PaneState.spawned]) ?_
      (by simp) fun hne hnil => hne ?_
    · rw [spawnDrainTask_layout]
      exact hleaves
    · rw [spawnDrainTask_layout] at hnil
      exact List.length_eq_zero_iff.mp (hlen.symm.trans (congrArg List.length hnil))
  · rw [spawnDrainTask_layout]
    exact hlen

/-! ### Trees -/

/-- Rebuilding a tree brings the panes planned for it, the anchor aside. -/
theorem entered_restoreSubtree (t : PaneTreeState) {anchorId : PaneId} {s : SessionManager}
    (hp : anchorId ∈ s.panes) (hleaf : anchorId ∈ s.layout.leaves) :
    Entered (planTree w isDir size t anchorId s.counters).1
      (planTree w isDir size t anchorId s.counters).2.leaves.tail s
      (restoreSubtree w isDir size t anchorId s) := by
  induction t generalizing anchorId s with
  | leaf l =>
    rw [restoreSubtree, planTree]
    split_ifs
    · exact .of_quiet (grew_setPaneCwd anchorId l.cwd hp).counters (effect_setPaneCwd _ _ s)
        (by rw [setPaneCwd_layout])
    · exact .refl s
  | node label first second ih₁ ih₂ =>
    have h₀ := entered_takePaneId w (firstLeafPaneId second) s
    rw [restoreSubtree_node, takePaneId_snd, planTree]
    generalize (s.takePaneId w (firstLeafPaneId second)).1 = s₀ at h₀ ⊢
    generalize planPaneId w (firstLeafPaneId second) s.counters = taken at h₀ ⊢
    obtain ⟨c₀, new⟩ := taken
    dsimp only at h₀ ⊢
    have hc₀ : s₀.spawned = c₀.spawned := congrArg Counters.spawned h₀.counters
    have hp₀ : anchorId ∈ s₀.panes := h₀.mem_panes.mpr (Or.inl hp)
    by_cases hspawn : shellSpawns w size c₀.spawned
      (effectiveCwd isDir (firstLeafCwd second)) = true
    · obtain ⟨t₁, heq, h₁⟩ := entered_split new label hp₀ (h₀.mem_leaves.mpr (Or.inl hleaf))
        (hc₀ ▸ hspawn)
      rw [h₀.counters] at h₁
      have h := h₀.trans h₁
      rw [List.nil_append] at h
      have h₂ := ih₁ (h.mem_panes.mpr (Or.inl hp)) (h.mem_leaves.mpr (Or.inl hleaf))
      rw [heq, if_pos hspawn]
      rw [h.counters] at h₂
      have hnew := List.mem_singleton_self new
      have h₃ := ih₂ (h₂.mem_panes.mpr (Or.inl (h.mem_panes.mpr (Or.inr hnew))))
        (h₂.mem_leaves.mpr (Or.inl (h.mem_leaves.mpr (Or.inr hnew))))
      rw [h₂.counters] at h₃
      refine ((h.trans h₂).trans h₃).perm ?_
      rw [tail_leaves_node, leaves_planTree second new]
      simpa using List.perm_middle.symm
    · obtain ⟨e, heq⟩ := split_failed (q := new) label.direction label.ratio hp₀ (hc₀ ▸ hspawn)
      have h := h₀.trans (entered_countSpawn s₀)
      rw [h₀.counters] at h
      rw [heq, if_neg hspawn]
      exact h

/-! ### Tabs and workspaces -/

theorem paneId_of_planRoot {saved : Option Uuid} {cwd : Option PathBuf} {tabId : Uuid}
    (h : (planRoot w size saved cwd c).2 = some (q, tabId)) : (planPaneId w saved c).2 = q := by
  rw [planRoot] at h
  split_ifs at h
  exact congrArg Prod.fst (Option.some.inj h)

/-- The root pane of a tab comes up as planned, or the tab is left out. -/
theorem entered_createRoot {i : ℕ} (saved : Option Uuid) (cwd : Option PathBuf)
    {s : SessionManager} (hi : i < s.layout.workspaces.length) :
    (∃ t e, (s.takePaneId w saved).1.createTabWithPaneId w i cwd size none
          (s.takePaneId w saved).2 = (t, .error e) ∧
        (planRoot w size saved cwd s.counters).2 = none ∧
        Entered (planRoot w size saved cwd s.counters).1 [] s t) ∨
      ∃ t q tabId, (s.takePaneId w saved).1.createTabWithPaneId w i cwd size none
          (s.takePaneId w saved).2 = (t, .ok (q, tabId)) ∧
        (planRoot w size saved cwd s.counters).2 = some (q, tabId) ∧
        Entered (planRoot w size saved cwd s.counters).1 [q] s t := by
  obtain ⟨new, hnew, he⟩ := effect_createTabWithPaneId w i cwd size none
    (s.takePaneId w saved).2 (s.takePaneId w saved).1
  obtain ⟨none', h₀, hnone⟩ := (entered_takePaneId w saved s).effect
  rw [List.perm_nil.mp hnone] at h₀
  have heff := h₀.trans he
  rw [List.nil_append] at heff
  have hlen := heff.leaves.length_eq
  rw [List.filter_eq_self.mpr (by simp), List.length_append] at hlen
  -- whether the pane came is seen at the number of leaves
  rcases @createRoot w size i saved cwd s hi with
    ⟨t, e, heq, hplan, h⟩ | ⟨t, q, tabId, heq, hplan, h⟩
  · rw [heq] at heff hlen
    have hsame : t.layout.leaves = s.layout.leaves :=
      congrArg (List.flatMap SessionWorkspace.leaves) h.workspaces
    rw [hsame] at hlen
    have hnil : new = [] := List.length_eq_zero_iff.mp (by omega)
    rw [hnil] at heff
    exact Or.inl ⟨t, e, heq, hplan, .of_quiet h.counters heff (by rw [h.workspaces])⟩
  · rw [heq] at heff hlen
    have hmore := @leaves_modify _ _ _ (SessionWorkspace.addTabs [.ofLeaf tabId q]) [q]
      (List.getElem?_eq_getElem hi) (by simp [SessionWorkspace.addTabs, SessionWorkspace.leaves,
        SessionTab.ofLeaf])
    rw [← h.workspaces] at hmore
    have hone := hmore.length_eq
    rw [List.length_append, List.length_singleton] at hone
    simp only [SessionLayout.leaves] at hlen
    have hq : (s.takePaneId w saved).2 = q := by
      rw [takePaneId_snd, paneId_of_planRoot hplan]
    rcases hnew with rfl | rfl
    · rw [List.length_nil] at hlen
      omega
    · rw [hq] at heff
      exact Or.inr ⟨t, q, tabId, heq, hplan, h.counters, ⟨[q], heff, List.Perm.refl _⟩,
        by rw [h.workspaces, List.length_modify]⟩

/-- A tab brings the panes planned for it. -/
theorem entered_restoreTab {i : ℕ} (tab : TabState) (hi : i < s.layout.workspaces.length) :
    Entered (planTab w isDir size tab s.counters).1
      (plannedLeaves [(planTab w isDir size tab s.counters).2]) s
      (restoreTab w isDir size i s tab) := by
  rw [restoreTab_eq, planTab]
  dsimp only
  rcases entered_createRoot (firstLeafPaneId tab.paneTree)
    (effectiveCwd isDir (firstLeafCwd tab.paneTree)) hi with
    ⟨t, e, heq, hplan, h⟩ | ⟨t, q, tabId, heq, hplan, h⟩
  · rw [heq, hplan]
    exact h
  · rw [heq, hplan]
    dsimp only
    have hq := List.mem_singleton_self q
    have h' := @entered_restoreSubtree w isDir size tab.paneTree q t
      (h.mem_panes.mpr (Or.inr hq)) (h.mem_leaves.mpr (Or.inr hq))
    rw [h.counters] at h'
    refine (h.trans h').perm ?_
    rw [List.singleton_append, ← leaves_planTree]
    simp [plannedLeaves]

theorem entered_restoreTabs {i : ℕ} (tabs : List TabState) (hi : i < s.layout.workspaces.length) :
    Entered (planTabs w isDir size tabs s.counters).1
      (plannedLeaves (planTabs w isDir size tabs s.counters).2) s
      (tabs.foldl (restoreTab w isDir size i) s) := by
  induction tabs generalizing s with
  | nil => exact .refl s
  | cons tab tabs ih =>
    have h := @entered_restoreTab w isDir size s i tab hi
    have h' := ih (h.length.symm ▸ hi)
    rw [h.counters] at h'
    rw [List.foldl_cons, planTabs]
    dsimp only
    rw [plannedLeaves_cons]
    exact h.trans h'

theorem entered_setActiveTab (i j : ℕ) (s : SessionManager) :
    Entered s.counters [] s (s.setActiveTab i j).1 := by
  refine .of_quiet ?_ (effect_setActiveTab i j s) ?_
  · unfold setActiveTab
    split
    · rfl
    · split_ifs <;> rfl
  · unfold setActiveTab
    split
    · rfl
    · split_ifs
      · rfl
      · simp

/-- A workspace brings the panes planned for it. -/
theorem entered_restoreWorkspace {i : ℕ} (saved : Workspace) (hi : i < s.layout.workspaces.length) :
    Entered (planWorkspace w isDir size saved s.counters).1
      (planWorkspace w isDir size saved s.counters).2.leaves s
      (restoreWorkspace w isDir size i saved s) := by
  rw [restoreWorkspace, planWorkspace]
  dsimp only
  by_cases hempty : saved.tabs.isEmpty = true
  · rw [if_pos hempty, if_pos hempty, List.isEmpty_iff.mp hempty, planTabs, List.foldl_nil]
    have hcreate : s.createTab w i none size none =
        (s.takePaneId w none).1.createTabWithPaneId w i none size none
          (s.takePaneId w none).2 := rfl
    rw [hcreate]
    rcases entered_createRoot none none hi with ⟨t, e, heq, hplan, h⟩ | ⟨t, q, tabId, heq, hplan, h⟩
    · rw [heq, hplan]
      have h' := h.trans (entered_setActiveTab i saved.activeTab t)
      rwa [h.counters] at h'
    · rw [heq, hplan]
      have h' := h.trans (entered_setActiveTab i saved.activeTab t)
      rw [h.counters] at h'
      exact h'.perm (by simp [WorkspacePlan.leaves, WorkspacePlan.live, SessionTab.ofLeaf])
  · rw [if_neg hempty, if_neg hempty]
    have h := @entered_restoreTabs w isDir size s i saved.tabs hi
    have h' := h.trans (entered_setActiveTab i saved.activeTab _)
    rw [h.counters] at h'
    exact h'.perm (by simp [WorkspacePlan.leaves, WorkspacePlan.live, plannedLeaves])

theorem entered_restoreWorkspaces (saved : List Workspace) {i : ℕ}
    (hi : i + saved.length ≤ s.layout.workspaces.length) :
    Entered (planWorkspaces w isDir size saved s.counters).1
      ((planWorkspaces w isDir size saved s.counters).2.flatMap WorkspacePlan.leaves) s
      (restoreWorkspaces w isDir size i saved s) := by
  induction saved generalizing i s with
  | nil => exact .refl s
  | cons ws rest ih =>
    rw [List.length_cons] at hi
    have h := @entered_restoreWorkspace w isDir size s i ws
      (show i < s.layout.workspaces.length by omega)
    have h' := ih (i := i + 1) (s := restoreWorkspace w isDir size i ws s) (by
      rw [h.length]
      omega)
    rw [h.counters] at h'
    rw [restoreWorkspaces, planWorkspaces]
    dsimp only
    rw [List.flatMap_cons]
    exact h.trans h'

/-! ### The cold start -/

/-- The panes `ps` are those in the creation order, in the layout and in the registry. -/
structure HasPanes (ps : List PaneId) (s : SessionManager) : Prop where
  order : s.paneOrder.Perm ps
  leaves : s.layout.leaves.Perm ps
  panes : ∀ p, p ∈ s.panes ↔ p ∈ ps

theorem HasPanes.entered (h : HasPanes ps s) (h' : Entered c ps' s t) : HasPanes (ps ++ ps') t := by
  obtain ⟨new, he, hp⟩ := h'.effect
  refine ⟨?_, ?_, fun p => ?_⟩
  · rw [he.order, List.filter_eq_self.mpr (by simp)]
    exact h.order.append hp
  · refine he.leaves.trans ?_
    rw [List.filter_eq_self.mpr (by simp)]
    exact h.leaves.append hp
  · rw [h'.mem_panes, h.panes, List.mem_append]

theorem HasPanes.quiet (h : HasPanes ps s) (h' : Effect [] [] s t) : HasPanes ps t where
  order := by
    rw [h'.order, List.filter_eq_self.mpr (by simp), List.append_nil]
    exact h.order
  leaves := by
    refine h'.leaves.trans ?_
    rw [List.filter_eq_self.mpr (by simp), List.append_nil]
    exact h.leaves
  panes p := by
    rw [h'.keys, ← h.panes]
    simp

theorem effect_setFocus (targets : List (ℕ × Uuid × PaneId)) (s : SessionManager) :
    Effect [] [] s (targets.foldl setFocus s) := by
  induction targets generalizing s with
  | nil => exact .refl s
  | cons target targets ih =>
    exact (effect_setActivePane target.1 target.2.1 (some target.2.2) s).trans_same (ih _)

/-- The slots of the workspaces have no panes. -/
theorem hasPanes_restoreSlots {saved : List Workspace} (hne : saved ≠ []) (hs : Fresh w s) :
    HasPanes [] (restoreSlots w 0 saved s) := by
  have h := grew_slots hne hs
  obtain ⟨added, ho, -, -, hlen⟩ := h.order
  have hleaves : (restoreSlots w 0 saved s).layout.leaves = [] := by
    rw [SessionLayout.leaves, h.workspaces, leaves_slotsFrom]
  rw [hleaves, List.length_nil] at hlen
  have hnil : added = [] := List.length_eq_zero_iff.mp (by omega)
  refine ⟨?_, List.Perm.of_eq hleaves, fun p => ?_⟩
  · rw [ho, hnil, hs.paneOrder, List.append_nil]
  · rw [h.panes]
    exact or_iff_left (hs.panes p)

/-- A cold start brings the panes of the plan, each as often as it is planned. -/
theorem hasPanes_coldStart {state : WorkspaceState} (hs : Fresh w s) :
    HasPanes (plannedPanes w isDir state) (coldStart w isDir state s) := by
  rw [coldStart]
  by_cases hempty : state.workspaces.isEmpty = true
  · have hnil := List.isEmpty_iff.mp hempty
    rw [if_pos hempty, plannedPanes, restorePlan, hnil]
    refine ⟨?_, ?_, fun p => iff_of_false (hs.panes p) List.not_mem_nil⟩
    · rw [hs.paneOrder]
      rfl
    · rw [hs.layout]
      rfl
  · have hne : state.workspaces ≠ [] := fun h => hempty (List.isEmpty_iff.mpr h)
    have hs' := hs.pinned state.pinned
    rw [if_neg hempty]
    dsimp only
    generalize (if state.pinned then s.setPinned true else s) = t at hs' ⊢
    have hslots := grew_slots hne hs'
    have hall : 0 + state.workspaces.length ≤
        (restoreSlots w 0 state.workspaces t).layout.workspaces.length := by
      rw [hslots.workspaces, length_slotsFrom, Nat.zero_add]
    have h := (hasPanes_restoreSlots hne hs').entered
      (@entered_restoreWorkspaces w isDir .default _ state.workspaces 0 hall)
    rw [hslots.counters] at h
    exact (h.quiet (effect_setActiveWorkspace _ _)).quiet (effect_setFocus _ _)

end Entered

end Forgetty
