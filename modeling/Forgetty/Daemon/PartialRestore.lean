import Forgetty.Daemon.Restored

/-! What a cold start keeps when some of its spawns fail. The active tab and the
focus are set by the places tabs had in the file, while a tab that failed leaves no
gap: they come to the tabs they were saved for exactly under conditions on which
spawns failed. A workspace whose tabs all failed gets no default tab. -/

namespace Forgetty

open Lib

/-- The pane in focus. -/
def SessionTab.focused (tab : SessionTab) : PaneId := tab.activePaneId.getD tab.paneTree.leftmost

/-- The pane of the restored tree that the focus of the saved tab stands for. -/
def Designates (saved : TabState) (t : PaneTreeLayout) (p : PaneId) : Prop :=
  match saved.activePaneId with
  | none => p = t.leftmost
  | some u => u ∈ savedPaneIds saved.paneTree ∧ p = ⟨u⟩ ∧ p ∈ t.leaves

/-- A workspace is restored as far as its spawns succeeded: the tabs are those whose
root pane came up, in saved order; the active tab and the focused panes are the saved
ones where these are there; and it is not empty if a default tab could be spawned. -/
structure KeepsWorkspace (saved : Workspace) (plan : WorkspacePlan) (live : SessionWorkspace) :
    Prop where
  name : live.name = saved.name
  tabs : live.tabs.map (fun t => (t.id, t.paneTree)) = plan.live.map fun t => (t.id, t.paneTree)
  active : ∀ t, plan.tabs[saved.activeTab]? = some (some t) →
    (live.tabs[live.activeTab]?).map (·.id) = some t.id
  focus : ∀ (j : ℕ) (tab : TabState) (t : SessionTab) (p : PaneId), saved.tabs[j]? = some tab →
    plan.tabs[j]? = some (some t) → Designates tab t.paneTree p →
      ∃ l ∈ live.tabs, l.id = t.id ∧ l.focused = p
  fallback : live.tabs = [] → plan.fallback = false

/-- The restored layout keeps every workspace, and the active one stays active. -/
structure KeepsIdentities (state : WorkspaceState) (plans : List WorkspacePlan)
    (layout : SessionLayout) : Prop where
  active : state.activeWorkspace < state.workspaces.length →
    layout.activeWorkspace = state.activeWorkspace
  workspaces : ∀ (i : ℕ) (saved : Workspace), state.workspaces[i]? = some saved →
    ∃ plan live, plans[i]? = some plan ∧ layout.workspaces[i]? = some live ∧
      KeepsWorkspace saved plan live

/-! ### When it does -/

/-- The live tree has the pane `p` where the saved one has a split: the split failed. -/
def SplitLost (p : PaneId) : PaneTreeState → PaneTreeLayout → Prop
  | .node _ _ _, .leaf q => q = p
  | .node _ a b, .node _ c d => SplitLost p a c ∨ SplitLost p b d
  | .leaf _, _ => False

/-- The focus of a restored tab comes out right: when all tabs before it came up,
unless a split of the focused pane failed and it is not the first pane; otherwise,
if the saved tab that has its place in the file has the focus at the same place. -/
def FocusHolds (saved : Workspace) (plan : WorkspacePlan) (j : ℕ) (tab : TabState)
    (t : PaneTreeLayout) (p : PaneId) : Prop :=
  ((∀ i < j, plan.tabs[i]? ≠ some none) → p = t.leftmost ∨ ¬SplitLost p tab.paneTree t) ∧
  (¬(∀ i < j, plan.tabs[i]? ≠ some none) → ∀ other, saved.tabs[rank plan.tabs j]? = some other →
    ((other.activePaneId.bind fun u => livePaneIdForSaved u other.paneTree t).getD t.leftmost) = p)

/-- The failures of a workspace that do no harm. -/
structure Harmless (saved : Workspace) (plan : WorkspacePlan) : Prop where
  /-- The active tab came up with all tabs before it, or it came up first and its
  index is now past the end. -/
  active : ∀ t, plan.tabs[saved.activeTab]? = some (some t) →
    (∀ i < saved.activeTab, plan.tabs[i]? ≠ some none) ∨
      (∀ i < saved.activeTab, ∀ b, plan.tabs[i]? ≠ some (some b)) ∧
        plan.tabs.reduceOption.length ≤ saved.activeTab
  focus : ∀ (j : ℕ) (tab : TabState) (t : SessionTab) (p : PaneId), saved.tabs[j]? = some tab →
    plan.tabs[j]? = some (some t) → Designates tab t.paneTree p →
      FocusHolds saved plan j tab t.paneTree p
  /-- Not all tabs failed, or there were none, or a default tab would fail too. -/
  fallback : saved.tabs = [] ∨ plan.tabs.reduceOption ≠ [] ∨ plan.fallback = false

/-! ### Trees built after saved ones -/

/-- A saved id and the live pane: the same, or none and another one than `u`. -/
def Anchors (u : Uuid) (saved : Option Uuid) (p : PaneId) : Prop :=
  saved = some p.uuid ∨ saved = none ∧ p.uuid ≠ u

/-- The live tree was built after the saved one, with splits left out. -/
inductive Follows (u : Uuid) : PaneTreeState → PaneTreeLayout → Prop
  | leaf (l : SavedLeaf) (p : PaneId) (h : Anchors u l.paneId p) : Follows u (.leaf l) (.leaf p)
  | lost (label : SplitLabel) (a b : PaneTreeState) (p : PaneId)
      (h : Anchors u (firstLeafPaneId a) p) : Follows u (.node label a b) (.leaf p)
  | node (label : SplitLabel) (a b : PaneTreeState) (c d : PaneTreeLayout) (hac : Follows u a c)
      (hbd : Follows u b d) : Follows u (.node label a b) (.node label c d)

section Trees

variable {w : World} {isDir : PathBuf → Bool} {size : PtySize} {u : Uuid} {t : PaneTreeState}
  {l : PaneTreeLayout}

theorem anchors_planPaneId (hu : ∀ n, w.newV4 n ≠ u) (saved : Option Uuid) (c : Counters) :
    Anchors u saved (planPaneId w saved c).2 := by
  cases saved with
  | none => exact Or.inr ⟨rfl, hu _⟩
  | some pid => exact Or.inl rfl

theorem follows_planTree (hu : ∀ n, w.newV4 n ≠ u) (t : PaneTreeState) {anchorId : PaneId}
    (h : Anchors u (firstLeafPaneId t) anchorId) (c : Counters) :
    Follows u t (planTree w isDir size t anchorId c).2 := by
  induction t generalizing anchorId c with
  | leaf l => exact .leaf l anchorId h
  | node label first second ih₁ ih₂ =>
    rw [planTree]
    dsimp only
    split_ifs
    · exact .node label first second _ _ (ih₁ h _)
        (ih₂ (anchors_planPaneId hu (firstLeafPaneId second) c) _)
    · exact .lost label first second anchorId h

theorem mem_of_firstLeafPaneId (h : firstLeafPaneId t = some u) : u ∈ savedPaneIds t := by
  rw [savedPaneIds_eq, h]
  exact List.mem_append_left _ (List.mem_singleton_self u)

theorem savedPaneIds_node (label : SplitLabel) (a b : PaneTreeState) :
    savedPaneIds (.node label a b) = savedPaneIds a ++ savedPaneIds b := by
  rw [savedPaneIds, LeafTree.leaves_node, List.filterMap_append]
  rfl

theorem Anchors.eq_some {saved : Option Uuid} (h : Anchors u saved ⟨u⟩) : saved = some u :=
  h.elim id fun h => absurd rfl h.2

/-- A live pane with the id is in the saved tree. -/
theorem Follows.mem (h : Follows u t l) (hl : ⟨u⟩ ∈ l.leaves) : u ∈ savedPaneIds t := by
  induction h with
  | leaf saved p hp =>
    have hpu : p = ⟨u⟩ := (List.mem_singleton.mp hl).symm
    subst hpu
    exact mem_of_firstLeafPaneId (t := .leaf saved) hp.eq_some
  | lost label a b p hp =>
    have hpu : p = ⟨u⟩ := (List.mem_singleton.mp hl).symm
    subst hpu
    exact mem_of_firstLeafPaneId (t := .node label a b) hp.eq_some
  | node label a b c d _ _ iha ihb =>
    rw [savedPaneIds_node, List.mem_append]
    rcases List.mem_append.mp hl with hl | hl
    · exact Or.inl (iha hl)
    · exact Or.inr (ihb hl)

theorem livePaneIdForSaved_of_not_mem (h : u ∉ savedPaneIds t) (l : PaneTreeLayout) :
    livePaneIdForSaved u t l = none := by
  induction t generalizing l with
  | leaf saved =>
    have hne : saved.paneId ≠ some u := fun hs => h (mem_of_firstLeafPaneId (t := .leaf saved) hs)
    cases l with
    | leaf q => rw [livePaneIdForSaved, if_neg hne]
    | node label c d => rfl
  | node label a b iha ihb =>
    rw [savedPaneIds_node, List.mem_append, not_or] at h
    cases l with
    | leaf q => rfl
    | node label' c d => rw [livePaneIdForSaved, iha h.1, ihb h.2, Option.or_none]

theorem SplitLost.mem {p : PaneId} (h : SplitLost p t l) : p ∈ l.leaves := by
  induction t generalizing l with
  | leaf saved => exact h.elim
  | node label a b iha ihb =>
    cases l with
    | leaf q => exact List.mem_singleton.mpr h.symm
    | node label' c d => exact List.mem_append.mpr (h.imp iha ihb)

/-- A restored pane is found unless its split failed. -/
theorem Follows.livePaneIdForSaved_eq (h : Follows u t l) (hd : (savedPaneIds t).Nodup)
    (hl : ⟨u⟩ ∈ l.leaves) :
    (SplitLost ⟨u⟩ t l → livePaneIdForSaved u t l = none) ∧
      (¬SplitLost ⟨u⟩ t l → livePaneIdForSaved u t l = some ⟨u⟩) := by
  induction h with
  | leaf saved p hp =>
    have hpu : p = ⟨u⟩ := (List.mem_singleton.mp hl).symm
    subst hpu
    refine ⟨False.elim, fun _ => ?_⟩
    rw [livePaneIdForSaved, if_pos hp.eq_some]
  | lost label a b p hp => exact ⟨fun _ => rfl, fun h => absurd (List.mem_singleton.mp hl).symm h⟩
  | node label a b c d hac hbd iha ihb =>
    rw [savedPaneIds_node, List.nodup_append] at hd
    obtain ⟨hda, hdb, hdis⟩ := hd
    rw [livePaneIdForSaved]
    rcases List.mem_append.mp hl with hc | hd'
    · have hu := hac.mem hc
      have hb : livePaneIdForSaved u b d = none :=
        livePaneIdForSaved_of_not_mem (fun h => hdis u hu u h rfl) d
      have hlost : ¬SplitLost ⟨u⟩ b d := fun h => hdis u hu u (hbd.mem h.mem) rfl
      rw [hb, Option.or_none, SplitLost, or_iff_left hlost]
      exact iha hda hc
    · have hu := hbd.mem hd'
      have ha : livePaneIdForSaved u a c = none :=
        livePaneIdForSaved_of_not_mem (fun h => hdis u h u hu rfl) c
      have hlost : ¬SplitLost ⟨u⟩ a c := fun h => hdis u (hac.mem h.mem) u hu rfl
      rw [ha, Option.none_or, SplitLost, or_iff_right hlost]
      exact ihb hdb hd'

/-- The focus a tab gets from its own saved tab. -/
theorem focusOf_own {saved : TabState} {tab : SessionTab} {p : PaneId}
    (hf : ∀ u ∈ savedPaneIds saved.paneTree, Follows u saved.paneTree tab.paneTree)
    (hd : (savedPaneIds saved.paneTree).Nodup) (hp : Designates saved tab.paneTree p) :
    (focusOf saved tab).getD tab.paneTree.leftmost = p ↔
      p = tab.paneTree.leftmost ∨ ¬SplitLost p saved.paneTree tab.paneTree := by
  rw [focusOf]
  rw [Designates] at hp
  cases hu : saved.activePaneId with
  | none =>
    rw [hu] at hp
    exact iff_of_true hp.symm (Or.inl hp)
  | some u =>
    rw [hu] at hp
    obtain ⟨hmem, rfl, hleaf⟩ := hp
    obtain ⟨hlost, hfound⟩ := (hf u hmem).livePaneIdForSaved_eq hd hleaf
    rw [Option.bind_some]
    by_cases hs : SplitLost ⟨u⟩ saved.paneTree tab.paneTree
    · rw [hlost hs, Option.getD_none, or_iff_left (not_not.mpr hs)]
      exact eq_comm
    · rw [hfound hs, Option.getD_some]
      exact iff_of_true rfl (Or.inr hs)

/-- The tree of a tab that came up was built after the saved one. -/
theorem follows_planTab {tab : TabState} {c : Counters} {t : SessionTab} {u : Uuid}
    (h : (planTab w isDir size tab c).2 = some t) (hu : ∀ n, w.newV4 n ≠ u) :
    Follows u tab.paneTree t.paneTree := by
  have hanchor := anchors_planPaneId hu (firstLeafPaneId tab.paneTree) c
  rw [planTab, planRoot] at h
  generalize planPaneId w (firstLeafPaneId tab.paneTree) c = taken at h hanchor
  dsimp only at h
  split_ifs at h
  obtain rfl := Option.some.inj h
  exact follows_planTree hu tab.paneTree hanchor _

end Trees

/-! ### One workspace -/

section One

variable {w : World} {isDir : PathBuf → Bool} {size : PtySize} {saved : Workspace}
  {plan : WorkspacePlan} {id : Uuid}

/-- The active tab is the saved one exactly if it kept its place, or came first and
was then the default. -/
theorem PlanOf.active_iff (h : PlanOf w isDir size saved plan) {t : SessionTab}
    (ht : plan.tabs[saved.activeTab]? = some (some t)) :
    ((plan.focused id saved).tabs[(plan.focused id saved).activeTab]?).map (·.id) = some t.id ↔
      (∀ i < saved.activeTab, plan.tabs[i]? ≠ some none) ∨
        (∀ i < saved.activeTab, ∀ b, plan.tabs[i]? ≠ some (some b)) ∧
          plan.tabs.reduceOption.length ≤ saved.activeTab := by
  obtain ⟨hlt, -⟩ := List.getElem?_eq_some_iff.mp ht
  have hne : saved.tabs ≠ [] := fun hnil => by rw [h.length, hnil] at hlt; exact nomatch hlt
  obtain ⟨hlive, other, -, hfocused⟩ := @PlanOf.getElem?_focused _ _ _ _ _ id h _ _ ht
  have hranklt := rank_lt ht
  have hactive : (plan.focused id saved).activeTab =
      if saved.activeTab < plan.tabs.reduceOption.length then saved.activeTab else 0 := by
    rw [← h.live_eq hne]
    rfl
  -- the active place holds the tab exactly if it is the rank of the tab
  have hplace : ((plan.focused id saved).tabs[(plan.focused id saved).activeTab]?).map (·.id) =
      some t.id ↔ (plan.focused id saved).activeTab = rank plan.tabs saved.activeTab := by
    constructor
    · intro hid
      obtain ⟨l, hl, hid⟩ := Option.map_eq_some_iff.mp hid
      exact eq_of_getElem?_id h.ids_focused hl hfocused hid
    · intro heq
      rw [heq, hfocused]
      rfl
  rw [hplace, hactive, ← rank_eq_self hlt.le, ← rank_eq_zero]
  split_ifs with ha
  · constructor
    · exact fun heq => Or.inl heq.symm
    · rintro (heq | ⟨-, hle⟩)
      · exact heq.symm
      · omega
  · constructor
    · exact fun heq => Or.inr ⟨heq.symm, by omega⟩
    · rintro (heq | ⟨heq, -⟩)
      · omega
      · exact heq.symm

/-- The focus of a tab that came up is the saved one exactly as said. -/
theorem PlanOf.focus_iff (h : PlanOf w isDir size saved plan) (hids : Usable w saved.savedPaneIds) {j : ℕ}
    {tab : TabState} {t : SessionTab} {p : PaneId} (hj : saved.tabs[j]? = some tab)
    (ht : plan.tabs[j]? = some (some t)) (hp : Designates tab t.paneTree p) :
    (∃ l ∈ (plan.focused id saved).tabs, l.id = t.id ∧ l.focused = p) ↔
      FocusHolds saved plan j tab t.paneTree p := by
  obtain ⟨hjlt, -⟩ := List.getElem?_eq_some_iff.mp ht
  obtain ⟨hlive, other, hother, hfocused⟩ := @PlanOf.getElem?_focused _ _ _ _ _ id h _ _ ht
  have hnone : t.activePaneId = none := (h.plain t (List.mem_of_getElem? hlive)).2
  have hone : (∃ l ∈ (plan.focused id saved).tabs, l.id = t.id ∧ l.focused = p) ↔
      (focusOf other t).getD t.paneTree.leftmost = p := by
    have hfocus : (focusTab other t).focused = (focusOf other t).getD t.paneTree.leftmost := by
      simp [focusTab, SessionTab.focused, hnone]
    rw [← hfocus]
    constructor
    · rintro ⟨l, hl, hid, hlp⟩
      obtain ⟨k, hk⟩ := List.mem_iff_getElem?.mp hl
      have hkr := eq_of_getElem?_id h.ids_focused hk hfocused hid
      rw [hkr, hfocused] at hk
      exact (Option.some.inj hk) ▸ hlp
    · exact fun hlp => ⟨_, List.mem_of_getElem? hfocused, rfl, hlp⟩
  rw [hone, FocusHolds]
  by_cases hall : ∀ i < j, plan.tabs[i]? ≠ some none
  · have hrank : rank plan.tabs j = j := (rank_eq_self hjlt.le).mpr hall
    rw [hrank, hj] at hother
    obtain rfl := Option.some.inj hother
    have hmem : tab ∈ saved.tabs := List.mem_of_getElem? hj
    have hsub : ∀ u ∈ savedPaneIds tab.paneTree, u ∈ saved.savedPaneIds := fun u hu =>
      List.mem_flatMap.mpr ⟨tab, hmem, hu⟩
    have hd : (savedPaneIds tab.paneTree).Nodup := (List.nodup_flatMap.mp hids.nodup).1 tab hmem
    have hf : ∀ u ∈ savedPaneIds tab.paneTree, Follows u tab.paneTree t.paneTree := fun u hu => by
      obtain ⟨tab', c, hj', hmade⟩ := h.made j t ht
      obtain rfl := Option.some.inj (hj.symm.trans hj')
      exact follows_planTab hmade fun n hn => hids.fresh n (hn ▸ hsub u hu)
    rw [focusOf_own hf hd hp]
    constructor
    · exact fun ho => ⟨fun _ => ho, fun hn => absurd hall hn⟩
    · exact fun ho => ho.1 hall
  · constructor
    · intro heq
      refine ⟨fun h' => absurd h' hall, fun _ o ho => ?_⟩
      rw [hother] at ho
      exact (Option.some.inj ho) ▸ heq
    · exact fun ho => ho.2 hall other hother

theorem PlanOf.fallback_iff (h : PlanOf w isDir size saved plan) :
    ((plan.focused id saved).tabs = [] → plan.fallback = false) ↔
      (saved.tabs = [] ∨ plan.tabs.reduceOption ≠ [] ∨ plan.fallback = false) := by
  have hnil : (plan.focused id saved).tabs = [] ↔ plan.live = [] := by
    rw [← List.length_eq_zero_iff, ← List.length_eq_zero_iff (l := plan.live),
      WorkspacePlan.focused, length_focusTabs]
  rw [hnil]
  by_cases hsaved : saved.tabs = []
  · refine iff_of_true (fun hlive => h.fallback hsaved ?_) (Or.inl hsaved)
    rw [WorkspacePlan.live, List.append_eq_nil_iff] at hlive
    simpa using hlive.2
  · rw [h.live_eq hsaved, or_iff_right hsaved, imp_iff_not_or]

/-- A workspace is kept exactly if its failures do no harm. -/
theorem PlanOf.keepsWorkspace_iff (h : PlanOf w isDir size saved plan) (hids : Usable w saved.savedPaneIds) :
    KeepsWorkspace saved plan (plan.focused id saved) ↔ Harmless saved plan := by
  constructor
  · intro hk
    exact ⟨fun t ht => (h.active_iff ht).mp (hk.active t ht),
      fun j tab t p hj ht hp => (h.focus_iff hids hj ht hp).mp (hk.focus j tab t p hj ht hp),
      h.fallback_iff.mp hk.fallback⟩
  · intro hh
    exact
      { name := rfl
        tabs := focusTabs_map (fun t => (t.id, t.paneTree)) (fun _ _ => rfl) saved.tabs plan.live
        active := fun t ht => (h.active_iff ht).mpr (hh.active t ht)
        focus := fun j tab t p hj ht hp =>
          (h.focus_iff hids hj ht hp).mpr (hh.focus j tab t p hj ht hp)
        fallback := h.fallback_iff.mpr hh.fallback }

end One

/-! ### The whole restore -/

section All

open SessionManager

variable {w : World} {isDir : PathBuf → Bool} {size : PtySize}

theorem Usable.workspace {state : WorkspaceState} (h : Usable w state.savedPaneIds)
    {ws : Workspace} (hws : ws ∈ state.workspaces) : Usable w ws.savedPaneIds where
  nodup := (List.nodup_flatMap.mp h.nodup).1 ws hws
  fresh n hn := h.fresh n (List.mem_flatMap.mpr ⟨ws, hws, hn⟩)

/-- The planned layout keeps a saved state exactly if no workspace has a failure that
does harm. -/
theorem keepsIdentities_plannedLayout (hw : Function.Injective w.newV4) {state : WorkspaceState}
    (hids : Usable w state.savedPaneIds) :
    KeepsIdentities state (restorePlan w isDir state) (plannedLayout w isDir state) ↔
      ∀ (i : ℕ) (saved : Workspace) (plan : WorkspacePlan), state.workspaces[i]? = some saved →
        (restorePlan w isDir state)[i]? = some plan → Harmless saved plan := by
  have hone (i : ℕ) (saved : Workspace) (hi : state.workspaces[i]? = some saved) :
      ∃ plan, (restorePlan w isDir state)[i]? = some plan ∧
        (plannedLayout w isDir state).workspaces[i]? = some (plan.focused (w.newV4 i) saved) ∧
          (KeepsWorkspace saved plan (plan.focused (w.newV4 i) saved) ↔ Harmless saved plan) := by
    obtain ⟨plan, hplan, hof⟩ := @planOf_planWorkspaces w isDir .default hw
      state.workspaces ⟨state.workspaces.length, 0⟩ _ _ hi
    have hlive := getElem?_focusWorkspaces (w := w) state.workspaces _ 0 hi hplan
    rw [Nat.zero_add] at hlive
    exact ⟨plan, hplan, hlive,
      hof.keepsWorkspace_iff (hids.workspace (List.mem_of_getElem? hi))⟩
  constructor
  · intro hk i saved plan hi hplan
    obtain ⟨plan', hplan', hlive', hiff⟩ := hone i saved hi
    obtain ⟨plan'', live, hplan'', hlive, hkeeps⟩ := hk.workspaces i saved hi
    obtain rfl := Option.some.inj (hplan'.symm.trans hplan)
    obtain rfl := Option.some.inj (hplan''.symm.trans hplan)
    obtain rfl := Option.some.inj (hlive.symm.trans hlive')
    exact hiff.mp hkeeps
  · intro hh
    refine ⟨fun ha => if_pos ha, fun i saved hi => ?_⟩
    obtain ⟨plan, hplan, hlive, hiff⟩ := hone i saved hi
    exact ⟨plan, _, hplan, hlive, hiff.mpr (hh i saved plan hi hplan)⟩

/-- A daemon that starts from a session file keeps its workspaces, tabs and focus
exactly if the spawns that fail do no harm in any workspace. -/
theorem keepsIdentities_iff {α : Type} {os : Os Uuid} {codec : SessionCodec α} {sessionId : Uuid}
    {d : Disk α} {state : WorkspaceState} (hw : Function.Injective w.newV4)
    (hids : Usable w state.savedPaneIds)
    (hload : (loadSessionFor os codec sessionId d).2 = .ok (some state))
    (ringKb maxMb : UInt32) (logs : PMap Uuid Bytes) :
    KeepsIdentities state (restorePlan w isDir state)
        (daemonStart w isDir os codec sessionId ringKb maxMb d logs).layout ↔
      ∀ (i : ℕ) (saved : Workspace) (plan : WorkspacePlan), state.workspaces[i]? = some saved →
        (restorePlan w isDir state)[i]? = some plan → Harmless saved plan := by
  rw [daemonStart, hload]
  by_cases hne : state.workspaces = []
  · -- nothing was saved and nothing is restored
    refine iff_of_true ⟨fun h => ?_, fun i saved hi => ?_⟩ fun i saved plan hi => ?_
    · simp [hne] at h
    · simp [hne] at hi
    · simp [hne] at hi
  · have h := restored_coldStart hw hne (fresh_new w logs ringKb maxMb)
      (nodup_plannedPanes hw isDir hids)
    dsimp only
    rw [h.layout]
    exact keepsIdentities_plannedLayout hw hids

end All

/-! One workspace whose tabs have one pane each, restored while one spawn fails. -/

/-- Surroundings where the `k`-th spawn fails and new UUIDs start at 100. -/
def World.failingSpawn (k : ℕ) : World where
  newV4 n := ⟨100 + n⟩
  ptySpawn n _ _ _ _ := if n = k then .error "fork failed" else .ok { pid := some n }
  openLog _ := .ok ()
  home := none

theorem World.failingSpawn_injective (k : ℕ) : Function.Injective (World.failingSpawn k).newV4 :=
  fun _ _ h => Nat.add_left_cancel (congrArg Uuid.bits h)

def oneWorkspace (panes : List ℕ) (activeTab : ℕ) : WorkspaceState :=
  { WorkspaceState.new with
    workspaces :=
      [{ id := ⟨50⟩
         name := "Default"
         rootPaths := []
         tabs := panes.map fun n =>
           { title := ""
             paneTree := .leaf { cwd := .ofString "/", paneId := some ⟨n⟩ }
             paneId := none
             activePaneId := none }
         activeTab := activeTab
         color := none }] }

/-- The daemon of session 7 starts from its file, with the `k`-th spawn failing. -/
def startFailing (k : ℕ) (state : WorkspaceState) : SessionManager :=
  daemonStart (World.failingSpawn k) (fun _ => true) ⟨fun _ => .works, fun _ => []⟩ .doubled ⟨7⟩
    1024 10 ⟨PMap.empty.insert (.session ⟨7⟩) (SessionCodec.doubled.encode state), 0, []⟩ .empty

/-- The second of two tabs fails, the first one is active. -/
theorem keepsIdentities_lastTabFailed :
    KeepsIdentities (oneWorkspace [1, 2] 0)
      (restorePlan (World.failingSpawn 1) (fun _ => true) (oneWorkspace [1, 2] 0))
      (startFailing 1 (oneWorkspace [1, 2] 0)).layout := by
  refine (keepsIdentities_iff (World.failingSpawn_injective 1) ⟨by decide, fun n h => ?_⟩ rfl
    1024 10 .empty).mpr ?_
  · have hbits : 100 + n = 1 ∨ 100 + n = 2 := by
      simpa [oneWorkspace, WorkspaceState.savedPaneIds, Workspace.savedPaneIds, savedPaneIds,
        World.failingSpawn] using h
    omega
  · intro i saved plan hi hplan
    cases i with
    | succ i => cases hi
    | zero =>
      obtain rfl := Option.some.inj hi
      obtain rfl := Option.some.inj hplan
      refine ⟨fun t _ => Or.inl fun i hi => absurd hi (Nat.not_lt_zero i),
        fun j tab t p hj ht hp => ?_, Or.inr (Or.inl (by decide))⟩
      rcases j with _ | _ | j
      · obtain rfl := Option.some.inj hj
        exact ⟨fun _ => Or.inl hp, fun hn => absurd (fun i hi => absurd hi (Nat.not_lt_zero i)) hn⟩
      · cases Option.some.inj ht
      · cases hj

/-- The first of three tabs fails, the second one is active. -/
theorem not_keepsIdentities_firstTabFailed :
    ¬KeepsIdentities (oneWorkspace [1, 2, 3] 1)
      (restorePlan (World.failingSpawn 0) (fun _ => true) (oneWorkspace [1, 2, 3] 1))
      (startFailing 0 (oneWorkspace [1, 2, 3] 1)).layout := by
  intro h
  obtain ⟨plan, live, hplan, hlive, hk⟩ := h.workspaces 0 _ rfl
  obtain rfl := Option.some.inj hplan
  obtain rfl := Option.some.inj hlive
  have hactive := hk.active _ rfl
  revert hactive
  decide

end Forgetty
