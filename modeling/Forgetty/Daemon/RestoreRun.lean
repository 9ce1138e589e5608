import Forgetty.Daemon.RestorePlan
import Forgetty.Session.Coherence

/-! The restore follows the plan: when the pane ids used are pairwise distinct, the
restored layout is the planned one. -/

namespace Forgetty

open Lib

/-! ### The restore follows the plan -/

section Follow

open SessionManager

variable {w : World} {isDir : PathBuf → Bool} {size : PtySize}

/-- A change of a workspace that its panes do not see. -/
theorem leaves_modifyWorkspace {s : SessionManager} (i : ℕ) {f : SessionWorkspace → SessionWorkspace}
    (hf : ∀ ws, (f ws).leaves = ws.leaves) : (s.modifyWorkspace i f).layout.leaves = s.layout.leaves :=
  flatMap_modify_of_eq hf _ _

theorem grew_setPaneCwd (p : PaneId) (cwd : PathBuf) {s : SessionManager} (hp : p ∈ s.panes) :
    Grew s.layout.workspaces s.counters [p] s (s.setPaneCwd p cwd) := by
  obtain ⟨pane, hget⟩ := PMap.exists_get hp
  simp only [setPaneCwd, hget]
  refine ⟨rfl, rfl, rfl, rfl, fun q => ?_, fun q hq => ?_, [], ?_, nofun, fun q hq => ?_, rfl⟩
  · rw [setPane_panes, PMap.mem_insert, List.mem_singleton]
  · rw [List.mem_singleton] at hq
    rw [cwdOf, setPane_panes, PMap.get_insert_of_ne hq, cwdOf]
  · rw [setPane_paneOrder, List.append_nil]
  · exact Or.inl ((mem_setPane hget q).mp hq)

theorem restoreSubtree_node (label : SplitLabel) (first second : PaneTreeState) (anchorId : PaneId)
    (s : SessionManager) :
    restoreSubtree w isDir size (.node label first second) anchorId s =
      match (s.takePaneId w (firstLeafPaneId second)).1.splitPaneWithRatioAndPaneId w anchorId
        label.direction label.ratio size (effectiveCwd isDir (firstLeafCwd second))
        (s.takePaneId w (firstLeafPaneId second)).2 with
      | (sm, .ok secondPaneId) => restoreSubtree w isDir size second secondPaneId
          (restoreSubtree w isDir size first anchorId sm)
      | (sm, .error _) => sm := by
  rw [restoreSubtree]
  cases firstLeafPaneId second <;> rfl

/-- A state in which a saved tree can be rebuilt in the place of a pane: the panes
planned for it are distinct and, the anchor aside, new to the layout. -/
structure Ready (w : World) (isDir : PathBuf → Bool) (size : PtySize) (t : PaneTreeState)
    (anchorId : PaneId) (s : SessionManager) : Prop where
  live : anchorId ∈ s.panes
  nodup : s.layout.leaves.Nodup
  leaf : anchorId ∈ s.layout.leaves
  distinct : (planTree w isDir size t anchorId s.counters).2.leaves.Nodup
  fresh : ∀ x ∈ (planTree w isDir size t anchorId s.counters).2.leaves, x ≠ anchorId →
    x ∉ s.layout.leaves

/-- The tree was rebuilt as planned. -/
def Rebuilt (w : World) (isDir : PathBuf → Bool) (size : PtySize) (t : PaneTreeState)
    (anchorId : PaneId) (s s' : SessionManager) : Prop :=
  Grew (substLeaf anchorId (planTree w isDir size t anchorId s.counters).2 s.layout.workspaces)
    (planTree w isDir size t anchorId s.counters).1
    (planTree w isDir size t anchorId s.counters).2.leaves s s'

theorem leaves_of_substLeaf {s t : SessionManager} {p : PaneId} {u : PaneTreeLayout}
    (ht : t.layout.workspaces = substLeaf p u s.layout.workspaces) :
    t.layout.leaves = LeafTree.fill p u.leaves s.layout.leaves := by
  rw [SessionLayout.leaves, ht, leaves_substLeaf]
  rfl

/-- The planned tree can be put in the place of the anchor. -/
theorem Ready.fits {t : PaneTreeState} {anchorId : PaneId} {s : SessionManager}
    (h : Ready w isDir size t anchorId s) :
    (planTree w isDir size t anchorId s.counters).2.Fits s.layout.leaves where
  nodup := h.nodup
  anchor := by rw [leftmost_planTree]; exact h.leaf
  distinct := h.distinct
  fresh := by rw [leftmost_planTree]; exact h.fresh

theorem Ready.of_fits {t : PaneTreeState} {anchorId : PaneId} {s : SessionManager}
    (hlive : anchorId ∈ s.panes)
    (h : (planTree w isDir size t anchorId s.counters).2.Fits s.layout.leaves) :
    Ready w isDir size t anchorId s where
  live := hlive
  nodup := h.nodup
  leaf := by rw [← leftmost_planTree t anchorId s.counters]; exact h.anchor
  distinct := h.distinct
  fresh x hx hne := h.fresh x hx (by rwa [leftmost_planTree])

/-- The plan of a split that works: the plan of the first subtree, then that of the
second in the place of the new pane. -/
theorem planTree_node {label : SplitLabel} {first second : PaneTreeState} {anchorId : PaneId}
    {c : Counters}
    (h : shellSpawns w size (planPaneId w (firstLeafPaneId second) c).1.spawned
      (effectiveCwd isDir (firstLeafCwd second)) = true) :
    planTree w isDir size (.node label first second) anchorId c =
      let l := planTree w isDir size first anchorId (planPaneId w (firstLeafPaneId second) c).1.spawn
      let r := planTree w isDir size second (planPaneId w (firstLeafPaneId second) c).2 l.1
      (r.1, .node label l.2 r.2) := by
  rw [planTree]
  exact if_pos h

section Split

variable {label : SplitLabel} {first second : PaneTreeState} {anchorId : PaneId}
  {s : SessionManager}

/-- After the split the first subtree can be rebuilt in the place of the old pane, and
after that the second one in the place of the new pane. -/
theorem Ready.split (h : Ready w isDir size (.node label first second) anchorId s)
    (hspawn : shellSpawns w size (planPaneId w (firstLeafPaneId second) s.counters).1.spawned
      (effectiveCwd isDir (firstLeafCwd second)) = true) :
    ∃ t, (s.takePaneId w (firstLeafPaneId second)).1.splitPaneWithRatioAndPaneId w anchorId
          label.direction label.ratio size (effectiveCwd isDir (firstLeafCwd second))
          (planPaneId w (firstLeafPaneId second) s.counters).2 =
        (t, .ok (planPaneId w (firstLeafPaneId second) s.counters).2) ∧
      Grew (substLeaf anchorId (.node label (.leaf anchorId)
          (.leaf (planPaneId w (firstLeafPaneId second) s.counters).2)) s.layout.workspaces)
        (planPaneId w (firstLeafPaneId second) s.counters).1.spawn
        [(planPaneId w (firstLeafPaneId second) s.counters).2] s t ∧
      Ready w isDir size first anchorId t ∧
      ∀ t', Rebuilt w isDir size first anchorId t t' → Ready w isDir size second
        (planPaneId w (firstLeafPaneId second) s.counters).2 t' := by
  have hfits := h.fits
  have h₀ := grew_takePaneId w (firstLeafPaneId second) s
  rw [planTree_node hspawn] at hfits
  dsimp only at hfits
  generalize (s.takePaneId w (firstLeafPaneId second)).1 = s₀ at h₀ ⊢
  generalize planPaneId w (firstLeafPaneId second) s.counters = taken at h₀ hfits hspawn ⊢
  obtain ⟨c₀, new⟩ := taken
  dsimp only at h₀ hfits hspawn ⊢
  have hl₀ : s₀.layout.leaves = s.layout.leaves :=
    congrArg (List.flatMap SessionWorkspace.leaves) h₀.workspaces
  have hc₀ : s₀.spawned = c₀.spawned := congrArg Counters.spawned h₀.counters
  obtain ⟨t₁, heq, h₁⟩ := split_ok (q := new) label.direction label.ratio
    ((h₀.panes _).mpr (Or.inr h.live)) (hl₀ ▸ h.nodup) (hl₀ ▸ h.leaf) (hc₀ ▸ hspawn)
  rw [h₀.counters, h₀.workspaces] at h₁
  have hanchor := @leftmost_planTree w isDir size first anchorId c₀.spawn
  obtain ⟨l, hl⟩ : ∃ l, planTree w isDir size first anchorId c₀.spawn = l := ⟨_, rfl⟩
  have hanchor' := @leftmost_planTree w isDir size second new l.1
  rw [hl] at hfits hanchor
  generalize hr : planTree w isDir size second new l.1 = r at hfits hanchor'
  refine ⟨t₁, heq, h₀.trans h₁, .of_fits ?_ ?_, fun t₂ h₂ => .of_fits ?_ ?_⟩
  · exact (h₁.panes _).mpr (Or.inr ((h₀.panes _).mpr (Or.inr h.live)))
  · rw [h₁.counters, hl, leaves_of_substLeaf h₁.workspaces]
    have hfirst := hfits.first
    rwa [hanchor, hanchor'] at hfirst
  · exact (h₂.panes _).mpr (Or.inr ((h₁.panes _).mpr (Or.inl (by simp))))
  · have hplaced := hfits.subst_first
    have hsecond := hfits.second
    rw [hanchor, hanchor'] at hplaced hsecond
    rw [Rebuilt, h₁.counters, hl, h₁.workspaces, substLeaf_substLeaf (Or.inl rfl), hplaced] at h₂
    rw [h₂.counters, hr, leaves_of_substLeaf h₂.workspaces]
    exact hsecond

/-- A split and the rebuilding of both subtrees rebuild the tree. -/
theorem rebuilt_node (h : Ready w isDir size (.node label first second) anchorId s)
    (hspawn : shellSpawns w size (planPaneId w (firstLeafPaneId second) s.counters).1.spawned
      (effectiveCwd isDir (firstLeafCwd second)) = true) {t t' t'' : SessionManager}
    (h₁ : Grew (substLeaf anchorId (.node label (.leaf anchorId)
        (.leaf (planPaneId w (firstLeafPaneId second) s.counters).2)) s.layout.workspaces)
      (planPaneId w (firstLeafPaneId second) s.counters).1.spawn
      [(planPaneId w (firstLeafPaneId second) s.counters).2] s t)
    (h₂ : Rebuilt w isDir size first anchorId t t')
    (h₃ : Rebuilt w isDir size second (planPaneId w (firstLeafPaneId second) s.counters).2 t' t'') :
    Rebuilt w isDir size (.node label first second) anchorId s t'' := by
  have hfits := h.fits
  rw [Rebuilt]
  rw [planTree_node hspawn] at hfits ⊢
  dsimp only at hfits ⊢
  generalize planPaneId w (firstLeafPaneId second) s.counters = taken at h₁ h₃ hfits hspawn ⊢
  obtain ⟨c₀, new⟩ := taken
  dsimp only at h₁ h₃ hfits ⊢
  rw [Rebuilt, h₁.counters, h₁.workspaces, substLeaf_substLeaf (Or.inl rfl)] at h₂
  rw [Rebuilt, h₂.counters, h₂.workspaces] at h₃
  have hanchor := @leftmost_planTree w isDir size first anchorId c₀.spawn
  generalize planTree w isDir size first anchorId c₀.spawn = l at h₂ h₃ hfits hanchor ⊢
  have hanchor' := @leftmost_planTree w isDir size second new l.1
  have hnr := @anchor_mem_planTree w isDir size second new l.1
  generalize planTree w isDir size second new l.1 = r at h₃ hfits hanchor' hnr ⊢
  have hplaced := hfits.subst_first
  have hplaced' := hfits.subst_second
  have hnew := hfits.not_mem
  rw [hanchor, hanchor'] at hplaced
  rw [hanchor'] at hplaced' hnew
  rw [hplaced] at h₂ h₃
  rw [substLeaf_substLeaf (Or.inr hnew), hplaced'] at h₃
  refine ((h₁.trans h₂).trans h₃).mono (fun q hq => ?_) fun q hq => ?_
  · simp only [List.mem_append, List.mem_singleton] at hq
    rw [LeafTree.leaves_node, List.mem_append]
    rcases hq with (rfl | hq) | hq
    · exact Or.inr hnr
    · exact Or.inl hq
    · exact Or.inr hq
  · rw [h₃.panes, h₂.panes]
    rcases List.mem_append.mp hq with hq | hq
    · exact Or.inr (Or.inl hq)
    · exact Or.inl hq

/-- The shell of the second subtree does not come up: only counters change. -/
theorem rebuilt_of_failed (h : Ready w isDir size (.node label first second) anchorId s)
    (hspawn : ¬shellSpawns w size (planPaneId w (firstLeafPaneId second) s.counters).1.spawned
      (effectiveCwd isDir (firstLeafCwd second)) = true) :
    Rebuilt w isDir size (.node label first second) anchorId s
      (restoreSubtree w isDir size (.node label first second) anchorId s) := by
  rw [restoreSubtree_node, takePaneId_snd]
  have h₀ := grew_takePaneId w (firstLeafPaneId second) s
  rw [Rebuilt, planTree]
  dsimp only
  rw [if_neg hspawn]
  generalize (s.takePaneId w (firstLeafPaneId second)).1 = s₀ at h₀ ⊢
  generalize planPaneId w (firstLeafPaneId second) s.counters = taken at h₀ hspawn ⊢
  have hp₀ : anchorId ∈ s₀.panes := (h₀.panes _).mpr (Or.inr h.live)
  have hc₀ : s₀.spawned = taken.1.spawned := congrArg Counters.spawned h₀.counters
  obtain ⟨e, heq⟩ := split_failed (q := taken.2) label.direction label.ratio hp₀ (hc₀ ▸ hspawn)
  rw [heq, substLeaf_self]
  have h₁ := h₀.trans (grew_countSpawn s₀)
  rw [h₀.counters, h₀.workspaces] at h₁
  exact h₁.mono (by simp) (by simpa using hp₀)

end Split

/-- A saved tree is rebuilt in the place of its anchor as planned. -/
theorem grew_restoreSubtree (t : PaneTreeState) {anchorId : PaneId} {s : SessionManager}
    (h : Ready w isDir size t anchorId s) :
    Rebuilt w isDir size t anchorId s (restoreSubtree w isDir size t anchorId s) := by
  induction t generalizing anchorId s with
  | leaf l =>
    rw [Rebuilt, planTree, restoreSubtree, substLeaf_self]
    split_ifs
    · exact grew_setPaneCwd anchorId l.cwd h.live
    · exact (Grew.refl s).mono (by simp) (by simpa using h.live)
  | node label first second ih₁ ih₂ =>
    by_cases hspawn : shellSpawns w size (planPaneId w (firstLeafPaneId second) s.counters).1.spawned
      (effectiveCwd isDir (firstLeafCwd second)) = true
    · obtain ⟨t, heq, h₁, hfirst, hsecond⟩ := h.split hspawn
      rw [restoreSubtree_node, takePaneId_snd, heq]
      have h₂ := ih₁ hfirst
      exact rebuilt_node h hspawn h₁ h₂ (ih₂ (hsecond _ h₂))
    · exact rebuilt_of_failed h hspawn

/-! ### Working directories -/

/-- The panes of a rebuilt tree are in the saved directories that are still there. -/
def HasCwds (isDir : PathBuf → Bool) (s : SessionManager) : PaneTreeState → PaneTreeLayout → Prop
  | .leaf l, .leaf p => isDir l.cwd = true → s.cwdOf p = some l.cwd
  | .node _ a b, .node _ c d => HasCwds isDir s a c ∧ HasCwds isDir s b d
  | _, _ => True

theorem HasCwds.of_same {s s' : SessionManager} {t : PaneTreeState} {l : PaneTreeLayout}
    (h : HasCwds isDir s t l) (hsame : ∀ p ∈ l.leaves, s'.cwdOf p = s.cwdOf p) :
    HasCwds isDir s' t l := by
  induction t generalizing l with
  | leaf saved =>
    cases l with
    | leaf p => exact fun hdir => (hsame p (List.mem_singleton_self p)).trans (h hdir)
    | node label c d => trivial
  | node label a b iha ihb =>
    cases l with
    | leaf p => trivial
    | node label' c d =>
      exact ⟨iha h.1 fun p hp => hsame p (List.mem_append_left _ hp),
        ihb h.2 fun p hp => hsame p (List.mem_append_right _ hp)⟩

theorem cwdOf_setPaneCwd {s : SessionManager} {p : PaneId} (cwd : PathBuf) (hp : p ∈ s.panes) :
    (s.setPaneCwd p cwd).cwdOf p = some cwd := by
  obtain ⟨pane, hget⟩ := PMap.exists_get hp
  simp [setPaneCwd, hget, cwdOf]

theorem hasCwds_restoreSubtree (t : PaneTreeState) {anchorId : PaneId} {s : SessionManager}
    (h : Ready w isDir size t anchorId s) :
    HasCwds isDir (restoreSubtree w isDir size t anchorId s) t
      (planTree w isDir size t anchorId s.counters).2 := by
  induction t generalizing anchorId s with
  | leaf l =>
    rw [restoreSubtree, planTree]
    intro hdir
    rw [if_pos hdir]
    exact cwdOf_setPaneCwd l.cwd h.live
  | node label first second ih₁ ih₂ =>
    rw [restoreSubtree_node, takePaneId_snd]
    by_cases hspawn : shellSpawns w size (planPaneId w (firstLeafPaneId second) s.counters).1.spawned
      (effectiveCwd isDir (firstLeafCwd second)) = true
    · obtain ⟨t, heq, h₁, hfirst, hsecond⟩ := h.split hspawn
      have hu := h.distinct
      rw [heq]
      rw [planTree_node hspawn] at hu ⊢
      dsimp only at hu ⊢
      rw [← h₁.counters] at hu ⊢
      have h₂ := grew_restoreSubtree first hfirst
      have hready := hsecond _ h₂
      have h₃ := grew_restoreSubtree second hready
      have hc₁ := ih₁ hfirst
      have hc₂ := ih₂ hready
      rw [← h₂.counters] at hu ⊢
      refine ⟨hc₁.of_same fun p hp => h₃.cwd p fun hp' => ?_, hc₂⟩
      exact (List.nodup_append.mp hu).2.2 p hp p hp' rfl
    · rw [planTree]
      dsimp only
      rw [if_neg hspawn]
      trivial

/-- The same for tabs, as far as they came up. -/
def TabCwds (isDir : PathBuf → Bool) (s : SessionManager) (tabs : List TabState)
    (plan : List (Option SessionTab)) : Prop :=
  ∀ (j : ℕ) (tab : TabState) (t : SessionTab), tabs[j]? = some tab → plan[j]? = some (some t) →
    HasCwds isDir s tab.paneTree t.paneTree

theorem TabCwds.grew {s s' : SessionManager} {tabs : List TabState} {plan : List (Option SessionTab)}
    {wss : List SessionWorkspace} {c : Counters} {ps : List PaneId} (h : TabCwds isDir s tabs plan)
    (hg : Grew wss c ps s s') (hps : ∀ p ∈ plannedLeaves plan, p ∉ ps) :
    TabCwds isDir s' tabs plan := by
  intro j tab t hj ht
  refine (h j tab t hj ht).of_same fun p hp => hg.cwd p (hps p ?_)
  exact List.mem_flatMap.mpr ⟨t, List.reduceOption_mem_iff.mpr (List.mem_of_getElem? ht), hp⟩

theorem TabCwds.cons {s : SessionManager} {tab : TabState} {tabs : List TabState}
    {first : Option SessionTab} {plan : List (Option SessionTab)}
    (h : TabCwds isDir s [tab] [first]) (h' : TabCwds isDir s tabs plan) :
    TabCwds isDir s (tab :: tabs) (first :: plan) := by
  intro j tab' t hj ht
  cases j with
  | zero => exact h 0 tab' t hj ht
  | succ j => exact h' j tab' t hj ht

/-! ### Tabs and workspaces -/

/-- The workspace with more tabs. -/
def SessionWorkspace.addTabs (tabs : List SessionTab) (ws : SessionWorkspace) : SessionWorkspace :=
  { ws with tabs := ws.tabs ++ tabs }

theorem modify_addTabs_nil (wss : List SessionWorkspace) (i : ℕ) :
    wss.modify i (SessionWorkspace.addTabs []) = wss := by
  have h : SessionWorkspace.addTabs [] = id := by
    funext ws
    simp [SessionWorkspace.addTabs]
  rw [h, List.modify_id]

theorem modify_addTabs (wss : List SessionWorkspace) (i : ℕ) (ts us : List SessionTab) :
    (wss.modify i (SessionWorkspace.addTabs ts)).modify i (SessionWorkspace.addTabs us) =
      wss.modify i (SessionWorkspace.addTabs (ts ++ us)) := by
  rw [List.modify_modify_eq]
  congr 1
  funext ws
  simp [SessionWorkspace.addTabs]

theorem mem_leaves_addTabs {wss : List SessionWorkspace} {i : ℕ} (hi : i < wss.length)
    {ts : List SessionTab} {x : PaneId} :
    x ∈ (wss.modify i (SessionWorkspace.addTabs ts)).flatMap SessionWorkspace.leaves ↔
      x ∈ wss.flatMap SessionWorkspace.leaves ∨ x ∈ ts.flatMap fun t => t.paneTree.leaves := by
  have hperm := @leaves_modify _ _ _ (SessionWorkspace.addTabs ts)
    (ts.flatMap fun t => t.paneTree.leaves) (List.getElem?_eq_getElem hi)
    (by simp [SessionWorkspace.addTabs, SessionWorkspace.leaves])
  rw [hperm.mem_iff, List.mem_append]

theorem nodup_leaves_addTabs {wss : List SessionWorkspace} {i : ℕ} (hi : i < wss.length)
    {ts : List SessionTab} (hd : (wss.flatMap SessionWorkspace.leaves).Nodup)
    (ht : (ts.flatMap fun t => t.paneTree.leaves).Nodup)
    (hnew : ∀ x ∈ ts.flatMap fun t => t.paneTree.leaves, x ∉ wss.flatMap SessionWorkspace.leaves) :
    ((wss.modify i (SessionWorkspace.addTabs ts)).flatMap SessionWorkspace.leaves).Nodup := by
  have hperm := @leaves_modify _ _ _ (SessionWorkspace.addTabs ts)
    (ts.flatMap fun t => t.paneTree.leaves) (List.getElem?_eq_getElem hi)
    (by simp [SessionWorkspace.addTabs, SessionWorkspace.leaves])
  rw [hperm.nodup_iff, List.nodup_append]
  exact ⟨hd, ht, fun x hx y hy hxy => hnew y hy (hxy ▸ hx)⟩

/-- A tab that was just added as a leaf, with a tree put there. -/
theorem substLeaf_addTab {wss : List SessionWorkspace} {i : ℕ} {p : PaneId} {u : PaneTreeLayout}
    {tabId : Uuid} (hi : i < wss.length) (hp : p ∉ wss.flatMap SessionWorkspace.leaves) :
    substLeaf p u (wss.modify i (SessionWorkspace.addTabs [.ofLeaf tabId p])) =
      wss.modify i (SessionWorkspace.addTabs
        [{ id := tabId, title := "", paneTree := u, activePaneId := none }]) := by
  obtain ⟨pre, post, hs, -, hm, -⟩ := exists_split (List.getElem?_eq_getElem hi)
  generalize wss[i] = ws at hs hm
  subst hs
  rw [hm, hm]
  simp only [List.flatMap_append, List.flatMap_cons, List.mem_append, not_or] at hp
  have hpre : pre.map (·.subst p u) = pre := substLeaf_of_not_mem hp.1
  have hpost : post.map (·.subst p u) = post := substLeaf_of_not_mem hp.2.2
  have hws : (ws.subst p u).tabs = ws.tabs :=
    congrArg SessionWorkspace.tabs (SessionWorkspace.subst_of_not_mem hp.2.1)
  rw [substLeaf, List.map_append, List.map_cons, hpre, hpost]
  congr 2
  simp only [SessionWorkspace.subst] at hws
  simp only [SessionWorkspace.subst, SessionWorkspace.addTabs, List.map_append, hws, List.map_cons,
    List.map_nil]
  simp [SessionTab.subst, SessionTab.ofLeaf]

theorem restoreTab_eq (i : ℕ) (s : SessionManager) (tab : TabState) :
    restoreTab w isDir size i s tab =
      match (s.takePaneId w (firstLeafPaneId tab.paneTree)).1.createTabWithPaneId w i
        (effectiveCwd isDir (firstLeafCwd tab.paneTree)) size none
        (s.takePaneId w (firstLeafPaneId tab.paneTree)).2 with
      | (sm, .ok (rootPaneId, _)) => restoreSubtree w isDir size tab.paneTree rootPaneId sm
      | (sm, .error _) => sm := by
  rw [restoreTab]
  cases firstLeafPaneId tab.paneTree <;> rfl

/-- The root pane of a tab comes up as planned, or the tab is left out. -/
theorem createRoot {i : ℕ} (saved : Option Uuid) (cwd : Option PathBuf) {s : SessionManager}
    (hi : i < s.layout.workspaces.length) :
    (∃ t e, (s.takePaneId w saved).1.createTabWithPaneId w i cwd size none
          (s.takePaneId w saved).2 = (t, .error e) ∧
        (planRoot w size saved cwd s.counters).2 = none ∧
        Grew s.layout.workspaces (planRoot w size saved cwd s.counters).1 [] s t) ∨
      ∃ t q tabId, (s.takePaneId w saved).1.createTabWithPaneId w i cwd size none
          (s.takePaneId w saved).2 = (t, .ok (q, tabId)) ∧
        (planRoot w size saved cwd s.counters).2 = some (q, tabId) ∧
        Grew (s.layout.workspaces.modify i (SessionWorkspace.addTabs [.ofLeaf tabId q]))
          (planRoot w size saved cwd s.counters).1 [q] s t := by
  have h₀ := grew_takePaneId w saved s
  rw [takePaneId_snd, planRoot]
  generalize (s.takePaneId w saved).1 = s₀ at h₀ ⊢
  generalize planPaneId w saved s.counters = taken at h₀ ⊢
  have hi₀ : i < s₀.layout.workspaces.length := by rw [h₀.workspaces]; exact hi
  have hc₀ : s₀.spawned = taken.1.spawned := congrArg Counters.spawned h₀.counters
  have hm₀ : s₀.minted = taken.1.minted := congrArg Counters.minted h₀.counters
  by_cases hspawn : shellSpawns w size taken.1.spawned cwd = true
  · right
    rw [if_pos hspawn]
    obtain ⟨t, heq, h₁⟩ := createTab_ok (q := taken.2) hi₀ (hc₀ ▸ hspawn)
    rw [h₀.counters, h₀.workspaces, hm₀] at h₁
    exact ⟨t, taken.2, _, by rw [heq, hm₀], rfl, h₀.trans h₁⟩
  · left
    rw [if_neg hspawn]
    obtain ⟨e, heq⟩ := createTab_failed (q := taken.2) hi₀ (hc₀ ▸ hspawn)
    have h₁ := h₀.trans (grew_countSpawn s₀)
    rw [h₀.counters, h₀.workspaces] at h₁
    exact ⟨_, e, heq, rfl, h₁⟩

/-- A saved tab is restored as planned. -/
theorem grew_restoreTab (i : ℕ) (tab : TabState) {s : SessionManager}
    (hi : i < s.layout.workspaces.length) (hd : s.layout.leaves.Nodup)
    (hu : (plannedLeaves [(planTab w isDir size tab s.counters).2]).Nodup)
    (hnew : ∀ x ∈ plannedLeaves [(planTab w isDir size tab s.counters).2], x ∉ s.layout.leaves) :
    Grew (s.layout.workspaces.modify i (SessionWorkspace.addTabs
        [(planTab w isDir size tab s.counters).2].reduceOption))
      (planTab w isDir size tab s.counters).1
      (plannedLeaves [(planTab w isDir size tab s.counters).2]) s
      (restoreTab w isDir size i s tab) ∧
    TabCwds isDir (restoreTab w isDir size i s tab) [tab]
      [(planTab w isDir size tab s.counters).2] := by
  rw [restoreTab_eq]
  rw [planTab] at hu hnew ⊢
  dsimp only at hu hnew ⊢
  rcases createRoot (firstLeafPaneId tab.paneTree) (effectiveCwd isDir (firstLeafCwd tab.paneTree))
    hi with ⟨t, e, heq, hplan, h₁⟩ | ⟨t, q, tabId, heq, hplan, h₁⟩
  · rw [heq, hplan]
    refine ⟨by simpa [plannedLeaves, modify_addTabs_nil] using h₁, fun j tab' t' _ ht => ?_⟩
    cases j with
    | zero => cases Option.some.inj ht
    | succ j => cases ht
  · rw [heq]
    rw [hplan] at hu hnew ⊢
    dsimp only at hu hnew ⊢
    simp only [plannedLeaves, List.reduceOption_cons_of_some, List.reduceOption_nil,
      List.flatMap_cons, List.flatMap_nil, List.append_nil] at hu hnew ⊢
    rw [← h₁.counters] at hu hnew ⊢
    have hq := @anchor_mem_planTree w isDir size tab.paneTree q t.counters
    have hmem : ∀ x, x ∈ t.layout.leaves ↔ x ∈ s.layout.leaves ∨ x = q := by
      intro x
      rw [SessionLayout.leaves, h₁.workspaces, mem_leaves_addTabs hi]
      simp [SessionLayout.leaves, SessionTab.ofLeaf]
    have hdt : t.layout.leaves.Nodup := by
      rw [SessionLayout.leaves, h₁.workspaces]
      refine nodup_leaves_addTabs hi hd (by simp [SessionTab.ofLeaf]) fun x hx => ?_
      have hxq : x = q := by simpa [SessionTab.ofLeaf] using hx
      exact hxq ▸ hnew q hq
    have hready : Ready w isDir size tab.paneTree q t :=
      { live := (h₁.panes q).mpr (Or.inl (by simp))
        nodup := hdt
        leaf := (hmem q).mpr (Or.inr rfl)
        distinct := hu
        fresh := fun x hx hxq hx' => ((hmem x).mp hx').elim (hnew x hx) hxq }
    have h₂ := grew_restoreSubtree tab.paneTree hready
    rw [Rebuilt, h₁.workspaces, substLeaf_addTab hi (hnew q hq)] at h₂
    refine ⟨(h₁.trans h₂).mono (fun x hx => ?_) fun x hx => (h₂.panes x).mpr (Or.inl hx),
      fun j tab' t' hj ht => ?_⟩
    · rcases List.mem_append.mp hx with hx | hx
      · exact (List.mem_singleton.mp hx) ▸ hq
      · exact hx
    · cases j with
      | zero =>
        obtain rfl := Option.some.inj hj
        obtain rfl := Option.some.inj (Option.some.inj ht)
        exact hasCwds_restoreSubtree tab.paneTree hready
      | succ j => cases hj

/-- The saved tabs of a workspace are restored as planned, one after the other. -/
theorem grew_restoreTabs (i : ℕ) (tabs : List TabState) {s : SessionManager}
    (hi : i < s.layout.workspaces.length) (hd : s.layout.leaves.Nodup)
    (hu : (plannedLeaves (planTabs w isDir size tabs s.counters).2).Nodup)
    (hnew : ∀ x ∈ plannedLeaves (planTabs w isDir size tabs s.counters).2, x ∉ s.layout.leaves) :
    Grew (s.layout.workspaces.modify i (SessionWorkspace.addTabs
        (planTabs w isDir size tabs s.counters).2.reduceOption))
      (planTabs w isDir size tabs s.counters).1
      (plannedLeaves (planTabs w isDir size tabs s.counters).2) s
      (tabs.foldl (restoreTab w isDir size i) s) ∧
    TabCwds isDir (tabs.foldl (restoreTab w isDir size i) s) tabs
      (planTabs w isDir size tabs s.counters).2 := by
  induction tabs generalizing s with
  | nil =>
    refine ⟨?_, fun j tab t hj => absurd hj (by simp)⟩
    simpa [planTabs, plannedLeaves, modify_addTabs_nil] using Grew.refl s
  | cons tab tabs ih =>
    rw [planTabs] at hu hnew ⊢
    dsimp only at hu hnew ⊢
    rw [plannedLeaves_cons] at hu hnew ⊢
    obtain ⟨hu₁, hu₂, hdis⟩ := List.nodup_append.mp hu
    obtain ⟨h₁, hc₁⟩ := grew_restoreTab i tab hi hd hu₁ fun x hx =>
      hnew x (List.mem_append_left _ hx)
    rw [← h₁.counters] at hu₂ hnew hdis ⊢
    rw [List.foldl_cons]
    generalize restoreTab w isDir size i s tab = t at *
    have hmem : ∀ x, x ∈ t.layout.leaves ↔ x ∈ s.layout.leaves ∨
        x ∈ plannedLeaves [(planTab w isDir size tab s.counters).2] := by
      intro x
      rw [SessionLayout.leaves, h₁.workspaces, mem_leaves_addTabs hi]
      rfl
    have hdt : t.layout.leaves.Nodup := by
      rw [SessionLayout.leaves, h₁.workspaces]
      exact nodup_leaves_addTabs hi hd hu₁ fun x hx => hnew x (List.mem_append_left _ hx)
    have hit : i < t.layout.workspaces.length := by rwa [h₁.workspaces, List.length_modify]
    obtain ⟨h₂, hc₂⟩ := ih hit hdt hu₂ fun x hx hx' => by
      rcases (hmem x).mp hx' with hs | hp
      · exact hnew x (List.mem_append_right _ hx) hs
      · exact hdis x hp x hx rfl
    have hc := (hc₁.grew h₂ fun p hp hp' => hdis p hp p hp' rfl).cons hc₂
    rw [h₁.workspaces, modify_addTabs, ← reduceOption_cons] at h₂
    exact ⟨h₁.trans h₂, hc⟩

/-- A workspace as it is restored from the saved one. -/
def WorkspacePlan.restored (plan : WorkspacePlan) (id : Uuid) (saved : Workspace) :
    SessionWorkspace where
  id := id
  name := saved.name
  tabs := plan.live
  activeTab := if saved.activeTab < plan.live.length then saved.activeTab else 0
  color := saved.color

/-- The slot it is restored in. -/
def slotOf (id : Uuid) (saved : Workspace) : SessionWorkspace where
  id := id
  name := saved.name
  tabs := []
  activeTab := 0
  color := saved.color

theorem grew_setActiveTab (pre post : List SessionWorkspace) (ws : SessionWorkspace) (a : ℕ)
    {s : SessionManager} (hs : s.layout.workspaces = pre ++ ws :: post) :
    Grew (pre ++ { ws with activeTab := if a < ws.tabs.length then a else ws.activeTab } :: post)
      s.counters [] s (s.setActiveTab pre.length a).1 := by
  have hget : s.layout.workspaces[pre.length]? = some ws := by simp [hs]
  simp only [setActiveTab, hget]
  by_cases ha : a < ws.tabs.length
  · rw [if_neg (not_le.mpr ha)]
    refine .of_same ?_ rfl rfl rfl rfl rfl (congrArg List.length (leaves_modifyWorkspace _ fun _ => rfl))
    simp only [send_layout, modifyWorkspace_workspaces, hs, modify_append_cons, if_pos ha]
  · rw [if_pos (not_lt.mp ha)]
    simp only [if_neg ha]
    exact hs ▸ Grew.refl s

/-- A saved workspace is restored in its slot as planned. -/
theorem grew_restoreWorkspace (pre post : List SessionWorkspace) (id : Uuid) (saved : Workspace)
    {s : SessionManager} (hs : s.layout.workspaces = pre ++ slotOf id saved :: post)
    (hd : s.layout.leaves.Nodup)
    (hu : (planWorkspace w isDir size saved s.counters).2.leaves.Nodup)
    (hnew : ∀ x ∈ (planWorkspace w isDir size saved s.counters).2.leaves, x ∉ s.layout.leaves) :
    Grew (pre ++ (planWorkspace w isDir size saved s.counters).2.restored id saved :: post)
      (planWorkspace w isDir size saved s.counters).1
      (planWorkspace w isDir size saved s.counters).2.leaves s
      (restoreWorkspace w isDir size pre.length saved s) ∧
    TabCwds isDir (restoreWorkspace w isDir size pre.length saved s) saved.tabs
      (planWorkspace w isDir size saved s.counters).2.tabs := by
  have hi : pre.length < s.layout.workspaces.length := by simp [hs]
  have hadd (ts : List SessionTab) : s.layout.workspaces.modify pre.length
      (SessionWorkspace.addTabs ts) = pre ++ { slotOf id saved with tabs := ts } :: post := by
    rw [hs, modify_append_cons]
    rfl
  rw [restoreWorkspace]
  rw [planWorkspace] at hu hnew ⊢
  dsimp only at hu hnew ⊢
  by_cases hempty : saved.tabs.isEmpty = true
  · have htabs := List.isEmpty_iff.mp hempty
    rw [if_pos hempty] at hu hnew ⊢
    rw [if_pos hempty]
    simp only [htabs, planTabs, List.foldl_nil] at hu hnew ⊢
    have hcreate : s.createTab w pre.length none size none =
        (s.takePaneId w none).1.createTabWithPaneId w pre.length none size none
          (s.takePaneId w none).2 := rfl
    rw [hcreate]
    refine ⟨?_, fun j tab t hj => absurd hj (by simp)⟩
    rcases createRoot none none hi with ⟨t, e, heq, hplan, h₁⟩ | ⟨t, q, tabId, heq, hplan, h₁⟩
    · rw [heq]
      simp only [hplan, WorkspacePlan.leaves, WorkspacePlan.live, WorkspacePlan.restored,
        List.reduceOption_nil, Option.map_none, Option.toList_none, List.append_nil,
        List.flatMap_nil]
      have h₂ := grew_setActiveTab pre post (slotOf id saved) saved.activeTab
        (h₁.workspaces.trans hs)
      rw [h₁.counters] at h₂
      exact h₁.trans h₂
    · rw [heq]
      simp only [hplan, WorkspacePlan.leaves, WorkspacePlan.live, WorkspacePlan.restored,
        List.reduceOption_nil, Option.map_some, Option.toList_some, List.nil_append]
      have h₂ := grew_setActiveTab pre post _ saved.activeTab (h₁.workspaces.trans (hadd _))
      rw [h₁.counters] at h₂
      refine (h₁.trans h₂).mono (fun x hx => ?_) fun x hx => ?_
      · simpa [SessionTab.ofLeaf] using hx
      · have hxq : x = q := by simpa [SessionTab.ofLeaf] using hx
        exact (h₂.panes x).mpr (Or.inr ((h₁.panes x).mpr (Or.inl (by simp [hxq]))))
  · rw [if_neg hempty] at hu hnew ⊢
    rw [if_neg hempty]
    have hleaves : (WorkspacePlan.leaves
        { tabs := (planTabs w isDir size saved.tabs s.counters).2, seed := none
          fallback := shellSpawns w size (planTabs w isDir size saved.tabs s.counters).1.spawned none }) =
        plannedLeaves (planTabs w isDir size saved.tabs s.counters).2 := by
      simp [WorkspacePlan.leaves, WorkspacePlan.live, plannedLeaves]
    rw [hleaves] at hu hnew ⊢
    obtain ⟨h₁, hc⟩ := grew_restoreTabs pre.length saved.tabs hi hd hu hnew
    have h₂ := grew_setActiveTab pre post _ saved.activeTab (h₁.workspaces.trans (hadd _))
    refine ⟨?_, hc.grew h₂ fun p _ => List.not_mem_nil⟩
    rw [h₁.counters] at h₂
    simpa [WorkspacePlan.restored, WorkspacePlan.live, slotOf] using h₁.trans h₂

/-- The slots of the workspaces from index `i` on. -/
def slotsFrom (w : World) : ℕ → List Workspace → List SessionWorkspace
  | _, [] => []
  | i, saved :: rest => slotOf (w.newV4 i) saved :: slotsFrom w (i + 1) rest

/-- The workspaces restored in them. -/
def restoredFrom (w : World) : ℕ → List Workspace → List WorkspacePlan → List SessionWorkspace
  | i, saved :: rest, plan :: plans =>
    plan.restored (w.newV4 i) saved :: restoredFrom w (i + 1) rest plans
  | _, _, _ => []

theorem leaves_slotsFrom (i : ℕ) (saved : List Workspace) :
    (slotsFrom w i saved).flatMap SessionWorkspace.leaves = [] := by
  induction saved generalizing i with
  | nil => rfl
  | cons ws rest ih =>
    rw [slotsFrom, List.flatMap_cons, ih]
    rfl

@[simp] theorem length_slotsFrom (i : ℕ) (saved : List Workspace) :
    (slotsFrom w i saved).length = saved.length := by
  induction saved generalizing i with
  | nil => rfl
  | cons ws rest ih => simp [slotsFrom, ih]

theorem leaves_restored (plan : WorkspacePlan) (id : Uuid) (saved : Workspace) :
    (plan.restored id saved).leaves = plan.leaves := rfl

/-- The panes of the restored workspaces are in their saved directories. -/
def WorkspaceCwds (isDir : PathBuf → Bool) (s : SessionManager) (saved : List Workspace)
    (plans : List WorkspacePlan) : Prop :=
  ∀ (i : ℕ) (ws : Workspace) (plan : WorkspacePlan), saved[i]? = some ws → plans[i]? = some plan →
    TabCwds isDir s ws.tabs plan.tabs

/-- The saved workspaces are restored as planned, one after the other. -/
theorem grew_restoreWorkspaces (saved : List Workspace) {i : ℕ} {pre : List SessionWorkspace}
    {s : SessionManager} (hlen : pre.length = i)
    (hs : s.layout.workspaces = pre ++ slotsFrom w i saved)
    (hd : (pre.flatMap SessionWorkspace.leaves).Nodup)
    (hu : ((planWorkspaces w isDir size saved s.counters).2.flatMap WorkspacePlan.leaves).Nodup)
    (hnew : ∀ x ∈ (planWorkspaces w isDir size saved s.counters).2.flatMap WorkspacePlan.leaves,
      x ∉ pre.flatMap SessionWorkspace.leaves) :
    Grew (pre ++ restoredFrom w i saved (planWorkspaces w isDir size saved s.counters).2)
      (planWorkspaces w isDir size saved s.counters).1
      ((planWorkspaces w isDir size saved s.counters).2.flatMap WorkspacePlan.leaves) s
      (restoreWorkspaces w isDir size i saved s) ∧
    WorkspaceCwds isDir (restoreWorkspaces w isDir size i saved s) saved
      (planWorkspaces w isDir size saved s.counters).2 := by
  induction saved generalizing i pre s with
  | nil =>
    have h := Grew.refl s
    rw [hs] at h
    exact ⟨h, fun j ws plan hj => nomatch hj⟩
  | cons ws rest ih =>
    rw [planWorkspaces] at hu hnew ⊢
    dsimp only at hu hnew ⊢
    rw [List.flatMap_cons] at hu hnew ⊢
    obtain ⟨hu₁, hu₂, hdis⟩ := List.nodup_append.mp hu
    rw [slotsFrom] at hs
    have hleaves : s.layout.leaves = pre.flatMap SessionWorkspace.leaves := by
      rw [SessionLayout.leaves, hs, List.flatMap_append, List.flatMap_cons, leaves_slotsFrom]
      simp [slotOf, SessionWorkspace.leaves]
    obtain ⟨h₁, hc₁⟩ := grew_restoreWorkspace pre (slotsFrom w (i + 1) rest) (w.newV4 i) ws hs
      (hleaves ▸ hd) hu₁ fun x hx => hleaves ▸ hnew x (List.mem_append_left _ hx)
    rw [hlen] at h₁ hc₁
    rw [restoreWorkspaces]
    rw [← h₁.counters] at hu₂ hnew hdis ⊢
    generalize (planWorkspace w isDir size ws s.counters).2 = plan at h₁ hc₁ hu₁ hnew hdis ⊢
    generalize restoreWorkspace w isDir size i ws s = t at h₁ hc₁ hu₂ hnew hdis ⊢
    have hpre : (pre ++ [plan.restored (w.newV4 i) ws]).flatMap SessionWorkspace.leaves =
        pre.flatMap SessionWorkspace.leaves ++ plan.leaves := by
      rw [List.flatMap_append, List.flatMap_singleton, leaves_restored]
    have hws : t.layout.workspaces =
        (pre ++ [plan.restored (w.newV4 i) ws]) ++ slotsFrom w (i + 1) rest := by
      rw [h₁.workspaces, List.append_assoc, List.singleton_append]
    obtain ⟨h₂, hc₂⟩ := ih (by simp [hlen]) hws
      (by
        rw [hpre, List.nodup_append]
        exact ⟨hd, hu₁, fun x hx y hy hxy => hnew y (List.mem_append_left _ hy) (hxy ▸ hx)⟩)
      hu₂ (fun x hx hmem => by
        rw [hpre, List.mem_append] at hmem
        rcases hmem with hp | hp
        · exact hnew x (List.mem_append_right _ hx) hp
        · exact hdis x hp x hx rfl)
    have hplanned : ∀ p ∈ plannedLeaves plan.tabs, p ∈ plan.leaves := fun p hp => by
      rw [WorkspacePlan.leaves, WorkspacePlan.live, List.flatMap_append]
      exact List.mem_append_left _ hp
    have hc := (hc₁.grew h₂ fun p hp hp' => hdis p (hplanned p hp) p hp' rfl)
    rw [List.append_assoc, List.singleton_append] at h₂
    refine ⟨h₁.trans h₂, fun j ws' plan' hj hp => ?_⟩
    cases j with
    | zero =>
      obtain rfl := Option.some.inj hj
      obtain rfl := Option.some.inj hp
      exact hc
    | succ j => exact hc₂ j ws' plan' hj hp

end Follow

/-! ### The slots -/

section Slots

open SessionManager

variable {w : World}

/-- A manager nothing was asked of yet. -/
structure Fresh (w : World) (s : SessionManager) : Prop where
  layout : s.layout = .newDefault (w.newV4 0)
  counters : s.counters = ⟨1, 0⟩
  panes : ∀ p, p ∉ s.panes
  paneOrder : s.paneOrder = []

theorem fresh_new (w : World) (logFiles : PMap Uuid Bytes) (ringKb maxMb : UInt32) :
    Fresh w ((SessionManager.new w logFiles).setByteLogConfig ringKb maxMb) where
  layout := rfl
  counters := rfl
  panes := PMap.not_mem_empty
  paneOrder := rfl

/-- A fresh manager is fresh with the pinned flag of the file. -/
theorem Fresh.pinned {s : SessionManager} (hs : Fresh w s) (pinned : Bool) :
    Fresh w (if pinned then s.setPinned true else s) := by
  split_ifs
  · exact ⟨hs.layout, hs.counters, hs.panes, hs.paneOrder⟩
  · exact hs

/-- A slot without colour gets the saved one. -/
theorem grew_slotColor (pre : List SessionWorkspace) (id : Uuid) (ws : Workspace)
    {s : SessionManager}
    (hs : s.layout.workspaces = pre ++ [{ slotOf id ws with color := none }]) :
    Grew (pre ++ [slotOf id ws]) s.counters [] s
      (if ws.color.isSome then (s.setWorkspaceColor pre.length ws.color).1 else s) := by
  have hget : s.layout.workspaces[pre.length]? = some { slotOf id ws with color := none } := by
    simp [hs]
  cases hc : ws.color with
  | none =>
    have hslot : slotOf id ws = { slotOf id ws with color := none } := by simp [slotOf, hc]
    rw [hslot, ← hs]
    exact .refl s
  | some color =>
    simp only [Option.isSome_some, if_true, setWorkspaceColor, hget]
    rw [if_neg nofun]
    refine .of_same ?_ rfl rfl rfl rfl rfl (congrArg List.length (leaves_modifyWorkspace _ fun _ => rfl))
    rw [send_layout, modifyWorkspace_workspaces, hs, modify_append_cons]
    simp [slotOf, hc]

/-- The workspace that is there already is renamed. -/
theorem grew_renameFirst (id : Uuid) (name name' : String) {s : SessionManager}
    (hs : s.layout.workspaces =
      [{ id := id, name := name, tabs := [], activeTab := 0, color := none }]) :
    Grew [{ id := id, name := name', tabs := [], activeTab := 0, color := none }] s.counters [] s
      (s.renameWorkspace 0 name').1 := by
  simp only [renameWorkspace, hs, List.getElem?_cons_zero]
  split_ifs with hn
  · rw [← hn, ← hs]
    exact .refl s
  · refine .of_same ?_ rfl rfl rfl rfl rfl (congrArg List.length (leaves_modifyWorkspace _ fun _ => rfl))
    rw [send_layout, modifyWorkspace_workspaces, hs]
    rfl

theorem grew_createWorkspace (name : String) (s : SessionManager) :
    Grew (s.layout.workspaces ++
        [{ id := w.newV4 s.minted, name := name, tabs := [], activeTab := 0, color := none }])
      s.counters.mint [] s (s.createWorkspace w name).1 :=
  .of_same rfl rfl rfl rfl rfl rfl
    (by simp [createWorkspace, SessionLayout.leaves, SessionWorkspace.leaves])

theorem grew_restoreSlots (saved : List Workspace) {i : ℕ} {s : SessionManager}
    (hlen : s.layout.workspaces.length = i) (hi : i ≠ 0) (hm : s.minted = i) :
    Grew (s.layout.workspaces ++ slotsFrom w i saved) ⟨i + saved.length, s.spawned⟩ [] s
      (restoreSlots w i saved s) := by
  induction saved generalizing i s with
  | nil =>
    have h := Grew.refl s
    rw [SessionManager.counters, hm] at h
    simpa [slotsFrom, restoreSlots] using h
  | cons ws rest ih =>
    have h₁ := grew_createWorkspace (w := w) ws.name s
    have h₂ := grew_slotColor s.layout.workspaces (w.newV4 i) ws (hm ▸ h₁.workspaces)
    have h := h₁.trans h₂
    rw [h₁.counters, hlen] at h
    rw [restoreSlots, restoreSlot]
    simp only [if_neg hi]
    generalize (if ws.color.isSome then _ else _ : SessionManager) = t at h ⊢
    have hmt : t.minted = i + 1 := by
      rw [← hm]
      exact congrArg Counters.minted h.counters
    have hst : t.spawned = s.spawned := congrArg Counters.spawned h.counters
    have h₃ := ih (s := t) (by simp [h.workspaces, hlen]) (Nat.succ_ne_zero i) hmt
    rw [h.workspaces, hst, List.append_assoc, List.singleton_append] at h₃
    have h₄ := h.trans h₃
    rwa [show i + 1 + rest.length = i + (ws :: rest).length by rw [List.length_cons]; omega] at h₄

/-- Every saved workspace has its slot. -/
theorem grew_slots {saved : List Workspace} (hne : saved ≠ []) {s : SessionManager}
    (hs : Fresh w s) :
    Grew (slotsFrom w 0 saved) ⟨saved.length, 0⟩ [] s (restoreSlots w 0 saved s) := by
  cases saved with
  | nil => exact absurd rfl hne
  | cons ws rest =>
    have h₁ := grew_renameFirst (w.newV4 0) "Default" ws.name
      (congrArg SessionLayout.workspaces hs.layout)
    have h₂ := grew_slotColor [] (w.newV4 0) ws h₁.workspaces
    have h := h₁.trans h₂
    rw [h₁.counters, hs.counters] at h
    rw [restoreSlots, restoreSlot]
    simp only [if_true]
    simp only [List.length_nil] at h
    generalize (if ws.color.isSome then _ else _ : SessionManager) = t at h ⊢
    have hmt : t.minted = 1 := congrArg Counters.minted h.counters
    have hst : t.spawned = 0 := congrArg Counters.spawned h.counters
    have h₃ := grew_restoreSlots (w := w) rest (s := t) (by simp [h.workspaces]) Nat.one_ne_zero hmt
    rw [h.workspaces, hst] at h₃
    have h₄ := h.trans h₃
    rwa [show 1 + rest.length = (ws :: rest).length by rw [List.length_cons]; omega] at h₄

end Slots

end Forgetty
