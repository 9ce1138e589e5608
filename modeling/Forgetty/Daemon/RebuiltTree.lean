import Forgetty.Daemon.RestoreRun
import Forgetty.Session.Ids

/-! A saved tree that is rebuilt in a tab. A split goes to the first tab of the layout that has the
pane. So the tab gets the saved tree exactly if no pane that is split on the way is in a tab in
front of it. -/

namespace Forgetty

open Lib

/-! ### The first tab with a leaf -/

section First

variable {p q x : PaneId} {direction : String} {ratio : F32}

/-- The panes of some tabs. -/
def tabLeaves (tabs : List SessionTab) : List PaneId := tabs.flatMap (·.paneTree.leaves)

/-- The first tab that has the leaf is split there. -/
def splitFirst (p q : PaneId) (direction : String) (ratio : F32) :
    List SessionTab → List SessionTab
  | [] => []
  | tab :: tabs =>
    if p ∈ tab.paneTree.leaves then
      { tab with paneTree := (replaceLeafWithRatio p q direction ratio tab.paneTree).1 } :: tabs
    else tab :: splitFirst p q direction ratio tabs

theorem splitFirst_of_mem {before : List SessionTab} (h : p ∈ tabLeaves before)
    (rest : List SessionTab) : splitFirst p q direction ratio (before ++ rest) =
      splitFirst p q direction ratio before ++ rest := by
  induction before with
  | nil => exact absurd h List.not_mem_nil
  | cons tab before ih =>
    rw [List.cons_append, splitFirst, splitFirst]
    split_ifs with hm
    · rfl
    · rw [tabLeaves, List.flatMap_cons, List.mem_append] at h
      rw [ih (h.resolve_left hm), List.cons_append]

theorem splitFirst_of_not_mem {before : List SessionTab} (h : p ∉ tabLeaves before)
    (rest : List SessionTab) : splitFirst p q direction ratio (before ++ rest) =
      before ++ splitFirst p q direction ratio rest := by
  induction before with
  | nil => rfl
  | cons tab before ih =>
    rw [tabLeaves, List.flatMap_cons, List.mem_append, not_or] at h
    rw [List.cons_append, splitFirst, if_neg h.1, ih h.2, List.cons_append]

theorem splitFirst_eq_self {tabs : List SessionTab} (h : p ∉ tabLeaves tabs) :
    splitFirst p q direction ratio tabs = tabs := by
  have hsplit : splitFirst p q direction ratio (tabs ++ []) = tabs ++ [] :=
    splitFirst_of_not_mem h []
  rwa [List.append_nil] at hsplit

theorem length_splitFirst (tabs : List SessionTab) :
    (splitFirst p q direction ratio tabs).length = tabs.length := by
  induction tabs with
  | nil => rfl
  | cons tab tabs ih =>
    rw [splitFirst]
    split_ifs
    · rfl
    · rw [List.length_cons, ih, List.length_cons]

/-- A split takes no pane away. -/
theorem mem_tabLeaves_splitFirst {tabs : List SessionTab} (h : x ∈ tabLeaves tabs) :
    x ∈ tabLeaves (splitFirst p q direction ratio tabs) := by
  induction tabs with
  | nil => exact absurd h List.not_mem_nil
  | cons tab tabs ih =>
    rw [tabLeaves, List.flatMap_cons, List.mem_append] at h
    rw [splitFirst]
    split_ifs with hm
    · rw [tabLeaves, List.flatMap_cons, List.mem_append, (replaceLeafWithRatio_leaves hm).mem_iff]
      exact h.imp_left fun hx => List.mem_append_left _ hx
    · rw [tabLeaves, List.flatMap_cons, List.mem_append]
      exact h.imp_right ih

/-- The loop over the workspaces splits the first tab that has the leaf. -/
theorem tabs_replaceLeafInLayout (wss : List SessionWorkspace) :
    (SessionManager.replaceLeafInLayout p q direction ratio wss).1.flatMap (·.tabs) =
      splitFirst p q direction ratio (wss.flatMap (·.tabs)) := by
  have hflat : ∀ wss : List SessionWorkspace, wss.flatMap SessionWorkspace.leaves =
      tabLeaves (wss.flatMap (·.tabs)) := fun wss => SessionLayout.leaves_eq ⟨wss, 0⟩
  cases hr : (SessionManager.replaceLeafInLayout p q direction ratio wss).2 with
  | none =>
    have hnone := SessionManager.replaceLeafInLayout_none hr
    rw [hflat] at hnone
    have hsame := (visit_none SessionManager.quiet_replaceLeafInLayout hr).1
    rw [splitFirst_eq_self hnone]
    exact congrArg (List.flatMap (·.tabs)) hsame
  | some tabId =>
    obtain ⟨pre, ws, post, rfl, hin, hout, hpre⟩ := SessionManager.replaceLeafInLayout_some hr
    obtain ⟨preT, tab, postT, htabs, hm, -, houtT, hpreT⟩ :=
      SessionManager.replaceLeafInTabs_some hin
    have hpre' : p ∉ tabLeaves (pre.flatMap (·.tabs)) := by
      rw [← hflat]
      intro h
      obtain ⟨v, hv, hpv⟩ := List.mem_flatMap.mp h
      exact hpre v hv hpv
    have hpreT' : p ∉ tabLeaves preT := by
      intro h
      obtain ⟨t, ht, hpt⟩ := List.mem_flatMap.mp h
      exact hpreT t ht hpt
    rw [hout, List.flatMap_append, List.flatMap_append, List.flatMap_cons, List.flatMap_cons,
      houtT, htabs]
    simp only [List.append_assoc, List.cons_append]
    rw [splitFirst_of_not_mem hpre', splitFirst_of_not_mem hpreT', splitFirst, if_pos hm]

end First

/-! ### What is to hold -/

/-- The tab at the place has the saved tree, and for every saved leaf the live leaf at the same
position is found. -/
def RebuiltAt (k : ℕ) (saved : PaneTreeState) (s : SessionManager) : Prop :=
  ∃ tab, s.layout.tabs[k]? = some tab ∧ SameTree saved tab.paneTree ∧
    ∀ path l pid, saved.leafAt path = some l → l.paneId = some pid →
      ∃ p, tab.paneTree.leafAt path = some p ∧
        livePaneIdForSaved pid saved tab.paneTree = some p

variable {w : World} {isDir : PathBuf → Bool} {size : PtySize}

/-! ### A split -/

/-- Whatever a split answers, the tabs say whether the pane was split. -/
theorem tabs_split (p q : PaneId) (label : SplitLabel) (cwd : Option PathBuf) (s : SessionManager) :
    ∃ t, s.splitPaneWithRatioAndPaneId w p label.direction label.ratio size cwd q = (t, .ok q) ∧
          t.layout.tabs = splitFirst p q label.direction label.ratio s.layout.tabs ∨
        ∃ e, s.splitPaneWithRatioAndPaneId w p label.direction label.ratio size cwd q =
          (t, .error e) ∧ t.layout.tabs = s.layout.tabs := by
  unfold SessionManager.splitPaneWithRatioAndPaneId SessionManager.splitAt
  split_ifs with hp
  · cases hspawn : PtyBridge.spawn w s.spawned size cwd none none true with
    | error e => exact ⟨_, .inr ⟨_, rfl, rfl⟩⟩
    | ok b =>
      dsimp only
      have htabs : (SessionManager.replaceLeafInLayout p q label.direction label.ratio
          s.layout.workspaces).1.flatMap (·.tabs) = _ := tabs_replaceLeafInLayout _
      cases hr : SessionManager.replaceLeafInLayout p q label.direction label.ratio
        (s.countSpawn.registerPane (.spawned q b (cwd.getD w.homeDirFallback) size)).layout.workspaces
        with
      | mk wss found =>
        cases found with
        | none => exact ⟨_, .inr ⟨_, rfl, rfl⟩⟩
        | some tabId =>
          refine ⟨_, .inl ⟨rfl, ?_⟩⟩
          rw [SessionManager.spawnDrainTask_layout]
          have hr' : SessionManager.replaceLeafInLayout p q label.direction label.ratio
            s.layout.workspaces = (wss, some tabId) := hr
          rw [hr'] at htabs
          exact htabs
  · exact ⟨s, .inr ⟨_, rfl, rfl⟩⟩

theorem restoreSubtree_split {label : SplitLabel} {first second : PaneTreeState} {pid : Uuid}
    (h : firstLeafPaneId second = some pid) (anchorId : PaneId) (s : SessionManager) :
    restoreSubtree w isDir size (.node label first second) anchorId s =
      match s.splitPaneWithRatioAndPaneId w anchorId label.direction label.ratio size
        (effectiveCwd isDir (firstLeafCwd second)) ⟨pid⟩ with
      | (sm, .ok secondPaneId) => restoreSubtree w isDir size second secondPaneId
          (restoreSubtree w isDir size first anchorId sm)
      | (sm, .error _) => sm := by
  have hnode := @restoreSubtree_node w isDir size label first second anchorId s
  rw [h] at hnode
  exact hnode

theorem tabs_restoreSubtree_leaf (l : SavedLeaf) (anchorId : PaneId) (s : SessionManager) :
    (restoreSubtree w isDir size (.leaf l) anchorId s).layout.tabs = s.layout.tabs := by
  rw [restoreSubtree]
  split_ifs
  · rw [SessionManager.setPaneCwd_layout]
  · rfl

/-! ### How much of the tree comes -/

/-- The tab at the place gets at most the leaves of the tree, and all of them only if no anchor
of the tree is in a tab in front of it. -/
def GrewTo (before : List SessionTab) (tab : SessionTab) (u : PaneTreeLayout)
    (tabs : List SessionTab) : Prop :=
  ∃ before' tab' after', tabs = before' ++ tab' :: after' ∧ before'.length = before.length ∧
    (∀ x ∈ tabLeaves before, x ∈ tabLeaves before') ∧
    tab'.paneTree.leaves.length + 1 ≤ tab.paneTree.leaves.length + u.leaves.length ∧
    (tab'.paneTree.leaves.length + 1 = tab.paneTree.leaves.length + u.leaves.length →
      ∀ p ∈ u.anchors, p ∉ tabLeaves before)

/-- A split adds a leaf to the tab only if the pane is not in front of it. -/
theorem splitFirst_place (p q : PaneId) (direction : String) (ratio : F32)
    (before after : List SessionTab) (tab : SessionTab) :
    ∃ before' tab' after', splitFirst p q direction ratio (before ++ tab :: after) =
        before' ++ tab' :: after' ∧ before'.length = before.length ∧
      (∀ x ∈ tabLeaves before, x ∈ tabLeaves before') ∧
      tab'.paneTree.leaves.length ≤ tab.paneTree.leaves.length + 1 ∧
      (tab'.paneTree.leaves.length = tab.paneTree.leaves.length + 1 → p ∉ tabLeaves before) := by
  by_cases hbefore : p ∈ tabLeaves before
  · exact ⟨_, tab, after, splitFirst_of_mem hbefore _, length_splitFirst before,
      fun x hx => mem_tabLeaves_splitFirst hx, Nat.le_succ _, fun heq => by omega⟩
  · rw [splitFirst_of_not_mem hbefore, splitFirst]
    split_ifs with hm
    · have hlen : (replaceLeafWithRatio p q direction ratio tab.paneTree).1.leaves.length =
          tab.paneTree.leaves.length + 1 :=
        (replaceLeafWithRatio_leaves hm).length_eq.trans List.length_append
      exact ⟨before, _, after, rfl, rfl, fun x hx => hx, hlen.le, fun _ => hbefore⟩
    · exact ⟨before, tab, _, rfl, rfl, fun x hx => hx, Nat.le_succ _, fun heq => by omega⟩

theorem grewTo_restoreSubtree (t : PaneTreeState) {u : PaneTreeLayout} (hu : SameTree t u)
    {before after : List SessionTab} {tab : SessionTab} {s : SessionManager}
    (htabs : s.layout.tabs = before ++ tab :: after) :
    GrewTo before tab u (restoreSubtree w isDir size t u.leftmost s).layout.tabs := by
  induction t generalizing u before after tab s with
  | leaf l =>
    obtain ⟨p, rfl, -⟩ := hu.of_leaf
    exact ⟨before, tab, after, (tabs_restoreSubtree_leaf l _ s).trans htabs, rfl,
      fun x hx => hx, Nat.le_refl _, fun _ p hp => absurd hp List.not_mem_nil⟩
  | node label first second ih₁ ih₂ =>
    obtain ⟨u₁, u₂, rfl, hu₁, hu₂⟩ := hu.of_node
    have hpos₁ := u₁.leaves_length_pos
    have hpos₂ := u₂.leaves_length_pos
    rw [restoreSubtree_split hu₂.firstLeafPaneId, LeafTree.leftmost]
    obtain ⟨t₁, ⟨heq, hsplit⟩ | ⟨e, heq, hsame⟩⟩ := @tabs_split w size u₁.leftmost u₂.leftmost
      label (effectiveCwd isDir (firstLeafCwd second)) s
    · rw [heq]
      rw [htabs] at hsplit
      obtain ⟨before₁, tab₁, after₁, h₁, hlen₁, hsub₁, hle₁, hanchor⟩ := splitFirst_place
        u₁.leftmost u₂.leftmost label.direction label.ratio before after tab
      obtain ⟨before₂, tab₂, after₂, h₂, hlen₂, hsub₂, hle₂, hanchors₁⟩ :=
        ih₁ hu₁ (hsplit.trans h₁)
      obtain ⟨before₃, tab₃, after₃, h₃, hlen₃, hsub₃, hle₃, hanchors₂⟩ := ih₂ hu₂ h₂
      refine ⟨before₃, tab₃, after₃, h₃, hlen₃.trans (hlen₂.trans hlen₁),
        fun x hx => hsub₃ x (hsub₂ x (hsub₁ x hx)), ?_, fun hall p hp => ?_⟩
      · rw [LeafTree.leaves_node, List.length_append]
        omega
      · rw [LeafTree.leaves_node, List.length_append] at hall
        rcases List.mem_cons.mp hp with rfl | hp
        · exact hanchor (by omega)
        · rcases List.mem_append.mp hp with hp | hp
          · exact fun hx => hanchors₁ (by omega) p hp (hsub₁ _ hx)
          · exact fun hx => hanchors₂ (by omega) p hp (hsub₂ _ (hsub₁ _ hx))
    · -- the split failed: the tab stays, and there are leaves that it lacks
      rw [heq]
      refine ⟨before, tab, after, hsame.trans htabs, rfl, fun x hx => hx, ?_, fun hall => ?_⟩
      · rw [LeafTree.leaves_node, List.length_append]
        omega
      · rw [LeafTree.leaves_node, List.length_append] at hall
        omega

/-! ### The tree -/

/-- A live pane of the tab, in no tab in front of it, is split there. -/
theorem split_tab (hspawn : w.SpawnsSucceed) {p : PaneId} (q : PaneId) (label : SplitLabel)
    (cwd : Option PathBuf) {before after : List SessionTab} {tab : SessionTab} {s : SessionManager}
    (htabs : s.layout.tabs = before ++ tab :: after) (hlive : p ∈ s.panes)
    (hleaf : p ∈ tab.paneTree.leaves) (hd : tab.paneTree.leaves.Nodup)
    (hbefore : p ∉ tabLeaves before) :
    ∃ t, s.splitPaneWithRatioAndPaneId w p label.direction label.ratio size cwd q = (t, .ok q) ∧
      t.layout.tabs = before ++
        { tab with paneTree := tab.paneTree.subst p (.node label (.leaf p) (.leaf q)) } :: after ∧
      ∀ x, x ∈ t.panes ↔ x = q ∨ x ∈ s.panes := by
  have hshown : p ∈ s.layout.leaves := by
    rw [SessionLayout.leaves_eq, htabs]
    exact List.mem_flatMap.mpr ⟨tab, by simp, hleaf⟩
  obtain ⟨b, wss, tabId, hr, heq⟩ := SessionManager.split_live q label.direction label.ratio hlive
    hshown (shellSpawns_of_succeed hspawn s.spawned cwd)
  refine ⟨_, heq, ?_, fun x => ?_⟩
  · have hsplit : (SessionManager.replaceLeafInLayout p q label.direction label.ratio
        s.layout.workspaces).1.flatMap (·.tabs) =
      splitFirst p q label.direction label.ratio s.layout.tabs := tabs_replaceLeafInLayout _
    rw [hr, htabs, splitFirst_of_not_mem hbefore, splitFirst, if_pos hleaf,
      replaceLeafWithRatio_eq_subst hd hleaf] at hsplit
    rw [SessionManager.spawnDrainTask_layout]
    exact hsplit
  · simp [PaneState.spawned]

/-- The tree is put in the place of its anchor in the tab. -/
theorem tabs_restoreSubtree (hspawn : w.SpawnsSucceed) (t : PaneTreeState) {u : PaneTreeLayout}
    (hu : SameTree t u) {before after : List SessionTab} {tab : SessionTab} {s : SessionManager}
    (htabs : s.layout.tabs = before ++ tab :: after) (hlive : u.leftmost ∈ s.panes)
    (hfits : u.Fits tab.paneTree.leaves) (hbefore : ∀ p ∈ u.anchors, p ∉ tabLeaves before) :
    (restoreSubtree w isDir size t u.leftmost s).layout.tabs = before ++
        { tab with paneTree := tab.paneTree.subst u.leftmost u } :: after ∧
      ∀ x ∈ s.panes, x ∈ (restoreSubtree w isDir size t u.leftmost s).panes := by
  induction t generalizing u before after tab s with
  | leaf l =>
    obtain ⟨p, rfl, -⟩ := hu.of_leaf
    refine ⟨(tabs_restoreSubtree_leaf l _ s).trans ?_, fun x hx => ?_⟩
    · rw [LeafTree.leftmost, LeafTree.subst_self, htabs]
    · rw [restoreSubtree]
      split_ifs
      · exact ((SessionManager.effect_setPaneCwd _ _ s).keys x).mpr (Or.inl ⟨hx, by simp⟩)
      · exact hx
  | node label first second ih₁ ih₂ =>
    obtain ⟨u₁, u₂, rfl, hu₁, hu₂⟩ := hu.of_node
    rw [LeafTree.leftmost] at hlive ⊢
    obtain ⟨t₁, heq, htabs₁, hpanes₁⟩ := @split_tab w size hspawn u₁.leftmost u₂.leftmost label
      (effectiveCwd isDir (firstLeafCwd second)) _ _ _ _ htabs hlive hfits.anchor hfits.nodup
      (hbefore _ List.mem_cons_self)
    rw [restoreSubtree_split hu₂.firstLeafPaneId, heq]
    obtain ⟨htabs₂, hpanes₂⟩ := ih₁ hu₁ htabs₁ ((hpanes₁ _).mpr (Or.inr hlive))
      (by rw [LeafTree.leaves_subst]; exact hfits.first)
      fun p hp => hbefore p (List.mem_cons_of_mem _ (List.mem_append_left _ hp))
    dsimp only at htabs₂
    rw [LeafTree.subst_subst (Or.inl rfl), hfits.subst_first] at htabs₂
    obtain ⟨htabs₃, hpanes₃⟩ := ih₂ hu₂ htabs₂ (hpanes₂ _ ((hpanes₁ _).mpr (Or.inl rfl)))
      (by rw [LeafTree.leaves_subst]; exact hfits.second)
      fun p hp => hbefore p (List.mem_cons_of_mem _ (List.mem_append_right _ hp))
    dsimp only at htabs₃
    rw [LeafTree.subst_subst (Or.inr hfits.not_mem), hfits.subst_second] at htabs₃
    exact ⟨htabs₃, fun x hx => hpanes₃ x (hpanes₂ x ((hpanes₁ x).mpr (Or.inr hx)))⟩

/-- From a tab of one live pane the saved tree comes, and its leaves are found, exactly if no
anchor of it is in a tab in front of this one. -/
theorem rebuiltAt_iff (hspawn : w.SpawnsSucceed) {saved : PaneTreeState}
    (hids : ∀ l ∈ saved.leaves, l.paneId ≠ none) (hd : (saved.leaves.map (·.paneId)).Nodup)
    {s : SessionManager} {before after : List SessionTab} {tab : SessionTab} {anchorId : PaneId}
    (htabs : s.layout.tabs = before ++ tab :: after) (htree : tab.paneTree = .leaf anchorId)
    (hlive : anchorId ∈ s.panes) (hfirst : firstLeafPaneId saved = some anchorId.uuid) :
    RebuiltAt before.length saved (restoreSubtree w isDir size saved anchorId s) ↔
      ∀ l ∈ saved.anchors, ∀ p ∈ tabLeaves before, l.paneId ≠ some p.uuid := by
  obtain ⟨u, hu⟩ := exists_sameTree hids
  obtain rfl : anchorId = u.leftmost :=
    congrArg PaneId.mk (Option.some.inj (hfirst.symm.trans hu.firstLeafPaneId))
  rw [hu.forall_anchors]
  constructor
  · rintro ⟨tab', hget, hsame, -⟩
    obtain ⟨before', tab₁, after', heq, hlen, -, -, hall⟩ :=
      @grewTo_restoreSubtree w isDir size saved u hu before after tab s htabs
    rw [heq, ← hlen, List.getElem?_append_right (Nat.le_refl _), Nat.sub_self] at hget
    obtain rfl := Option.some.inj hget
    refine hall ?_
    have hcount := congrArg List.length (hsame.leaves.trans hu.leaves.symm)
    rw [List.length_map, List.length_map] at hcount
    rw [hcount, htree, LeafTree.leaves_leaf, List.length_singleton, Nat.add_comm]
  · intro hbefore
    have hdu : u.leaves.Nodup := by
      rw [← hu.leaves] at hd
      exact hd.of_map _
    have hfits : u.Fits tab.paneTree.leaves :=
      { nodup := by rw [htree]; exact List.nodup_singleton _
        anchor := by rw [htree]; exact List.mem_singleton_self _
        distinct := hdu
        fresh := fun x _ hx => by rw [htree]; simpa using hx }
    obtain ⟨heq, -⟩ := @tabs_restoreSubtree w isDir size hspawn saved u hu before after tab s htabs
      hlive hfits hbefore
    refine ⟨{ tab with paneTree := u }, ?_, hu, fun path l pid hl hpid => ⟨⟨pid⟩, hu.finds hl hpid⟩⟩
    rw [heq, htree, LeafTree.subst_leaf_self, List.getElem?_append_right (Nat.le_refl _),
      Nat.sub_self]
    rfl

/-! A session with two tabs of one pane each, and a saved tree for the second one that has the pane
of the first tab as well. -/

def oneTab : SessionManager :=
  (SessionManager.new .counting .empty).runOps .counting [.createTab 0 none .default none]

def pairOfTabs : SessionManager := oneTab.runOps .counting [.createTab 0 none .default none]

def savedPane (n : ℕ) : PaneTreeState := .leaf { cwd := .ofString "/", paneId := some ⟨n⟩ }

/-- A pane above two others. -/
def savedThree (a b c : ℕ) : PaneTreeState :=
  .node ⟨"vertical", 1 / 4⟩ (savedPane a) (.node ⟨"horizontal", 1 / 2⟩ (savedPane b) (savedPane c))

theorem rebuiltAt_savedThree : RebuiltAt 0 (savedThree 1 8 9)
    (restoreSubtree .counting (fun _ => false) .default (savedThree 1 8 9) ⟨⟨1⟩⟩ oneTab) :=
  (rebuiltAt_iff World.counting_spawnsSucceed (by decide) (by decide)
    (show oneTab.layout.tabs = [] ++ .ofLeaf ⟨2⟩ ⟨⟨1⟩⟩ :: [] from rfl) rfl (by decide) rfl).mpr
      (by decide)

/-- The last split goes to the first tab. -/
theorem not_rebuiltAt_savedThree : ¬ ∀ w isDir size saved anchorId s before after tab,
    w.SpawnsSucceed → (∀ l ∈ saved.leaves, l.paneId ≠ none) →
    (saved.leaves.map (·.paneId)).Nodup → s.layout.tabs = before ++ tab :: after →
    tab.paneTree = .leaf anchorId → anchorId ∈ s.panes →
    firstLeafPaneId saved = some anchorId.uuid →
      RebuiltAt before.length saved (restoreSubtree w isDir size saved anchorId s) := by
  intro h
  obtain ⟨tab, hget, hsame, -⟩ := h .counting (fun _ => false) .default (savedThree 3 1 9) ⟨⟨3⟩⟩
    pairOfTabs [.ofLeaf ⟨2⟩ ⟨⟨1⟩⟩] [] (.ofLeaf ⟨4⟩ ⟨⟨3⟩⟩) World.counting_spawnsSucceed (by decide)
    (by decide) rfl rfl (by decide) rfl
  have hlen : tab.paneTree.leaves.length = 3 := by
    simpa [savedThree, savedPane] using congrArg List.length hsame.leaves
  have hcount := congrArg (Option.map fun tab => tab.paneTree.leaves.length) hget
  rw [Option.map_some, hlen] at hcount
  exact absurd hcount (by decide)

end Forgetty
