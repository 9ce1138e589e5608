import Forgetty.Gtk.PaneTree
import Mathlib.Algebra.Order.Ring.Rat
import Mathlib.Tactic.NormNum

/-! The ratios a closing window sends: one entry for each paned widget, keyed by the
leftmost pane of its start child. The paneds that start one another share that
pane, so that the daemon applies all their entries to the outermost of them. -/

namespace Forgetty

open Lib SessionManager

/-! ### What the window sends -/

/-- The extent the divider moves along. -/
def Paned.size (p : Paned) : ℤ :=
  match p.orientation with
  | .horizontal => p.width
  | .vertical => p.height

/-- `quot` divides two integers as `f32` numbers. -/
def Paned.ratio (quot : ℤ → ℤ → F32) (p : Paned) : F32 :=
  if 0 < p.size then quot p.position p.size else 1 / 2

def leftmostDaemonPaneId (states : PMap PaneName PaneId) : PaneWidget → Option PaneId
  | .leaf n => states.get n
  | .node _ start _ => leftmostDaemonPaneId states start

/-- Push the ratios of the widget behind the ones collected so far. -/
def collectRatiosFromWidget (quot : ℤ → ℤ → F32) (states : PMap PaneName PaneId) :
    PaneWidget → List (PaneId × F32) → List (PaneId × F32)
  | .leaf _, out => out
  | .node p start stop, out =>
    let out :=
      match leftmostDaemonPaneId states start with
      | some paneId => out ++ [(paneId, p.ratio quot)]
      | none => out
    collectRatiosFromWidget quot states stop (collectRatiosFromWidget quot states start out)

/-- The split tree the widgets show, with the ratios measured on them. -/
def measured (quot : ℤ → ℤ → F32) (states : PMap PaneName PaneId) (t : PaneWidget) :
    LeafTree SplitLabel (Option PaneId) :=
  (t.relabel fun p => ⟨p.orientation.direction, p.ratio quot⟩).map states.get

/-! ### What the updates are for -/

/-- Put a tree in the place of the tree of the tab with index `j` in the workspace
with index `i`. -/
def SessionLayout.withTree (i j : ℕ) (t : PaneTreeLayout) (l : SessionLayout) : SessionLayout :=
  { l with workspaces := l.workspaces.modify i fun ws =>
      { ws with tabs := ws.tabs.modify j fun tab => { tab with paneTree := t } } }

/-- One entry for each split, keyed by the leftmost pane of its first child. -/
def ratioUpdates : PaneTreeLayout → List (PaneId × F32)
  | .leaf _ => []
  | .node label first second =>
    (first.leftmost, label.ratio) :: (ratioUpdates first ++ ratioUpdates second)

/-- The ratio of the last split in the chain of first children that goes on from a
split with the given ratio and first child. -/
def innermostRatio (ratio : F32) : PaneTreeLayout → F32
  | .leaf _ => ratio
  | .node label first _ => innermostRatio label.ratio first

/-- The ratios of `assigned` arrive in a tree of its shape: of the splits in a chain
of first children the outermost is assigned the ratio of the innermost, and the
others have their ratios already. `inner` tells that the tree is a first child. -/
def Arrives (inner : Bool) : PaneTreeLayout → PaneTreeLayout → Prop
  | .node label first second, .node label' first' second' =>
    label'.ratio = (if inner then label.ratio else innermostRatio label'.ratio first') ∧
      Arrives true first first' ∧ Arrives false second second'
  | _, _ => True

/-! ### What the updates do -/

/-- The updates of one batch on one tree. -/
def applyRatios (us : List (PaneId × F32)) (t : PaneTreeLayout) : PaneTreeLayout :=
  us.foldl (fun t u => (updateRatioForPane u.1 (clampRatio u.2) t).1) t

/-- The tree the entries of `assigned` lead to. -/
def delivered (inner : Bool) : PaneTreeLayout → PaneTreeLayout → PaneTreeLayout
  | .node label first second, .node label' first' second' =>
    .node (if inner then label else { label with ratio := innermostRatio label'.ratio first' })
      (delivered true first first') (delivered false second second')
  | t, _ => t

section Tree

variable {p : PaneId} {ratio : F32} {label : SplitLabel} {first second : PaneTreeLayout}

theorem updateRatioForPane_miss {t : PaneTreeLayout} (h : p ∉ t.leaves) :
    updateRatioForPane p ratio t = (t, false) := by
  induction t with
  | leaf q => rfl
  | node n l r hl hr =>
    simp only [LeafTree.leaves_node, List.mem_append, not_or] at h
    have hne : ¬leftmostLeafId l = some p := by
      rw [leftmostLeafId_eq, Option.some.injEq]
      rintro rfl
      exact h.1 l.leftmost_mem
    simp [updateRatioForPane, hne, hl h.1, hr h.2]

theorem updateRatioForPane_leftmost :
    updateRatioForPane first.leftmost ratio (.node label first second) =
      (.node { label with ratio := ratio } first second, true) := by
  rw [updateRatioForPane, if_pos (leftmostLeafId_eq first)]

theorem updateRatioForPane_first (hne : p ≠ first.leftmost) (h : p ∉ second.leaves) :
    (updateRatioForPane p ratio (.node label first second)).1 =
      .node label (updateRatioForPane p ratio first).1 second := by
  have : ¬leftmostLeafId first = some p := by
    rw [leftmostLeafId_eq, Option.some.injEq]
    exact hne.symm
  rw [updateRatioForPane, if_neg this, updateRatioForPane_miss h]
  dsimp only
  split_ifs <;> rfl

theorem updateRatioForPane_second (h : p ∉ first.leaves) :
    (updateRatioForPane p ratio (.node label first second)).1 =
      .node label first (updateRatioForPane p ratio second).1 := by
  have : ¬leftmostLeafId first = some p := by
    rw [leftmostLeafId_eq, Option.some.injEq]
    rintro rfl
    exact h first.leftmost_mem
  simp [updateRatioForPane, if_neg this, updateRatioForPane_miss h]

theorem applyRatios_append (us vs : List (PaneId × F32)) (t : PaneTreeLayout) :
    applyRatios (us ++ vs) t = applyRatios vs (applyRatios us t) := List.foldl_append

theorem applyRatios_miss {us : List (PaneId × F32)} {t : PaneTreeLayout}
    (h : ∀ u ∈ us, u.1 ∉ t.leaves) : applyRatios us t = t := by
  induction us with
  | nil => rfl
  | cons u us ih =>
    rw [applyRatios, List.foldl_cons, updateRatioForPane_miss (h u List.mem_cons_self)]
    exact ih fun v hv => h v (List.mem_cons_of_mem u hv)

/-- Updates for panes outside the first child go to the second one. -/
theorem applyRatios_second {us : List (PaneId × F32)} (h : ∀ u ∈ us, u.1 ∉ first.leaves) :
    applyRatios us (.node label first second) = .node label first (applyRatios us second) := by
  induction us generalizing second with
  | nil => rfl
  | cons u us ih =>
    simp only [applyRatios, List.foldl_cons,
      updateRatioForPane_second (h u List.mem_cons_self)]
    exact ih fun v hv => h v (List.mem_cons_of_mem u hv)

/-- Updates for panes outside the second child: those for the leftmost pane set the
ratio of the split, the last one for good, and the others go to the first child. -/
theorem applyRatios_first {us : List (PaneId × F32)} (h : ∀ u ∈ us, u.1 ∉ second.leaves) :
    applyRatios us (.node label first second) =
      .node { label with ratio :=
          (us.filter (·.1 = first.leftmost)).foldl (fun _ u => clampRatio u.2) label.ratio }
        (applyRatios (us.filter (·.1 ≠ first.leftmost)) first) second := by
  induction us generalizing label first with
  | nil => rfl
  | cons u us ih =>
    have hus := fun v hv => h v (List.mem_cons_of_mem u hv)
    by_cases hu : u.1 = first.leftmost
    · simp only [applyRatios, List.foldl_cons] at ih ⊢
      rw [hu, updateRatioForPane_leftmost, ih hus]
      simp [hu]
    · have hleft : (updateRatioForPane u.1 (clampRatio u.2) first).1.leftmost = first.leftmost := by
        apply Option.some.inj
        rw [← LeafTree.head?_leaves, ← LeafTree.head?_leaves, updateRatioForPane_leaves]
      simp only [applyRatios, List.foldl_cons] at ih ⊢
      rw [updateRatioForPane_first hu (h u List.mem_cons_self), ih hus, hleft]
      simp [hu]

theorem applyRatios_leaves (us : List (PaneId × F32)) (t : PaneTreeLayout) :
    (applyRatios us t).leaves = t.leaves := by
  induction us generalizing t with
  | nil => rfl
  | cons u us ih =>
    rw [applyRatios, List.foldl_cons]
    exact (ih _).trans (updateRatioForPane_leaves _ _ _)

/-- Updates for the first child, then updates for the second. -/
theorem applyRatios_node {us vs : List (PaneId × F32)} (hus : ∀ u ∈ us, u.1 ∉ second.leaves)
    (hvs : ∀ v ∈ vs, v.1 ∉ first.leaves) :
    applyRatios (us ++ vs) (.node label first second) =
      .node { label with ratio :=
          (us.filter (·.1 = first.leftmost)).foldl (fun _ u => clampRatio u.2) label.ratio }
        (applyRatios (us.filter (·.1 ≠ first.leftmost)) first) (applyRatios vs second) := by
  rw [applyRatios_append, applyRatios_first hus, applyRatios_second]
  rwa [applyRatios_leaves]

/-- The panes that key the entries are leaves. -/
theorem mem_leaves_of_ratioUpdates {t : PaneTreeLayout} {u : PaneId × F32}
    (h : u ∈ ratioUpdates t) : u.1 ∈ t.leaves := by
  induction t with
  | leaf q => simp [ratioUpdates] at h
  | node n l r hl hr =>
    rw [LeafTree.leaves_node, List.mem_append]
    rcases List.mem_cons.mp h with rfl | h
    · exact Or.inl l.leftmost_mem
    · exact (List.mem_append.mp h).imp hl hr

/-- Of the entries for the leftmost pane the innermost split sends the last. -/
theorem foldl_leftmost {t : PaneTreeLayout} (hd : t.leaves.Nodup)
    (hr : ∀ l ∈ t.labels, clampRatio l.ratio = l.ratio) (ratio : F32) :
    ((ratioUpdates t).filter (·.1 = t.leftmost)).foldl (fun _ u => clampRatio u.2) ratio =
      innermostRatio ratio t := by
  induction t generalizing ratio with
  | leaf q => rfl
  | node n l r hl hrr =>
    rw [LeafTree.leaves_node, List.nodup_append] at hd
    obtain ⟨hdl, -, hdis⟩ := hd
    have hsecond : (ratioUpdates r).filter (·.1 = l.leftmost) = [] := by
      rw [List.filter_eq_nil_iff]
      intro u hu
      simpa using fun heq : u.1 = l.leftmost =>
        hdis _ l.leftmost_mem _ (mem_leaves_of_ratioUpdates hu) heq.symm
    show (((l.leftmost, n.ratio) :: (ratioUpdates l ++ ratioUpdates r)).filter
      (·.1 = l.leftmost)).foldl _ ratio = innermostRatio n.ratio l
    rw [List.filter_cons_of_pos (by simp), List.filter_append, hsecond, List.append_nil,
      List.foldl_cons, hr n (by simp [LeafTree.labels]),
      hl hdl fun l' hl' => hr l' (by simp [LeafTree.labels, hl'])]

theorem leaves_of_relabel {t t' : PaneTreeLayout}
    (h : t.relabel (·.direction) = t'.relabel (·.direction)) : t.leaves = t'.leaves := by
  simpa using congrArg LeafTree.leaves h

theorem leftmost_of_leaves {t t' : PaneTreeLayout} (h : t.leaves = t'.leaves) :
    t.leftmost = t'.leftmost := by
  apply Option.some.inj
  rw [← LeafTree.head?_leaves, ← LeafTree.head?_leaves, h]

/-- What the entries of a tree make of a tree of the same shape: all of them, and
those left when it is a first child. -/
theorem applyRatios_ratioUpdates {t t' : PaneTreeLayout}
    (h : t.relabel (·.direction) = t'.relabel (·.direction)) (hd : t'.leaves.Nodup)
    (hr : ∀ l ∈ t'.labels, clampRatio l.ratio = l.ratio) :
    applyRatios (ratioUpdates t') t = delivered false t t' ∧
      applyRatios ((ratioUpdates t').filter (·.1 ≠ t'.leftmost)) t = delivered true t t' := by
  induction t generalizing t' with
  | leaf q =>
    cases t' with
    | leaf q' => exact ⟨rfl, rfl⟩
    | node n' l' r' => simp [LeafTree.relabel] at h
  | node n l r hl hrr =>
    cases t' with
    | leaf q' => simp [LeafTree.relabel] at h
    | node n' l' r' =>
      simp only [LeafTree.relabel, LeafTree.node.injEq] at h
      obtain ⟨-, hL, hR⟩ := h
      rw [LeafTree.leaves_node, List.nodup_append] at hd
      obtain ⟨hdl, hdr, hdis⟩ := hd
      have hr' : ∀ m ∈ l'.labels, clampRatio m.ratio = m.ratio :=
        fun m hm => hr m (by simp [LeafTree.labels, hm])
      obtain ⟨-, ihl⟩ := hl hL hdl hr'
      obtain ⟨ihr, -⟩ := hrr hR hdr fun m hm => hr m (by simp [LeafTree.labels, hm])
      have hleft := leftmost_of_leaves (leaves_of_relabel hL)
      have hfirst : ∀ u ∈ ratioUpdates l', u.1 ∉ r.leaves := fun u hu hm =>
        hdis _ (mem_leaves_of_ratioUpdates hu) _ (leaves_of_relabel hR ▸ hm) rfl
      have hsecond : ∀ u ∈ ratioUpdates r', u.1 ∉ l.leaves := fun u hu hm =>
        hdis _ (leaves_of_relabel hL ▸ hm) _ (mem_leaves_of_ratioUpdates hu) rfl
      have hkey : l'.leftmost ∉ r.leaves := fun hm =>
        hdis _ l'.leftmost_mem _ (leaves_of_relabel hR ▸ hm) rfl
      have hkeep : (ratioUpdates r').filter (·.1 ≠ l'.leftmost) = ratioUpdates r' := by
        rw [List.filter_eq_self]
        intro u hu
        simpa using fun heq : u.1 = l'.leftmost =>
          hdis _ l'.leftmost_mem _ (mem_leaves_of_ratioUpdates hu) heq.symm
      constructor
      · rw [ratioUpdates, ← List.cons_append, applyRatios_node _ hsecond, ihr, hleft]
        · rw [List.filter_cons_of_pos (by simp), List.filter_cons_of_neg (by simp), ihl,
            List.foldl_cons, hr n' (by simp [LeafTree.labels]), foldl_leftmost hdl hr']
          rfl
        · rintro u (_ | ⟨_, hu⟩)
          · exact hkey
          · exact hfirst u hu
      · show applyRatios (((l'.leftmost, n'.ratio) :: (ratioUpdates l' ++ ratioUpdates r')).filter
          (·.1 ≠ l'.leftmost)) _ = _
        rw [List.filter_cons_of_neg (by simp), List.filter_append, hkeep,
          applyRatios_node (fun u hu => hfirst u (List.mem_of_mem_filter hu)) hsecond, ihr, hleft,
          List.filter_filter, List.filter_filter]
        have hnone : (ratioUpdates l').filter
            (fun u => decide (u.1 = l'.leftmost) && decide (u.1 ≠ l'.leftmost)) = [] := by
          simp
        simp only [Bool.and_self, hnone, ihl]
        rfl

/-- The entries lead to the tree they come from exactly if its ratios arrive. -/
theorem delivered_eq_iff {t t' : PaneTreeLayout}
    (h : t.relabel (·.direction) = t'.relabel (·.direction)) (inner : Bool) :
    delivered inner t t' = t' ↔ Arrives inner t t' := by
  induction t generalizing t' inner with
  | leaf q =>
    cases t' with
    | leaf q' => simpa [delivered, Arrives, LeafTree.relabel] using h
    | node n' l' r' => simp [LeafTree.relabel] at h
  | node n l r hl hr =>
    cases t' with
    | leaf q' => simp [LeafTree.relabel] at h
    | node n' l' r' =>
      simp only [LeafTree.relabel, LeafTree.node.injEq] at h
      obtain ⟨hdir, hL, hR⟩ := h
      rw [delivered, Arrives, LeafTree.node.injEq, hl hL, hr hR]
      refine and_congr_left fun _ => ?_
      cases n
      cases n'
      obtain rfl : _ = _ := hdir
      cases inner <;> simp [eq_comm]

/-- The entries the window sends are those of the tree measured on its widgets. -/
theorem collectRatiosFromWidget_eq {quot : ℤ → ℤ → F32} {states : PMap PaneName PaneId}
    {v : PaneWidget} {t : PaneTreeLayout} (h : measured quot states v = t.map some)
    (out : List (PaneId × F32)) :
    collectRatiosFromWidget quot states v out = out ++ ratioUpdates t := by
  have hkey (v : PaneWidget) (t : PaneTreeLayout) (h : measured quot states v = t.map some) :
      leftmostDaemonPaneId states v = some t.leftmost := by
    induction v generalizing t with
    | leaf n =>
      cases t with
      | leaf q => exact LeafTree.leaf.inj h
      | node n' l' r' => simp [measured, LeafTree.relabel, LeafTree.map] at h
    | node p start stop hs _ =>
      cases t with
      | leaf q => simp [measured, LeafTree.relabel, LeafTree.map] at h
      | node n' l' r' =>
        simp only [measured, LeafTree.relabel, LeafTree.map, LeafTree.node.injEq] at h
        exact hs l' h.2.1
  induction v generalizing t out with
  | leaf n =>
    cases t with
    | leaf q => simp [collectRatiosFromWidget, ratioUpdates]
    | node n' l' r' => simp [measured, LeafTree.relabel, LeafTree.map] at h
  | node p start stop hs ht =>
    cases t with
    | leaf q => simp [measured, LeafTree.relabel, LeafTree.map] at h
    | node n' l' r' =>
      simp only [measured, LeafTree.relabel, LeafTree.map, LeafTree.node.injEq] at h
      obtain ⟨rfl, hL, hR⟩ := h
      rw [collectRatiosFromWidget, hkey start l' hL]
      dsimp only
      rw [hs hL, ht hR, ratioUpdates]
      simp

end Tree

/-! ### The layout -/

section Layout

variable {s : SessionManager}

theorem updateSplitRatios_layout (us : List (PaneId × F32)) (s : SessionManager) :
    (s.updateSplitRatios us).layout =
      { s.layout with workspaces := s.layout.workspaces.map fun ws =>
        { ws with tabs := ws.tabs.map fun tab =>
          { tab with paneTree := applyRatios us tab.paneTree } } } := by
  induction us generalizing s with
  | nil => simp [updateSplitRatios, applyRatios]
  | cons u us ih =>
    rw [updateSplitRatios, List.foldl_cons]
    refine (ih _).trans ?_
    simp [setWorkspaces, applyRatios, Function.comp_def]

/-- A change of trees that leaves alone those that share no pane with the tree of one
tab is a change of that tab. -/
theorem mapTrees_eq_withTree {f : PaneTreeLayout → PaneTreeLayout} {i j : ℕ} {l : SessionLayout}
    (hd : l.leaves.Nodup) {t : PaneTreeLayout} (ht : l.treeAt i j = some t)
    (hf : ∀ u : PaneTreeLayout, (∀ p ∈ u.leaves, p ∉ t.leaves) → f u = u) :
    ({ l with workspaces := l.workspaces.map fun ws =>
        { ws with tabs := ws.tabs.map fun tab => { tab with paneTree := f tab.paneTree } } } :
      SessionLayout) = l.withTree i j (f t) := by
  simp only [SessionLayout.treeAt, Option.map_eq_some_iff, Option.bind_eq_some_iff] at ht
  obtain ⟨tab, ⟨ws, hws, htab⟩, rfl⟩ := ht
  obtain ⟨pre, post, hsplit, -, hmod, -⟩ := exists_split hws
  obtain ⟨preT, postT, hsplitT, -, hmodT, -⟩ := exists_split htab
  have hkeepTab (u : SessionTab) (hu : ∀ p ∈ u.paneTree.leaves, p ∉ tab.paneTree.leaves) :
      ({ u with paneTree := f u.paneTree } : SessionTab) = u := by rw [hf _ hu]
  have hkeep (v : SessionWorkspace) (hv : ∀ p ∈ v.leaves, p ∉ tab.paneTree.leaves) :
      ({ v with tabs := v.tabs.map fun u => { u with paneTree := f u.paneTree } } :
        SessionWorkspace) = v := by
    rw [List.map_congr_left (g := id) fun u hu => hkeepTab u fun p hp =>
      hv p (List.mem_flatMap.mpr ⟨u, hu, hp⟩), List.map_id]
  rw [SessionLayout.leaves, hsplit, List.flatMap_append, List.flatMap_cons, List.nodup_append,
    List.nodup_append] at hd
  obtain ⟨-, ⟨hdws, -, hpost⟩, hpre⟩ := hd
  have hin : ∀ p ∈ tab.paneTree.leaves, p ∈ ws.leaves := fun p hp =>
    List.mem_flatMap.mpr ⟨tab, List.mem_of_getElem? htab, hp⟩
  rw [SessionWorkspace.leaves, hsplitT, List.flatMap_append, List.flatMap_cons, List.nodup_append,
    List.nodup_append] at hdws
  obtain ⟨-, ⟨-, -, hpostT⟩, hpreT⟩ := hdws
  have hpreEq : pre.map (fun v => ({ v with tabs := v.tabs.map fun u =>
      { u with paneTree := f u.paneTree } } : SessionWorkspace)) = pre := by
    refine (List.map_congr_left fun v hv => hkeep v fun p hp hpt => ?_).trans (List.map_id pre)
    exact hpre p (List.mem_flatMap.mpr ⟨v, hv, hp⟩) p
      (List.mem_append_left _ (hin p hpt)) rfl
  have hpostEq : post.map (fun v => ({ v with tabs := v.tabs.map fun u =>
      { u with paneTree := f u.paneTree } } : SessionWorkspace)) = post := by
    refine (List.map_congr_left fun v hv => hkeep v fun p hp hpt => ?_).trans (List.map_id post)
    exact hpost p (hin p hpt) p (List.mem_flatMap.mpr ⟨v, hv, hp⟩) rfl
  have hpreTEq : preT.map (fun u => ({ u with paneTree := f u.paneTree } : SessionTab)) = preT := by
    refine (List.map_congr_left fun u hu => hkeepTab u fun p hp hpt => ?_).trans (List.map_id preT)
    exact hpreT p (List.mem_flatMap.mpr ⟨u, hu, hp⟩) p (List.mem_append_left _ hpt) rfl
  have hpostTEq : postT.map (fun u => ({ u with paneTree := f u.paneTree } : SessionTab)) =
      postT := by
    refine (List.map_congr_left fun u hu => hkeepTab u fun p hp hpt => ?_).trans (List.map_id postT)
    exact hpostT p hpt p (List.mem_flatMap.mpr ⟨u, hu, hp⟩) rfl
  rw [SessionLayout.withTree, hmod, hmodT, hsplit, List.map_append, List.map_cons, hpreEq, hpostEq,
    hsplitT, List.map_append, List.map_cons, hpreTEq, hpostTEq]

theorem treeAt_withTree {i j : ℕ} {l : SessionLayout}
    (h : (l.treeAt i j).isSome) (u : PaneTreeLayout) : (l.withTree i j u).treeAt i j = some u := by
  obtain ⟨t, ht⟩ := Option.isSome_iff_exists.mp h
  simp only [SessionLayout.treeAt, Option.map_eq_some_iff, Option.bind_eq_some_iff] at ht
  obtain ⟨tab, ⟨ws, hws, htab⟩, rfl⟩ := ht
  simp [SessionLayout.treeAt, SessionLayout.withTree, hws, htab]

theorem clampRatio_of_within {ratio : F32} (h : minRatio ≤ ratio ∧ ratio ≤ maxRatio) :
    clampRatio ratio = ratio := by
  have hmin : min ratio maxRatio = ratio := min_eq_left h.2
  rw [clampRatio, hmin]
  exact max_eq_right h.1

section Collected

variable {quot : ℤ → ℤ → F32} {states : PMap PaneName PaneId} {i j : ℕ}
  {tree assigned : PaneTreeLayout} {v : PaneWidget}

/-- What the ratios a window sends for one tab make of the layout. -/
theorem updateSplitRatios_collected (hd : s.layout.leaves.Nodup)
    (htree : s.layout.treeAt i j = some tree)
    (hshape : tree.relabel (·.direction) = assigned.relabel (·.direction))
    (hratio : ∀ l ∈ assigned.labels, minRatio ≤ l.ratio ∧ l.ratio ≤ maxRatio)
    (hv : measured quot states v = assigned.map some) :
    (s.updateSplitRatios (collectRatiosFromWidget quot states v [])).layout =
      s.layout.withTree i j (delivered false tree assigned) := by
  obtain ⟨ws, hws, tab, htab, rfl⟩ := exists_of_treeAt htree
  have hleaves := leaves_of_relabel hshape
  have hnodup := nodup_of_mem_tabs hd hws htab
  have hdelivered := (applyRatios_ratioUpdates hshape (hleaves ▸ hnodup)
    fun l hl => clampRatio_of_within (hratio l hl)).1
  have hmiss (u : PaneTreeLayout) (hu : ∀ p ∈ u.leaves, p ∉ tab.paneTree.leaves) :
      applyRatios (ratioUpdates assigned) u = u :=
    applyRatios_miss fun e he hm => hu _ hm (hleaves ▸ mem_leaves_of_ratioUpdates he)
  rw [collectRatiosFromWidget_eq hv, List.nil_append, updateSplitRatios_layout,
    mapTrees_eq_withTree hd htree hmiss, hdelivered]

end Collected

/-- The ratios measured on the widgets of a tab, each within the bounds, become the
ratios of its splits, and nothing else in the layout changes, exactly if the
outermost split of every chain of first children measures the ratio of the innermost
and the other splits of the chain measure the ratios they have. -/
theorem updateSplitRatios_collected_iff (quot : ℤ → ℤ → F32) (states : PMap PaneName PaneId)
    (s : SessionManager) (hd : s.layout.leaves.Nodup) (i j : ℕ) (tree assigned : PaneTreeLayout)
    (htree : s.layout.treeAt i j = some tree)
    (hshape : tree.relabel (·.direction) = assigned.relabel (·.direction))
    (hratio : ∀ l ∈ assigned.labels, minRatio ≤ l.ratio ∧ l.ratio ≤ maxRatio) (v : PaneWidget)
    (hv : measured quot states v = assigned.map some) :
    (s.updateSplitRatios (collectRatiosFromWidget quot states v [])).layout =
      s.layout.withTree i j assigned ↔ Arrives false tree assigned := by
  have hsome : (s.layout.treeAt i j).isSome := by rw [htree]; rfl
  rw [updateSplitRatios_collected hd htree hshape hratio hv, ← delivered_eq_iff hshape]
  constructor
  · intro h
    have := congrArg (SessionLayout.treeAt i j) h
    rwa [treeAt_withTree hsome, treeAt_withTree hsome, Option.some.injEq] at this
  · intro h
    rw [h]

end Layout

/-! ### Two splits -/

def exactQuotient (a b : ℤ) : F32 := (a : ℚ) / b

/-- A tab split, and one of its two panes split again. -/
def splitTwice (p : PaneId) : SessionManager :=
  (new .counting .empty).runOps .counting
    [.createTab 0 none .default none, .splitPane ⟨⟨1⟩⟩ "horizontal" .default none,
      .splitPane p "vertical" .default none]

def twiceStates : PMap PaneName PaneId :=
  ((PMap.empty.insert 0 ⟨⟨1⟩⟩).insert 1 ⟨⟨3⟩⟩).insert 2 ⟨⟨4⟩⟩

/-- The second pane split again: the divider between the tab's panes at a quarter,
the new one at three quarters. -/
def secondSplit (outer inner : F32) : PaneTreeLayout :=
  .node ⟨"horizontal", outer⟩ (.leaf ⟨⟨1⟩⟩)
    (.node ⟨"vertical", inner⟩ (.leaf ⟨⟨3⟩⟩) (.leaf ⟨⟨4⟩⟩))

def secondWidget : PaneWidget :=
  .node ⟨.horizontal, 200, 100, 50⟩ (.leaf 0)
    (.node ⟨.vertical, 150, 100, 75⟩ (.leaf 1) (.leaf 2))

/-- The first pane split again: the two splits are a chain. -/
def firstSplit (outer inner : F32) : PaneTreeLayout :=
  .node ⟨"horizontal", outer⟩
    (.node ⟨"vertical", inner⟩ (.leaf ⟨⟨1⟩⟩) (.leaf ⟨⟨4⟩⟩)) (.leaf ⟨⟨3⟩⟩)

def firstWidget : PaneWidget :=
  .node ⟨.horizontal, 200, 100, 50⟩
    (.node ⟨.vertical, 50, 100, 75⟩ (.leaf 0) (.leaf 2)) (.leaf 1)

theorem within_quarters {l : SplitLabel} (h : l.ratio = 1 / 4 ∨ l.ratio = 3 / 4) :
    minRatio ≤ l.ratio ∧ l.ratio ≤ maxRatio := by
  rcases h with h | h <;> rw [h] <;> norm_num [minRatio, maxRatio]

theorem updateSplitRatios_secondSplit :
    ((splitTwice ⟨⟨3⟩⟩).updateSplitRatios
        (collectRatiosFromWidget exactQuotient twiceStates secondWidget [])).layout =
      (splitTwice ⟨⟨3⟩⟩).layout.withTree 0 0 (secondSplit (1 / 4) (3 / 4)) := by
  refine (updateSplitRatios_collected_iff exactQuotient twiceStates (splitTwice ⟨⟨3⟩⟩) (by decide) 0 0
    (secondSplit (1 / 2) (1 / 2)) (secondSplit (1 / 4) (3 / 4)) rfl rfl ?_ secondWidget ?_).mpr ?_
  · intro l hl
    apply within_quarters
    have hl : l = ⟨"horizontal", 1 / 4⟩ ∨ l = ⟨"vertical", 3 / 4⟩ := by
      simpa [secondSplit, LeafTree.labels] using hl
    rcases hl with rfl | rfl <;> simp
  · norm_num [measured, secondWidget, secondSplit, LeafTree.relabel, LeafTree.map,
      Orientation.direction, Paned.ratio, Paned.size, exactQuotient, twiceStates, PMap.get_insert]
  · simp [Arrives, secondSplit, innermostRatio]

/-- In a chain the outer split gets the ratio of the inner one, which keeps its own. -/
theorem updateSplitRatios_firstSplit :
    let sent := collectRatiosFromWidget exactQuotient twiceStates firstWidget []
    let layout := ((splitTwice ⟨⟨1⟩⟩).updateSplitRatios sent).layout
    measured exactQuotient twiceStates firstWidget = (firstSplit (1 / 4) (3 / 4)).map some ∧
      layout.treeAt 0 0 = some (firstSplit (3 / 4) (1 / 2)) ∧
      layout ≠ (splitTwice ⟨⟨1⟩⟩).layout.withTree 0 0 (firstSplit (1 / 4) (3 / 4)) := by
  intro sent layout
  have hmeasured : measured exactQuotient twiceStates firstWidget =
      (firstSplit (1 / 4) (3 / 4)).map some := by
    norm_num [measured, firstWidget, firstSplit, LeafTree.relabel, LeafTree.map,
      Orientation.direction, Paned.ratio, Paned.size, exactQuotient, twiceStates, PMap.get_insert]
  have hlayout : layout = (splitTwice ⟨⟨1⟩⟩).layout.withTree 0 0 (firstSplit (3 / 4) (1 / 2)) := by
    refine @updateSplitRatios_collected (splitTwice ⟨⟨1⟩⟩) exactQuotient twiceStates 0 0
      (firstSplit (1 / 2) (1 / 2)) (firstSplit (1 / 4) (3 / 4)) firstWidget (by decide) rfl rfl ?_
      hmeasured
    intro l hl
    apply within_quarters
    have hl : l = ⟨"horizontal", 1 / 4⟩ ∨ l = ⟨"vertical", 3 / 4⟩ := by
      simpa [firstSplit, LeafTree.labels] using hl
    rcases hl with rfl | rfl <;> simp
  have hsome : ((splitTwice ⟨⟨1⟩⟩).layout.treeAt 0 0).isSome := rfl
  refine ⟨hmeasured, ?_, fun h => ?_⟩
  · rw [hlayout, treeAt_withTree hsome]
  · have := congrArg (SessionLayout.treeAt 0 0) (hlayout.symm.trans h)
    rw [treeAt_withTree hsome, treeAt_withTree hsome] at this
    norm_num [firstSplit] at this

end Forgetty
