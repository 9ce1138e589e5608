import Forgetty.Core.Basic
import Forgetty.Lib.LeafTree

/-! The layout a daemon owns: workspaces, tabs, and for every tab a binary tree
of panes. With it the recursive functions of the session manager on pane trees,
each next to the tree operation it computes. -/

namespace Forgetty

open Lib

/-- The label of a split: `"horizontal"` or `"vertical"`, and the share of the
first child. -/
structure SplitLabel where
  direction : String
  ratio : F32
  deriving DecidableEq, Repr

/-- The pane tree of a tab: panes at the leaves, splits at the nodes. -/
abbrev PaneTreeLayout := LeafTree SplitLabel PaneId

structure SessionTab where
  id : Uuid
  title : String
  paneTree : PaneTreeLayout
  /-- The focused leaf; `none` stands for the leftmost one. -/
  activePaneId : Option PaneId
  deriving DecidableEq, Repr

structure SessionWorkspace where
  id : Uuid
  name : String
  tabs : List SessionTab
  activeTab : ℕ
  color : Option String
  deriving DecidableEq, Repr

structure SessionLayout where
  workspaces : List SessionWorkspace
  activeWorkspace : ℕ
  deriving DecidableEq, Repr

/-! ### Functions on pane trees -/

/-- Split the first leaf `target`: the old pane first, the new one second. The
flag tells whether a leaf was found. -/
def replaceLeafWithRatio (target newPane : PaneId) (direction : String) (ratio : F32) :
    PaneTreeLayout → PaneTreeLayout × Bool
  | .leaf paneId =>
    if paneId = target then
      (.node { direction := direction, ratio := ratio } (.leaf target) (.leaf newPane), true)
    else (.leaf paneId, false)
  | .node label first second =>
    let inFirst := replaceLeafWithRatio target newPane direction ratio first
    if inFirst.2 then (.node label inFirst.1 second, true)
    else
      let inSecond := replaceLeafWithRatio target newPane direction ratio second
      (.node label inFirst.1 inSecond.1, inSecond.2)

def replaceLeaf (target newPane : PaneId) (direction : String) (tree : PaneTreeLayout) :
    PaneTreeLayout × Bool :=
  replaceLeafWithRatio target newPane direction (1 / 2) tree

def leftmostLeafId : PaneTreeLayout → Option PaneId
  | .leaf paneId => some paneId
  | .node _ first _ => leftmostLeafId first

/-- Set the ratio of the first split whose first child has `target` as its
leftmost leaf. -/
def updateRatioForPane (target : PaneId) (newRatio : F32) :
    PaneTreeLayout → PaneTreeLayout × Bool
  | .leaf paneId => (.leaf paneId, false)
  | .node label first second =>
    if leftmostLeafId first = some target then
      (.node { label with ratio := newRatio } first second, true)
    else
      let inFirst := updateRatioForPane target newRatio first
      if inFirst.2 then (.node label inFirst.1 second, true)
      else
        let inSecond := updateRatioForPane target newRatio second
        (.node label inFirst.1 inSecond.1, inSecond.2)

def paneTreeContainsLeaf (target : PaneId) : PaneTreeLayout → Bool
  | .leaf paneId => paneId = target
  | .node _ first second =>
    paneTreeContainsLeaf target first || paneTreeContainsLeaf target second

/-- Push the pane ids of the tree behind the ones collected so far. -/
def collectPaneIds : PaneTreeLayout → List PaneId → List PaneId
  | .leaf paneId, out => out ++ [paneId]
  | .node _ first second, out => collectPaneIds second (collectPaneIds first out)

theorem collectPaneIds_eq (t : PaneTreeLayout) (out : List PaneId) :
    collectPaneIds t out = out ++ t.leaves := by
  induction t generalizing out with
  | leaf p => rfl
  | node n l r hl hr => simp [collectPaneIds, hl, hr]

theorem updateRatioForPane_leaves (p : PaneId) (ratio : F32) (t : PaneTreeLayout) :
    (updateRatioForPane p ratio t).1.leaves = t.leaves := by
  induction t with
  | leaf q => rfl
  | node n l r hl hr =>
    simp only [updateRatioForPane]
    split_ifs <;> simp [hl, hr]

theorem leftmostLeafId_eq (t : PaneTreeLayout) : leftmostLeafId t = some t.leftmost := by
  induction t with
  | leaf p => rfl
  | node n l r hl hr => exact hl

@[simp] theorem paneTreeContainsLeaf_iff (p : PaneId) (t : PaneTreeLayout) :
    paneTreeContainsLeaf p t = true ↔ p ∈ t.leaves := by
  induction t with
  | leaf q => simp [paneTreeContainsLeaf, eq_comm]
  | node n l r hl hr => simp [paneTreeContainsLeaf, hl, hr]

section ReplaceLeaf

variable {target newPane : PaneId} {direction : String} {ratio : F32}

/-- The flag is set exactly when the target is a leaf. -/
theorem replaceLeafWithRatio_hit (t : PaneTreeLayout) :
    (replaceLeafWithRatio target newPane direction ratio t).2 = true ↔ target ∈ t.leaves := by
  induction t with
  | leaf p =>
    by_cases h : p = target
    · simp [replaceLeafWithRatio, h]
    · simp [replaceLeafWithRatio, h, Ne.symm h]
  | node n l r hl hr =>
    simp only [replaceLeafWithRatio, LeafTree.leaves_node, List.mem_append, ← hl, ← hr]
    split_ifs with h <;> simp [h]

/-- Without a hit the tree is the old one. -/
theorem replaceLeafWithRatio_miss {t : PaneTreeLayout} (h : target ∉ t.leaves) :
    replaceLeafWithRatio target newPane direction ratio t = (t, false) := by
  induction t with
  | leaf p =>
    have : p ≠ target := by simpa [eq_comm] using h
    simp [replaceLeafWithRatio, this]
  | node n l r hl hr =>
    simp only [LeafTree.leaves_node, List.mem_append, not_or] at h
    simp [replaceLeafWithRatio, hl h.1, hr h.2]

/-- A hit adds the new pane to the leaves. -/
theorem replaceLeafWithRatio_leaves {t : PaneTreeLayout} (h : target ∈ t.leaves) :
    (replaceLeafWithRatio target newPane direction ratio t).1.leaves.Perm
      (t.leaves ++ [newPane]) := by
  induction t with
  | leaf p =>
    have : p = target := by simpa [eq_comm] using h
    simp [replaceLeafWithRatio, this]
  | node n l r hl hr =>
    rw [replaceLeafWithRatio]
    by_cases hm : target ∈ l.leaves
    · simp only [(replaceLeafWithRatio_hit l).mpr hm, if_true, LeafTree.leaves_node]
      refine ((hl hm).append_right _).trans ?_
      simp only [List.append_assoc]
      exact List.Perm.append_left _ List.perm_append_comm
    · have hmr : target ∈ r.leaves := by simpa [hm] using h
      rw [replaceLeafWithRatio_miss hm]
      simp only [Bool.false_eq_true, if_false, LeafTree.leaves_node, List.append_assoc]
      exact List.Perm.append_left _ (hr hmr)

/-- In a tree without repeated leaves a hit is a substitution. -/
theorem replaceLeafWithRatio_eq_subst {t : PaneTreeLayout} (hd : t.leaves.Nodup)
    (h : target ∈ t.leaves) :
    (replaceLeafWithRatio target newPane direction ratio t).1 =
      t.subst target (.node ⟨direction, ratio⟩ (.leaf target) (.leaf newPane)) := by
  induction t with
  | leaf p =>
    have : p = target := by simpa [eq_comm] using h
    simp [replaceLeafWithRatio, this]
  | node n l r hl hr =>
    rw [LeafTree.leaves_node, List.nodup_append] at hd
    obtain ⟨hdl, hdr, hdisj⟩ := hd
    rw [replaceLeafWithRatio, LeafTree.subst_node]
    by_cases hm : target ∈ l.leaves
    · have hmr : target ∉ r.leaves := fun hr' => hdisj target hm target hr' rfl
      rw [LeafTree.subst_of_not_mem hmr, ← hl hdl hm]
      simp [(replaceLeafWithRatio_hit l).mpr hm]
    · have hmr : target ∈ r.leaves := by simpa [hm] using h
      rw [LeafTree.subst_of_not_mem hm, ← hr hdr hmr]
      simp [replaceLeafWithRatio_miss hm]

end ReplaceLeaf

/-! ### Leaves of a layout -/

/-- The panes of a workspace, in tab order. -/
def SessionWorkspace.leaves (ws : SessionWorkspace) : List PaneId :=
  ws.tabs.flatMap fun t => t.paneTree.leaves

/-- The panes of the whole layout. -/
def SessionLayout.leaves (l : SessionLayout) : List PaneId :=
  l.workspaces.flatMap SessionWorkspace.leaves

/-- The initial layout: one empty workspace. -/
def SessionLayout.newDefault (id : Uuid) : SessionLayout where
  workspaces := [{ id := id, name := "Default", tabs := [], activeTab := 0, color := none }]
  activeWorkspace := 0

end Forgetty
