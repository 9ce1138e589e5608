import Forgetty.Lib.TreePath
import Forgetty.Session.Layout

/-! Splitting a leaf. The recursion stops at the first leaf with the pane, and what it does there
is all that it does. -/

namespace Forgetty

open Lib

/-- A tree that comes of another one by a split of its first leaf `target`. -/
structure SplitsLeaf (target newPane : PaneId) (label : SplitLabel) (t t' : PaneTreeLayout) :
    Prop where
  leaves : ∃ before after, target ∉ before ∧ t.leaves = before ++ target :: after ∧
    t'.leaves = before ++ target :: newPane :: after
  splits : t'.labels.length = t.labels.length + 1
  /-- The new split is in the place of the leaf, and without it the tree is the old one. -/
  contracted : ∃ path, t.subtreeAt path = some (.leaf target) ∧
    t'.subtreeAt path = some (.node label (.leaf target) (.leaf newPane)) ∧
    t'.contractAt path = t

section Split

variable {target newPane : PaneId} {direction : String} {ratio : F32} {path : List Bool}

/-- The recursion goes along the path to the first leaf. -/
theorem replaceLeafWithRatio_eq_modifyAt {t : PaneTreeLayout} (h : t.pathTo target = some path) :
    replaceLeafWithRatio target newPane direction ratio t =
      (t.modifyAt (fun _ => .node ⟨direction, ratio⟩ (.leaf target) (.leaf newPane)) path, true) := by
  induction t generalizing path with
  | leaf paneId =>
    obtain ⟨rfl, hpath⟩ := Option.ite_none_right_eq_some.mp h
    obtain rfl := Option.some.inj hpath
    rw [replaceLeafWithRatio, if_pos rfl]
    rfl
  | node label first second hfirst hsecond =>
    rw [LeafTree.pathTo] at h
    rw [replaceLeafWithRatio]
    cases hpath : first.pathTo target with
    | some inFirst =>
      rw [hpath] at h
      obtain rfl := Option.some.inj h
      rw [hfirst hpath]
      rfl
    | none =>
      rw [hpath] at h
      obtain ⟨inSecond, hpath', rfl⟩ := Option.map_eq_some_iff.mp h
      rw [replaceLeafWithRatio_miss (LeafTree.pathTo_eq_none_iff.mp hpath), hsecond hpath']
      rfl

theorem splitsLeaf_of_pathTo {t : PaneTreeLayout} (h : t.pathTo target = some path) :
    SplitsLeaf target newPane ⟨direction, ratio⟩ t
      (replaceLeafWithRatio target newPane direction ratio t).1 := by
  have hleaf := LeafTree.subtreeAt_pathTo h
  rw [replaceLeafWithRatio_eq_modifyAt h]
  constructor
  case leaves =>
    obtain ⟨before, after, hfirst, hleaves, hnew⟩ := LeafTree.leaves_modifyAt_pathTo h
      fun _ => .node ⟨direction, ratio⟩ (.leaf target) (.leaf newPane)
    refine ⟨before, after, hfirst, hleaves, hnew.trans ?_⟩
    rw [List.append_assoc]
    rfl
  case splits =>
    exact LeafTree.length_labels_modifyAt hleaf
  case contracted =>
    refine ⟨path, hleaf, ?_, ?_⟩
    · rw [LeafTree.subtreeAt_modifyAt, hleaf]
      rfl
    · rw [LeafTree.contractAt, LeafTree.modifyAt_modifyAt]
      exact LeafTree.modifyAt_eq_self hleaf rfl

end Split

/-- The flag tells whether the pane is a leaf. Without one nothing changes, and with one the first
leaf with the pane is split. -/
theorem replaceLeafWithRatio_splits (target newPane : PaneId) (direction : String) (ratio : F32)
    (t : PaneTreeLayout) :
    ((replaceLeafWithRatio target newPane direction ratio t).2 = true ↔ target ∈ t.leaves) ∧
    ((replaceLeafWithRatio target newPane direction ratio t).2 = false →
      (replaceLeafWithRatio target newPane direction ratio t).1 = t) ∧
    ((replaceLeafWithRatio target newPane direction ratio t).2 = true →
      SplitsLeaf target newPane ⟨direction, ratio⟩ t
        (replaceLeafWithRatio target newPane direction ratio t).1) := by
  refine ⟨replaceLeafWithRatio_hit t, fun hmiss => ?_, fun hhit => ?_⟩
  · have hleaf : target ∉ t.leaves := by
      rw [← @replaceLeafWithRatio_hit target newPane direction ratio t, hmiss]
      exact Bool.false_ne_true
    rw [replaceLeafWithRatio_miss hleaf]
  · cases hpath : t.pathTo target with
    | none =>
      exact absurd ((replaceLeafWithRatio_hit t).mp hhit) (LeafTree.pathTo_eq_none_iff.mp hpath)
    | some path => exact splitsLeaf_of_pathTo hpath

end Forgetty
