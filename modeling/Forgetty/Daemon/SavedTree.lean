import Forgetty.Daemon.Restore

/-! A saved tree and a live tree with the same ids. The first leaf of the one is the first
leaf of the other, and each leaf of the one is found at its place in the other. -/

namespace Forgetty

open Lib

theorem firstLeafPaneId_eq (t : PaneTreeState) : firstLeafPaneId t = t.leftmost.paneId := by
  induction t with
  | leaf l => rfl
  | node label first second ih₁ _ => exact ih₁

/-- Directions, ratios and pane ids of the live tree are the saved ones. -/
def SameTree (saved : PaneTreeState) (live : PaneTreeLayout) : Prop :=
  live.map (fun p => some p.uuid) = saved.map (·.paneId)

/-- A saved tree that has all its ids is that of some panes. -/
theorem exists_sameTree {t : PaneTreeState} (h : ∀ l ∈ t.leaves, l.paneId ≠ none) :
    ∃ u, SameTree t u := by
  induction t with
  | leaf l =>
    obtain ⟨pid, hpid⟩ := Option.ne_none_iff_exists'.mp (h l List.mem_cons_self)
    exact ⟨.leaf ⟨pid⟩, congrArg LeafTree.leaf hpid.symm⟩
  | node label first second ih₁ ih₂ =>
    obtain ⟨u₁, h₁⟩ := ih₁ fun l hl => h l (List.mem_append_left _ hl)
    obtain ⟨u₂, h₂⟩ := ih₂ fun l hl => h l (List.mem_append_right _ hl)
    exact ⟨.node label u₁ u₂, congr (congrArg (LeafTree.node label) h₁) h₂⟩

section SameTree

variable {label : SplitLabel} {first second t : PaneTreeState} {u : PaneTreeLayout}

theorem SameTree.of_leaf {l : SavedLeaf} (h : SameTree (.leaf l) u) :
    ∃ p, u = .leaf p ∧ l.paneId = some p.uuid := by
  cases u with
  | node label u₁ u₂ => cases h
  | leaf p => exact ⟨p, rfl, (LeafTree.leaf.inj h).symm⟩

theorem SameTree.of_node (h : SameTree (.node label first second) u) :
    ∃ u₁ u₂, u = .node label u₁ u₂ ∧ SameTree first u₁ ∧ SameTree second u₂ := by
  cases u with
  | leaf p => cases h
  | node label' u₁ u₂ =>
    obtain ⟨rfl, h₁, h₂⟩ := LeafTree.node.inj h
    exact ⟨u₁, u₂, rfl, h₁, h₂⟩

theorem SameTree.leaves (h : SameTree t u) :
    u.leaves.map (fun p => some p.uuid) = t.leaves.map (·.paneId) := by
  rw [← LeafTree.leaves_map, ← LeafTree.leaves_map, h]

theorem SameTree.anchors (h : SameTree t u) :
    u.anchors.map (fun p => some p.uuid) = t.anchors.map (·.paneId) := by
  rw [← LeafTree.anchors_map, ← LeafTree.anchors_map, h]

/-- No anchor has the id of one of these panes. -/
theorem SameTree.forall_anchors (h : SameTree t u) (ps : List PaneId) :
    (∀ l ∈ t.anchors, ∀ p ∈ ps, l.paneId ≠ some p.uuid) ↔ ∀ p ∈ u.anchors, p ∉ ps := by
  have hmap : (∀ l ∈ t.anchors, ∀ p ∈ ps, l.paneId ≠ some p.uuid) ↔
      ∀ pid ∈ t.anchors.map (·.paneId), ∀ p ∈ ps, pid ≠ some p.uuid := by
    rw [List.forall_mem_map]
  rw [hmap, ← h.anchors, List.forall_mem_map]
  refine forall₂_congr fun p _ => ⟨fun hne hp => hne p hp rfl, fun hp q hq heq => hp ?_⟩
  obtain rfl : p = q := congrArg PaneId.mk (Option.some.inj heq)
  exact hq

theorem SameTree.firstLeafPaneId (h : SameTree t u) :
    Forgetty.firstLeafPaneId t = some u.leftmost.uuid := by
  have hleft := congrArg LeafTree.leftmost h
  rw [LeafTree.leftmost_map, LeafTree.leftmost_map] at hleft
  rw [firstLeafPaneId_eq, hleft]

/-- A leaf that is there is found. -/
theorem SameTree.livePaneIdForSaved (h : SameTree t u) (pid : Uuid) :
    Forgetty.livePaneIdForSaved pid t u = if ⟨pid⟩ ∈ u.leaves then some ⟨pid⟩ else none := by
  induction t generalizing u with
  | leaf l =>
    obtain ⟨p, rfl, hl⟩ := h.of_leaf
    simp only [Forgetty.livePaneIdForSaved, hl, LeafTree.leaves_leaf, List.mem_singleton,
      Option.some.injEq]
    by_cases hp : p.uuid = pid
    · rw [if_pos hp, if_pos (congrArg PaneId.mk hp.symm), ← hp]
    · rw [if_neg hp, if_neg fun heq => hp (congrArg PaneId.uuid heq).symm]
  | node label first second ih₁ ih₂ =>
    obtain ⟨u₁, u₂, rfl, h₁, h₂⟩ := h.of_node
    rw [Forgetty.livePaneIdForSaved, ih₁ h₁, ih₂ h₂, LeafTree.leaves_node]
    by_cases hp : (⟨pid⟩ : PaneId) ∈ u₁.leaves <;> simp [hp]

theorem SameTree.finds (h : SameTree t u) {path : List Bool} {l : SavedLeaf} {pid : Uuid}
    (hl : t.leafAt path = some l) (hpid : l.paneId = some pid) :
    u.leafAt path = some ⟨pid⟩ ∧ Forgetty.livePaneIdForSaved pid t u = some ⟨pid⟩ := by
  have hat := congrArg (LeafTree.leafAt path) h
  rw [LeafTree.leafAt_map, LeafTree.leafAt_map, hl, Option.map_some, hpid,
    Option.map_eq_some_iff] at hat
  obtain ⟨p, hp, hp'⟩ := hat
  obtain rfl : p = ⟨pid⟩ := congrArg PaneId.mk (Option.some.inj hp')
  exact ⟨hp, by rw [h.livePaneIdForSaved, if_pos (LeafTree.mem_leaves_of_leafAt hp)]⟩

end SameTree

end Forgetty
