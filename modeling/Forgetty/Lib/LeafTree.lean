import Mathlib.Data.List.Nodup
import Mathlib.Tactic.Common

/-! Binary trees with labelled nodes and data at the leaves, with the monadic
structure that replaces leaves by trees and the pruning that removes leaves and
puts the sibling in the place of the node that lost a child. -/

namespace Forgetty.Lib

inductive LeafTree (ν α : Type*) where
  | leaf (a : α)
  | node (label : ν) (first second : LeafTree ν α)
  deriving DecidableEq, Repr

namespace LeafTree

variable {ν α β γ : Type*}

/-- The leaves from left to right. -/
def leaves : LeafTree ν α → List α
  | leaf a => [a]
  | node _ l r => l.leaves ++ r.leaves

/-- The leftmost leaf. -/
def leftmost : LeafTree ν α → α
  | leaf a => a
  | node _ l _ => l.leftmost

/-- How many nodes are inside one another. -/
def height : LeafTree ν α → ℕ
  | leaf _ => 0
  | node _ l r => 1 + max l.height r.height

/-- The leftmost leaf below every node. -/
def anchors : LeafTree ν α → List α
  | leaf _ => []
  | node _ l r => l.leftmost :: (l.anchors ++ r.anchors)

/-- The leaf at the end of a path, which goes to the second child at `true`. -/
def leafAt : List Bool → LeafTree ν α → Option α
  | [], leaf a => some a
  | second :: path, node _ l r => if second then r.leafAt path else l.leafAt path
  | _, _ => none

def map (f : α → β) : LeafTree ν α → LeafTree ν β
  | leaf a => leaf (f a)
  | node n l r => node n (l.map f) (r.map f)

/-- Replace every leaf by a tree. -/
def bind : LeafTree ν α → (α → LeafTree ν β) → LeafTree ν β
  | leaf a, f => f a
  | node n l r, f => node n (l.bind f) (r.bind f)

@[simp] theorem leaves_leaf (a : α) : (leaf a : LeafTree ν α).leaves = [a] := rfl

@[simp] theorem leaves_node (n : ν) (l r : LeafTree ν α) :
    (node n l r).leaves = l.leaves ++ r.leaves := rfl

@[simp] theorem leaves_ne_nil (t : LeafTree ν α) : t.leaves ≠ [] := by
  induction t with
  | leaf a => simp
  | node n l r hl hr => simp [hl]

theorem leaves_length_pos (t : LeafTree ν α) : 0 < t.leaves.length :=
  List.length_pos_iff.mpr t.leaves_ne_nil

theorem head?_leaves (t : LeafTree ν α) : t.leaves.head? = some t.leftmost := by
  induction t with
  | leaf a => rfl
  | node n l r hl hr => simp [leftmost, hl]

theorem leftmost_mem (t : LeafTree ν α) : t.leftmost ∈ t.leaves :=
  List.mem_of_mem_head? (by rw [head?_leaves]; rfl)

/-- A tree with one leaf is that leaf. -/
theorem eq_leaf_of_length {t : LeafTree ν α} (h : t.leaves.length ≤ 1) : t = leaf t.leftmost := by
  cases t with
  | leaf a => rfl
  | node n l r =>
    have := l.leaves_length_pos
    have := r.leaves_length_pos
    simp only [leaves_node, List.length_append] at h
    omega

@[simp] theorem leaves_map (f : α → β) (t : LeafTree ν α) :
    (t.map f).leaves = t.leaves.map f := by
  induction t with
  | leaf a => rfl
  | node n l r hl hr => simp [map, hl, hr]

@[simp] theorem leftmost_map (f : α → β) (t : LeafTree ν α) :
    (t.map f).leftmost = f t.leftmost := by
  induction t with
  | leaf a => rfl
  | node n l r hl hr => exact hl

@[simp] theorem map_map (f : α → β) (g : β → γ) (t : LeafTree ν α) :
    (t.map f).map g = t.map (g ∘ f) := by
  induction t with
  | leaf a => rfl
  | node n l r hl hr => simp [map, hl, hr]

@[simp] theorem anchors_map (f : α → β) (t : LeafTree ν α) :
    (t.map f).anchors = t.anchors.map f := by
  induction t with
  | leaf a => rfl
  | node n l r hl hr => simp [map, anchors, hl, hr]

@[simp] theorem leafAt_map (f : α → β) (path : List Bool) (t : LeafTree ν α) :
    (t.map f).leafAt path = (t.leafAt path).map f := by
  induction t generalizing path with
  | leaf a => cases path <;> rfl
  | node n l r hl hr =>
    cases path with
    | nil => rfl
    | cons second path =>
      simp only [map, leafAt, hl, hr]
      split_ifs <;> rfl

theorem mem_leaves_of_leafAt {path : List Bool} {a : α} {t : LeafTree ν α}
    (h : t.leafAt path = some a) : a ∈ t.leaves := by
  induction t generalizing path with
  | leaf x =>
    cases path with
    | nil => simpa [leafAt, eq_comm] using h
    | cons second path => cases h
  | node n l r hl hr =>
    cases path with
    | nil => cases h
    | cons second path =>
      rw [leafAt] at h
      split_ifs at h
      · exact List.mem_append_right _ (hr h)
      · exact List.mem_append_left _ (hl h)

theorem map_congr {f g : α → β} {t : LeafTree ν α} (h : ∀ a ∈ t.leaves, f a = g a) :
    t.map f = t.map g := by
  induction t with
  | leaf a => simp [map, h a (by simp)]
  | node n l r hl hr =>
    simp only [map, hl fun a ha => h a (by simp [ha]), hr fun a ha => h a (by simp [ha])]

@[simp] theorem map_id (t : LeafTree ν α) : t.map id = t := by
  induction t with
  | leaf a => rfl
  | node n l r hl hr => simp [map, hl, hr]

@[simp] theorem leaves_bind (t : LeafTree ν α) (f : α → LeafTree ν β) :
    (t.bind f).leaves = t.leaves.flatMap fun a => (f a).leaves := by
  induction t with
  | leaf a => simp [bind]
  | node n l r hl hr => simp [bind, hl, hr]

theorem bind_congr {f g : α → LeafTree ν β} {t : LeafTree ν α} (h : ∀ a ∈ t.leaves, f a = g a) :
    t.bind f = t.bind g := by
  induction t with
  | leaf a => exact h a (by simp)
  | node n l r hl hr =>
    simp only [bind, hl fun a ha => h a (by simp [ha]), hr fun a ha => h a (by simp [ha])]

@[simp] theorem bind_leaf (t : LeafTree ν α) : t.bind leaf = t := by
  induction t with
  | leaf a => rfl
  | node n l r hl hr => simp [bind, hl, hr]

theorem bind_assoc (t : LeafTree ν α) (f : α → LeafTree ν β) (g : β → LeafTree ν γ) :
    (t.bind f).bind g = t.bind fun a => (f a).bind g := by
  induction t with
  | leaf a => rfl
  | node n l r hl hr => simp [bind, hl, hr]

/-- The labels of the nodes, every node before its children. -/
def labels : LeafTree ν α → List ν
  | leaf _ => []
  | node n l r => n :: (l.labels ++ r.labels)

/-- Change the labels of the nodes. -/
def relabel {μ : Type*} (f : ν → μ) : LeafTree ν α → LeafTree μ α
  | leaf a => leaf a
  | node n l r => node (f n) (l.relabel f) (r.relabel f)

@[simp] theorem leaves_relabel {μ : Type*} (f : ν → μ) (t : LeafTree ν α) :
    (t.relabel f).leaves = t.leaves := by
  induction t with
  | leaf a => rfl
  | node n l r hl hr => simp [relabel, hl, hr]

/-- A tree that can be put in the place of its leftmost leaf without a repetition. -/
structure Fits (u : LeafTree ν α) (xs : List α) : Prop where
  nodup : xs.Nodup
  anchor : u.leftmost ∈ xs
  distinct : u.leaves.Nodup
  fresh : ∀ x ∈ u.leaves, x ≠ u.leftmost → x ∉ xs

section Fits

variable {n : ν} {l r : LeafTree ν α} {xs : List α}

theorem Fits.ne (h : Fits (node n l r) xs) : l.leftmost ≠ r.leftmost :=
  (List.nodup_append.mp h.distinct).2.2 _ l.leftmost_mem _ r.leftmost_mem

theorem Fits.not_mem (h : Fits (node n l r) xs) : r.leftmost ∉ xs :=
  h.fresh _ (List.mem_append_right _ r.leftmost_mem) h.ne.symm

theorem Fits.not_mem_first (h : Fits (node n l r) xs) : r.leftmost ∉ l.leaves := fun hmem =>
  (List.nodup_append.mp h.distinct).2.2 _ hmem _ r.leftmost_mem rfl

end Fits

section Decidable

variable [DecidableEq α]

/-- Put the tree `u` in the place of every leaf `a`. -/
def subst (t : LeafTree ν α) (a : α) (u : LeafTree ν α) : LeafTree ν α :=
  t.bind fun x => if x = a then u else leaf x

@[simp] theorem subst_leaf_self (a : α) (u : LeafTree ν α) : (leaf a).subst a u = u := by
  simp [subst, bind]

theorem subst_of_not_mem {a : α} {u t : LeafTree ν α} (h : a ∉ t.leaves) : t.subst a u = t := by
  rw [subst, bind_congr (g := leaf), bind_leaf]
  intro x hx
  rw [if_neg (by rintro rfl; exact h hx)]

@[simp] theorem subst_node (a : α) (u : LeafTree ν α) (n : ν) (l r : LeafTree ν α) :
    (node n l r).subst a u = node n (l.subst a u) (r.subst a u) := rfl

@[simp] theorem subst_self (a : α) (t : LeafTree ν α) : t.subst a (leaf a) = t := by
  rw [subst, bind_congr (g := leaf), bind_leaf]
  intro x _
  split_ifs with h
  · rw [h]
  · rfl

/-- Different trees in the place of a leaf make different trees. -/
theorem subst_injective {a : α} {u v t : LeafTree ν α} (h : a ∈ t.leaves)
    (huv : t.subst a u = t.subst a v) : u = v := by
  induction t with
  | leaf x =>
    obtain rfl : a = x := by simpa using h
    simpa using huv
  | node n l r hl hr =>
    simp only [subst_node, node.injEq, true_and] at huv
    rcases List.mem_append.mp h with h | h
    · exact hl h huv.1
    · exact hr h huv.2

@[simp] theorem relabel_subst {μ : Type*} (f : ν → μ) (a : α) (u t : LeafTree ν α) :
    (t.subst a u).relabel f = (t.relabel f).subst a (u.relabel f) := by
  induction t with
  | leaf x =>
    show (if x = a then u else leaf x).relabel f = if x = a then u.relabel f else leaf x
    split_ifs <;> rfl
  | node n l r hl hr => simp only [subst_node, relabel, hl, hr]

/-- Substituting before and after the leaves are renamed, when only the renamed
leaf becomes the new one. -/
theorem map_subst [DecidableEq β] {f g : α → β} {a : α} (u t : LeafTree ν α)
    (hf : ∀ x ∈ t.leaves, x ≠ a → g x = f x) (hinj : ∀ x ∈ t.leaves, f x = f a → x = a) :
    (t.subst a u).map g = (t.map f).subst (f a) (u.map g) := by
  induction t with
  | leaf x =>
    by_cases hx : x = a
    · subst hx
      rw [subst_leaf_self]
      exact (subst_leaf_self (f x) (u.map g)).symm
    · have hfx : f x ≠ f a := fun h => hx (hinj x (by simp) h)
      rw [subst_of_not_mem (by simpa using Ne.symm hx)]
      show leaf (g x) = (leaf (f x)).subst (f a) (u.map g)
      rw [subst_of_not_mem (by simpa using Ne.symm hfx), hf x (by simp) hx]
  | node n l r hl hr =>
    simp only [subst_node, map, node.injEq, true_and]
    exact ⟨hl (fun x hx => hf x (by simp [hx])) fun x hx => hinj x (by simp [hx]),
      hr (fun x hx => hf x (by simp [hx])) fun x hx => hinj x (by simp [hx])⟩

/-- Substituting twice: the second substitution goes into the tree of the first,
and into the leaves the first one left alone. -/
theorem subst_subst {a b : α} {u v t : LeafTree ν α} (h : b = a ∨ b ∉ t.leaves) :
    (t.subst a u).subst b v = t.subst a (u.subst b v) := by
  rw [subst, subst, bind_assoc, subst]
  apply bind_congr
  intro x hx
  split_ifs with hxa
  · rfl
  · have hxb : x ≠ b := by
      rcases h with rfl | h
      · exact hxa
      · rintro rfl; exact h hx
    simp [bind, hxb]

/-- A list with the elements `us` in the place of `a`. -/
def fill (a : α) (us l : List α) : List α := l.flatMap fun x => if x = a then us else [x]

theorem mem_fill {a x : α} {us l : List α} :
    x ∈ fill a us l ↔ x ∈ l ∧ x ≠ a ∨ a ∈ l ∧ x ∈ us := by
  rw [fill, List.mem_flatMap]
  constructor
  · rintro ⟨y, hy, hx⟩
    split_ifs at hx with hya
    · exact Or.inr ⟨hya ▸ hy, hx⟩
    · rw [List.mem_singleton] at hx
      exact Or.inl ⟨hx ▸ hy, hx ▸ hya⟩
  · rintro (⟨hx, hne⟩ | ⟨ha, hx⟩)
    · exact ⟨x, hx, by simp [hne]⟩
    · exact ⟨a, ha, by simpa using hx⟩

/-- A place in a list without repetitions is filled with something new. -/
theorem nodup_fill {l us : List α} {a : α} (hl : l.Nodup) (hu : us.Nodup)
    (hnew : ∀ x ∈ us, x ≠ a → x ∉ l) : (fill a us l).Nodup := by
  rw [fill, List.nodup_flatMap]
  constructor
  · intro x _
    split_ifs
    · exact hu
    · exact List.nodup_singleton x
  · refine List.Pairwise.imp_of_mem (fun {x y} hx hy hxy => ?_) hl
    show List.Disjoint _ _
    intro z hzx hzy
    dsimp only at hzx hzy
    split_ifs at hzx hzy with hxa hya hya
    · exact hxy (hxa.trans hya.symm)
    · obtain rfl := List.mem_singleton.mp hzy
      exact hnew z hzx hya hy
    · obtain rfl := List.mem_singleton.mp hzx
      exact hnew z hzy hxa hx
    · exact hxy ((List.mem_singleton.mp hzx).symm.trans (List.mem_singleton.mp hzy))

theorem leaves_subst (a : α) (u t : LeafTree ν α) :
    (t.subst a u).leaves = fill a u.leaves t.leaves := by
  rw [subst, leaves_bind, fill]
  congr! 2 with x
  split_ifs <;> rfl

section Fits

variable {n : ν} {l r : LeafTree ν α} {xs : List α}

/-- With the two leftmost leaves there, the first child can be put in. -/
theorem Fits.first (h : Fits (node n l r) xs) :
    Fits l (fill l.leftmost [l.leftmost, r.leftmost] xs) where
  nodup := by
    refine nodup_fill h.nodup (by simpa using h.ne) fun x hx hxl => ?_
    obtain rfl : x = r.leftmost := by simpa [hxl] using hx
    exact h.not_mem
  anchor := mem_fill.mpr (Or.inr ⟨h.anchor, by simp⟩)
  distinct := (List.nodup_append.mp h.distinct).1
  fresh x hx hxl hmem := by
    rcases mem_fill.mp hmem with ⟨hx', -⟩ | ⟨-, hx'⟩
    · exact h.fresh x (List.mem_append_left _ hx) hxl hx'
    · obtain rfl : x = r.leftmost := by simpa [hxl] using hx'
      exact h.not_mem_first hx

/-- After that the second child can be put in. -/
theorem Fits.second (h : Fits (node n l r) xs) :
    Fits r (fill l.leftmost (l.leaves ++ [r.leftmost]) xs) where
  nodup := by
    refine nodup_fill h.nodup ?_ fun x hx hxl => ?_
    · rw [← List.concat_eq_append, List.nodup_concat]
      exact ⟨h.not_mem_first, (List.nodup_append.mp h.distinct).1⟩
    · rcases List.mem_append.mp hx with hx | hx
      · exact h.fresh x (List.mem_append_left _ hx) hxl
      · exact List.mem_singleton.mp hx ▸ h.not_mem
  anchor := mem_fill.mpr (Or.inr ⟨h.anchor, by simp⟩)
  distinct := (List.nodup_append.mp h.distinct).2.1
  fresh x hx hxr hmem := by
    rcases mem_fill.mp hmem with ⟨hx', hxl⟩ | ⟨-, hx'⟩
    · exact h.fresh x (List.mem_append_right _ hx) hxl hx'
    · rcases List.mem_append.mp hx' with hx' | hx'
      · exact (List.nodup_append.mp h.distinct).2.2 x hx' x hx rfl
      · exact hxr (List.mem_singleton.mp hx')

/-- The first child in the place of its leftmost leaf. -/
theorem Fits.subst_first (h : Fits (node n l r) xs) :
    (node n (leaf l.leftmost) (leaf r.leftmost)).subst l.leftmost l =
      node n l (leaf r.leftmost) := by
  have hright : (leaf r.leftmost : LeafTree ν α).subst l.leftmost l = leaf r.leftmost :=
    subst_of_not_mem (by simpa using h.ne)
  rw [subst_node, subst_leaf_self, hright]

theorem Fits.subst_second (h : Fits (node n l r) xs) :
    (node n l (leaf r.leftmost)).subst r.leftmost r = node n l r := by
  rw [subst_node, subst_leaf_self, subst_of_not_mem h.not_mem_first]

end Fits

/-- Drop the leaves `a`. A node that loses one child is replaced by the other. -/
def prune (a : α) : LeafTree ν α → Option (LeafTree ν α)
  | leaf x => if x = a then none else some (leaf x)
  | node n l r =>
    match l.prune a, r.prune a with
    | some l', some r' => some (node n l' r')
    | some l', none => some l'
    | none, r' => r'

/-- The leaves of an optional tree. -/
def leaves? : Option (LeafTree ν α) → List α
  | none => []
  | some t => t.leaves

/-- Pruning removes the leaf and nothing else. -/
theorem leaves_prune (a : α) (t : LeafTree ν α) :
    leaves? (t.prune a) = t.leaves.filter (· ≠ a) := by
  induction t with
  | leaf x => by_cases h : x = a <;> simp [prune, leaves?, h]
  | node n l r hl hr =>
    rw [leaves_node, List.filter_append, ← hl, ← hr, prune]
    cases l.prune a <;> cases r.prune a <;> simp [leaves?]

end Decidable

end LeafTree

end Forgetty.Lib
