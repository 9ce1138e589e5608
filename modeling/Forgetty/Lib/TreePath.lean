import Forgetty.Lib.LeafTree

/-! Places in a tree. A path goes to the second child at `true`; what is done at its end leaves
the rest of the tree alone, and can be undone there. -/

namespace Forgetty.Lib.LeafTree

variable {ν α : Type*}

/-- The tree at the end of a path. -/
def subtreeAt : List Bool → LeafTree ν α → Option (LeafTree ν α)
  | [], t => some t
  | second :: path, node _ l r => if second then r.subtreeAt path else l.subtreeAt path
  | _ :: _, leaf _ => none

/-- Another tree in the place of the one at the end of a path. -/
def modifyAt (f : LeafTree ν α → LeafTree ν α) : List Bool → LeafTree ν α → LeafTree ν α
  | [], t => f t
  | second :: path, node n l r =>
    if second then node n l (r.modifyAt f path) else node n (l.modifyAt f path) r
  | _ :: _, leaf a => leaf a

def firstChild : LeafTree ν α → LeafTree ν α
  | leaf a => leaf a
  | node _ l _ => l

/-- The node at the end of a path gives its place to its first child. -/
def contractAt (path : List Bool) (t : LeafTree ν α) : LeafTree ν α := t.modifyAt firstChild path

section Edit

variable {f g : LeafTree ν α → LeafTree ν α} {path : List Bool} {t u : LeafTree ν α}

theorem subtreeAt_modifyAt (f : LeafTree ν α → LeafTree ν α) (path : List Bool)
    (t : LeafTree ν α) : (t.modifyAt f path).subtreeAt path = (t.subtreeAt path).map f := by
  induction t generalizing path with
  | leaf a => cases path <;> rfl
  | node n l r hl hr =>
    cases path with
    | nil => rfl
    | cons second path =>
      cases second
      · exact hl path
      · exact hr path

/-- The second of two changes in one place is a change of what the first one put there. -/
theorem modifyAt_modifyAt (f g : LeafTree ν α → LeafTree ν α) (path : List Bool)
    (t : LeafTree ν α) : (t.modifyAt f path).modifyAt g path = t.modifyAt (g ∘ f) path := by
  induction t generalizing path with
  | leaf a => cases path <;> rfl
  | node n l r hl hr =>
    cases path with
    | nil => rfl
    | cons second path =>
      cases second
      · exact congrArg (node n · r) (hl path)
      · exact congrArg (node n l ·) (hr path)

/-- A change that leaves what is in its place. -/
theorem modifyAt_eq_self (h : t.subtreeAt path = some u) (hf : f u = u) : t.modifyAt f path = t := by
  induction t generalizing path with
  | leaf a =>
    cases path with
    | nil =>
      obtain rfl := Option.some.inj h
      exact hf
    | cons second path => rfl
  | node n l r hl hr =>
    cases path with
    | nil =>
      obtain rfl := Option.some.inj h
      exact hf
    | cons second path =>
      cases second
      · exact congrArg (node n · r) (hl h)
      · exact congrArg (node n l ·) (hr h)

/-- The labels outside the place that is changed are those from before. -/
theorem length_labels_modifyAt (h : t.subtreeAt path = some u) :
    (t.modifyAt f path).labels.length + u.labels.length =
      t.labels.length + (f u).labels.length := by
  induction t generalizing path with
  | leaf a =>
    cases path with
    | nil =>
      obtain rfl := Option.some.inj h
      exact Nat.add_comm _ _
    | cons second path => cases h
  | node n l r hl hr =>
    cases path with
    | nil =>
      obtain rfl := Option.some.inj h
      exact Nat.add_comm _ _
    | cons second path =>
      cases second
      · have := hl h
        simp only [modifyAt, labels, List.length_cons, List.length_append, Bool.false_eq_true,
          if_false]
        omega
      · have := hr h
        simp only [modifyAt, labels, List.length_cons, List.length_append, if_true]
        omega

end Edit

section Decidable

variable [DecidableEq α]

/-- The path to the first leaf `a`. -/
def pathTo (a : α) : LeafTree ν α → Option (List Bool)
  | leaf x => if x = a then some [] else none
  | node _ l r =>
    match l.pathTo a with
    | some path => some (false :: path)
    | none => (r.pathTo a).map (true :: ·)

variable {a : α} {path : List Bool} {t : LeafTree ν α}

theorem pathTo_eq_none_iff : t.pathTo a = none ↔ a ∉ t.leaves := by
  induction t with
  | leaf x => simp [pathTo, eq_comm]
  | node n l r hl hr =>
    rw [leaves_node, List.mem_append, not_or, ← hl, ← hr, pathTo]
    cases l.pathTo a <;> simp

theorem subtreeAt_pathTo (h : t.pathTo a = some path) : t.subtreeAt path = some (leaf a) := by
  induction t generalizing path with
  | leaf x =>
    obtain ⟨rfl, hpath⟩ := Option.ite_none_right_eq_some.mp h
    obtain rfl := Option.some.inj hpath
    rfl
  | node n l r hl hr =>
    rw [pathTo] at h
    cases hpath : l.pathTo a with
    | some path' =>
      rw [hpath] at h
      obtain rfl := Option.some.inj h
      exact hl hpath
    | none =>
      rw [hpath] at h
      obtain ⟨path', hpath', rfl⟩ := Option.map_eq_some_iff.mp h
      exact hr hpath'

/-- The first leaf `a` makes way for the leaves of the tree that is put in its place. -/
theorem leaves_modifyAt_pathTo (h : t.pathTo a = some path)
    (f : LeafTree ν α → LeafTree ν α) :
    ∃ before after, a ∉ before ∧ t.leaves = before ++ a :: after ∧
      (t.modifyAt f path).leaves = before ++ (f (leaf a)).leaves ++ after := by
  induction t generalizing path with
  | leaf x =>
    obtain ⟨rfl, hpath⟩ := Option.ite_none_right_eq_some.mp h
    obtain rfl := Option.some.inj hpath
    exact ⟨[], [], List.not_mem_nil, rfl, (List.append_nil _).symm⟩
  | node n l r hl hr =>
    rw [pathTo] at h
    cases hpath : l.pathTo a with
    | some path' =>
      rw [hpath] at h
      obtain rfl := Option.some.inj h
      obtain ⟨before, after, hfirst, hleaves, hnew⟩ := hl hpath
      refine ⟨before, after ++ r.leaves, hfirst, ?_, ?_⟩
      · rw [leaves_node, hleaves, List.append_assoc, List.cons_append]
      · simp only [modifyAt, Bool.false_eq_true, if_false, leaves_node, hnew, List.append_assoc]
    | none =>
      rw [hpath] at h
      obtain ⟨path', hpath', rfl⟩ := Option.map_eq_some_iff.mp h
      obtain ⟨before, after, hfirst, hleaves, hnew⟩ := hr hpath'
      refine ⟨l.leaves ++ before, after, ?_, ?_, ?_⟩
      · rw [List.mem_append, not_or]
        exact ⟨pathTo_eq_none_iff.mp hpath, hfirst⟩
      · rw [leaves_node, hleaves, List.append_assoc]
      · simp only [modifyAt, if_true, leaves_node, hnew, List.append_assoc]

end Decidable

end Forgetty.Lib.LeafTree
