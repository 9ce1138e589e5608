import Mathlib.Logic.Function.Basic
import Mathlib.Tactic.SplitIfs

/-! Maps from keys to optional values, read up to the values they return. This
is what a program sees of a hash map it only looks up, inserts into and removes
from: iteration order is not observable and two maps with the same lookups are
equal. -/

namespace Forgetty.Lib

/-- A map given by its lookup function. -/
@[ext]
structure PMap (κ α : Type*) where
  get : κ → Option α

namespace PMap

variable {κ α : Type*}

instance : Membership κ (PMap κ α) := ⟨fun m k => (m.get k).isSome = true⟩

theorem mem_def {m : PMap κ α} {k : κ} : k ∈ m ↔ (m.get k).isSome = true := Iff.rfl

instance (m : PMap κ α) (k : κ) : Decidable (k ∈ m) :=
  inferInstanceAs (Decidable ((m.get k).isSome = true))

/-- The map without entries. -/
def empty : PMap κ α := ⟨fun _ => none⟩

/-- Apply a function to every value. -/
def mapVals (f : κ → α → α) (m : PMap κ α) : PMap κ α := ⟨fun k => (m.get k).map (f k)⟩

@[simp] theorem get_empty (k : κ) : (empty : PMap κ α).get k = none := rfl

@[simp] theorem not_mem_empty (k : κ) : k ∉ (empty : PMap κ α) := by simp [mem_def]

@[simp] theorem get_mapVals (f : κ → α → α) (m : PMap κ α) (k : κ) :
    (m.mapVals f).get k = (m.get k).map (f k) := rfl

@[simp] theorem mem_mapVals (f : κ → α → α) (m : PMap κ α) (k : κ) : k ∈ m.mapVals f ↔ k ∈ m := by
  simp [mem_def]

theorem mem_of_get {m : PMap κ α} {k : κ} {a : α} (h : m.get k = some a) : k ∈ m := by
  simp [mem_def, h]

theorem get_eq_none {m : PMap κ α} {k : κ} (h : k ∉ m) : m.get k = none := by
  simpa [mem_def] using h

theorem exists_get {m : PMap κ α} {k : κ} (h : k ∈ m) : ∃ a, m.get k = some a :=
  Option.isSome_iff_exists.mp h

variable [DecidableEq κ]

/-- Set the value of a key, replacing an earlier one. -/
def insert (m : PMap κ α) (k : κ) (a : α) : PMap κ α := ⟨Function.update m.get k (some a)⟩

/-- Drop a key. -/
def erase (m : PMap κ α) (k : κ) : PMap κ α := ⟨Function.update m.get k none⟩

@[simp] theorem get_insert_self (m : PMap κ α) (k : κ) (a : α) :
    (m.insert k a).get k = some a := by simp [insert]

@[simp] theorem get_insert_of_ne {m : PMap κ α} {k k' : κ} {a : α} (h : k' ≠ k) :
    (m.insert k a).get k' = m.get k' := by simp [insert, h]

@[simp] theorem get_erase_self (m : PMap κ α) (k : κ) : (m.erase k).get k = none := by
  simp [erase]

@[simp] theorem get_erase_of_ne {m : PMap κ α} {k k' : κ} (h : k' ≠ k) :
    (m.erase k).get k' = m.get k' := by simp [erase, h]

theorem get_insert (m : PMap κ α) (k k' : κ) (a : α) :
    (m.insert k a).get k' = if k' = k then some a else m.get k' := by
  split_ifs with h
  · subst h; simp
  · simp [h]

theorem get_erase (m : PMap κ α) (k k' : κ) :
    (m.erase k).get k' = if k' = k then none else m.get k' := by
  split_ifs with h
  · subst h; simp
  · simp [h]

@[simp] theorem mem_insert {m : PMap κ α} {k k' : κ} {a : α} :
    k' ∈ m.insert k a ↔ k' = k ∨ k' ∈ m := by
  simp only [mem_def, get_insert]
  split_ifs with h <;> simp [h]

@[simp] theorem mem_erase {m : PMap κ α} {k k' : κ} : k' ∈ m.erase k ↔ k' ≠ k ∧ k' ∈ m := by
  simp only [mem_def, get_erase]
  split_ifs with h <;> simp [h]

theorem erase_insert {m : PMap κ α} {k : κ} {a : α} (h : k ∉ m) : (m.insert k a).erase k = m := by
  ext1
  funext k'
  rw [get_erase]
  split_ifs with hk
  · rw [hk, get_eq_none h]
  · rw [get_insert_of_ne hk]

theorem erase_insert_of_ne {m : PMap κ α} {k k' : κ} {a : α} (h : k ≠ k') :
    (m.insert k a).erase k' = (m.erase k').insert k a := by
  ext1
  funext k''
  simp only [get_erase, get_insert]
  split_ifs with h₁ h₂
  · exact absurd (h₂.symm.trans h₁) h
  · rfl
  · rfl
  · rfl

end PMap

end Forgetty.Lib
