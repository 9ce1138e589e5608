import Forgetty.Lib.PartialMap
import Mathlib.Data.Int.Notation

/-! Files with the time of their last modification, as sequential code sees them while
its calls work. Writing and copying set the time, renaming keeps it. A file is moved by
renaming it, or, where that is not possible, by copying it and removing the source. -/

namespace Forgetty.Lib

structure Stamped (α : Type*) where
  contents : List α
  modified : ℤ

abbrev StampedFiles (π α : Type*) := PMap π (Stamped α)

namespace StampedFiles

variable {π α : Type*}

/-- The files without their times. -/
def contents (m : StampedFiles π α) : PMap π (List α) :=
  ⟨fun p => (m.get p).map (·.contents)⟩

@[simp] theorem get_contents (m : StampedFiles π α) (p : π) :
    m.contents.get p = (m.get p).map (·.contents) := rfl

@[simp] theorem mem_contents (m : StampedFiles π α) (p : π) : p ∈ m.contents ↔ p ∈ m := by
  simp [PMap.mem_def]

variable [DecidableEq π]

def write (now : ℤ) (p : π) (c : List α) (m : StampedFiles π α) : StampedFiles π α :=
  m.insert p { contents := c, modified := now }

def rename (p q : π) (m : StampedFiles π α) : StampedFiles π α :=
  match m.get p with
  | some f => (m.erase p).insert q f
  | none => m

def copy (now : ℤ) (p q : π) (m : StampedFiles π α) : StampedFiles π α :=
  match m.get p with
  | some f => m.insert q { f with modified := now }
  | none => m

/-- `renames` tells whether there is renaming between the two paths. -/
def move (renames : π → π → Bool) (now : ℤ) (p q : π) (m : StampedFiles π α) : StampedFiles π α :=
  if renames p q then rename p q m else (copy now p q m).erase p

theorem contents_insert (m : StampedFiles π α) (p : π) (f : Stamped α) :
    contents (m.insert p f) = m.contents.insert p f.contents := by
  ext1
  funext q
  simp only [get_contents, PMap.get_insert]
  split_ifs <;> rfl

theorem contents_erase (m : StampedFiles π α) (p : π) :
    contents (m.erase p) = m.contents.erase p := by
  ext1
  funext q
  simp only [get_contents, PMap.get_erase]
  split_ifs <;> rfl

theorem rename_eq {m : StampedFiles π α} {p : π} {f : Stamped α} (q : π) (h : m.get p = some f) :
    rename p q m = (m.erase p).insert q f := by
  simp only [rename, h]

/-- A move keeps the time exactly if it is a renaming. -/
theorem move_eq {m : StampedFiles π α} {renames : π → π → Bool} {now : ℤ} {p q : π}
    {f : Stamped α} (h : m.get p = some f) (hne : p ≠ q) :
    move renames now p q m =
      (m.erase p).insert q { f with modified := if renames p q then f.modified else now } := by
  cases hr : renames p q with
  | true => simp [move, hr, rename_eq q h]
  | false => simp [move, hr, copy, h, PMap.erase_insert_of_ne (Ne.symm hne)]

end StampedFiles

end Forgetty.Lib
