import Forgetty.Lib.PartialMap
import Mathlib.Data.List.Basic

/-! A store of files as concurrent code sees it: names stand for inodes, and who
has opened a file goes on writing to its inode after the name was given to another
file. -/

namespace Forgetty.Lib

structure InodeStore (π α : Type*) where
  names : PMap π ℕ
  data : ℕ → List α
  next : ℕ

/-- Write `cs` at an offset. A gap behind the end is filled up. -/
def overwriteAt {α : Type*} [Inhabited α] (c : List α) (offset : ℕ) (cs : List α) : List α :=
  (c ++ List.replicate (offset - c.length) default).take offset ++ cs ++ c.drop (offset + cs.length)

/-- Writing at the end. -/
theorem overwriteAt_length {α : Type*} [Inhabited α] (c cs : List α) :
    overwriteAt c c.length cs = c ++ cs := by
  simp [overwriteAt]

namespace InodeStore

variable {π α : Type*}

/-- The contents under a name. -/
def read (st : InodeStore π α) (p : π) : Option (List α) := (st.names.get p).map st.data

/-- What sequential code sees. -/
def view (st : InodeStore π α) : PMap π (List α) := ⟨st.read⟩

/-- Inodes are not shared between names, and new ones are new. -/
structure WellFormed (st : InodeStore π α) : Prop where
  unshared : ∀ p q i, st.names.get p = some i → st.names.get q = some i → p = q
  fresh : ∀ p i, st.names.get p = some i → i < st.next

/-- Change the contents of an inode. -/
def setData (st : InodeStore π α) (i : ℕ) (c : List α) : InodeStore π α :=
  { st with data := Function.update st.data i c }

section Data

variable {st : InodeStore π α} {p q : π} {i : ℕ} {c : List α}

theorem WellFormed.setData (h : st.WellFormed) (i : ℕ) (c : List α) : (st.setData i c).WellFormed :=
  ⟨h.unshared, h.fresh⟩

/-- Writing to the inode of one name does not show under another name. -/
theorem WellFormed.read_setData_of_ne (h : st.WellFormed) (hp : st.names.get p = some i)
    (hq : q ≠ p) : (st.setData i c).read q = st.read q := by
  simp only [read, InodeStore.setData]
  cases hn : st.names.get q with
  | none => rfl
  | some j =>
    have hij : j ≠ i := fun hij => hq (h.unshared q p i (hij ▸ hn) hp)
    simp [hij]

end Data

variable [DecidableEq π]

/-- Open a file for writing from the start: it is emptied, or created. -/
def create (st : InodeStore π α) (p : π) : InodeStore π α × ℕ :=
  match st.names.get p with
  | some i => (st.setData i [], i)
  | none =>
    ({ names := st.names.insert p st.next
       data := Function.update st.data st.next []
       next := st.next + 1 }, st.next)

/-- Open a file for appending: it is created if there is none. -/
def openAppend (st : InodeStore π α) (p : π) : InodeStore π α × ℕ :=
  match st.names.get p with
  | some i => (st, i)
  | none => st.create p

/-- Write a file from the start. -/
def write (st : InodeStore π α) (p : π) (c : List α) : InodeStore π α :=
  (st.create p).1.setData (st.create p).2 c

/-- Give the inode of `p` the name `q`; the flag tells whether there was one. -/
def rename (st : InodeStore π α) (p q : π) : InodeStore π α × Bool :=
  match st.names.get p with
  | some i => ({ st with names := (st.names.erase p).insert q i }, true)
  | none => (st, false)

section Laws

variable {st : InodeStore π α} {p q : π} {i : ℕ}

theorem WellFormed.create (h : st.WellFormed) (p : π) : (st.create p).1.WellFormed := by
  unfold InodeStore.create
  split
  · exact h.setData _ _
  · rename_i hp
    have hnew : ∀ q i, st.names.get q = some i → i ≠ st.next := fun q i hq => Nat.ne_of_lt (h.fresh q i hq)
    refine ⟨fun q r i hq hr => ?_, fun q i hq => ?_⟩
    · rw [PMap.get_insert] at hq hr
      split_ifs at hq hr with hqp hrp hrp
      · rw [hqp, hrp]
      · exact absurd (Option.some.inj hq).symm (hnew r i hr)
      · exact absurd (Option.some.inj hr).symm (hnew q i hq)
      · exact h.unshared q r i hq hr
    · rw [PMap.get_insert] at hq
      show i < st.next + 1
      split_ifs at hq
      · have := Option.some.inj hq
        omega
      · have := h.fresh q i hq
        omega

theorem create_names (st : InodeStore π α) (p : π) :
    (st.create p).1.names.get p = some (st.create p).2 := by
  unfold InodeStore.create
  split
  · assumption
  · exact PMap.get_insert_self ..

theorem create_names_of_ne (st : InodeStore π α) (h : q ≠ p) :
    (st.create p).1.names.get q = st.names.get q := by
  unfold InodeStore.create
  split
  · rfl
  · exact PMap.get_insert_of_ne h

theorem rename_names (h : st.names.get p = some i) (q r : π) :
    (st.rename p q).1.names.get r =
      if r = q then some i else if r = p then none else st.names.get r := by
  simp only [InodeStore.rename, h, PMap.get_insert, PMap.get_erase]

theorem create_data (st : InodeStore π α) (p : π) : (st.create p).1.data (st.create p).2 = [] := by
  unfold InodeStore.create
  split <;> simp [InodeStore.setData]

theorem WellFormed.read_create_of_ne (h : st.WellFormed) (hq : q ≠ p) :
    (st.create p).1.read q = st.read q := by
  unfold InodeStore.create
  split
  · rename_i hp
    exact h.read_setData_of_ne hp hq
  · simp only [read, PMap.get_insert_of_ne hq]
    cases hn : st.names.get q with
    | none => rfl
    | some j =>
      have : j ≠ st.next := Nat.ne_of_lt (h.fresh q j hn)
      simp [this]

theorem WellFormed.write (h : st.WellFormed) (p : π) (c : List α) : (st.write p c).WellFormed :=
  (h.create p).setData _ _

theorem write_names (st : InodeStore π α) (p : π) (c : List α) :
    (st.write p c).names.get p = some (st.create p).2 := create_names st p

theorem write_names_of_ne (st : InodeStore π α) (c : List α) (h : q ≠ p) :
    (st.write p c).names.get q = st.names.get q := create_names_of_ne st h

theorem write_data (st : InodeStore π α) (p : π) (c : List α) :
    (st.write p c).data (st.create p).2 = c := Function.update_self ..

theorem next_le_write (st : InodeStore π α) (p : π) (c : List α) :
    st.next ≤ (st.write p c).next := by
  unfold write InodeStore.create
  split
  · exact Nat.le_refl _
  · exact Nat.le_succ _

/-- A file that is open under another name, or under none, is not the one written. -/
theorem create_inode_ne (hi : i < st.next) (hp : st.names.get p ≠ some i) :
    (st.create p).2 ≠ i := by
  unfold InodeStore.create
  split
  · rename_i hget
    exact fun hij => hp (hij ▸ hget)
  · exact Nat.ne_of_gt hi

theorem write_data_of_ne (c : List α) (hi : i < st.next) (hp : st.names.get p ≠ some i) :
    (st.write p c).data i = st.data i := by
  have hne := create_inode_ne hi hp
  have hset : (st.write p c).data i = (st.create p).1.data i := Function.update_of_ne hne.symm _ _
  rw [hset]
  unfold InodeStore.create
  split
  · rename_i j hget
    have hij : i ≠ j := fun hij => hp (hij ▸ hget)
    exact Function.update_of_ne hij _ _
  · exact Function.update_of_ne (Nat.ne_of_lt hi) _ _

theorem WellFormed.rename (h : st.WellFormed) (p q : π) : (st.rename p q).1.WellFormed := by
  unfold InodeStore.rename
  split
  · rename_i i hp
    have hname : ∀ r j, ((st.names.erase p).insert q i).get r = some j →
        r = q ∧ j = i ∨ r ≠ q ∧ r ≠ p ∧ st.names.get r = some j := by
      intro r j hr
      rw [PMap.get_insert, PMap.get_erase] at hr
      split_ifs at hr with hrq hrp
      · exact Or.inl ⟨hrq, (Option.some.inj hr).symm⟩
      · exact Or.inr ⟨hrq, hrp, hr⟩
    refine ⟨fun r s j hr hs => ?_, fun r j hr => ?_⟩
    · rcases hname r j hr with ⟨rfl, rfl⟩ | ⟨-, hrp, hr'⟩
      · rcases hname s j hs with ⟨rfl, -⟩ | ⟨-, hsp, hs'⟩
        · rfl
        · exact absurd (h.unshared s p j hs' hp) hsp
      · rcases hname s j hs with ⟨rfl, rfl⟩ | ⟨-, hsp, hs'⟩
        · exact absurd (h.unshared r p j hr' hp) hrp
        · exact h.unshared r s j hr' hs'
    · rcases hname r j hr with ⟨-, rfl⟩ | ⟨-, -, hr'⟩
      · exact h.fresh p j hp
      · exact h.fresh r j hr'
  · exact h

theorem openAppend_found (h : st.names.get p = some i) : st.openAppend p = (st, i) := by
  simp [openAppend, h]

theorem read_rename (h : st.names.get p = some i) (q : π) :
    (st.rename p q).1.read q = some (st.data i) := by
  simp [InodeStore.rename, h, read]

theorem rename_found (h : st.names.get p = some i) (q : π) : (st.rename p q).2 = true := by
  simp [InodeStore.rename, h]

theorem read_rename_of_ne {r : π} (hrp : r ≠ p) (hrq : r ≠ q) :
    (st.rename p q).1.read r = st.read r := by
  unfold InodeStore.rename
  split
  · simp [read, hrp, hrq]
  · rfl

theorem rename_source (hpq : p ≠ q) : (st.rename p q).1.read p = none := by
  unfold InodeStore.rename
  split
  · simp [read, hpq]
  · rename_i hp
    simp [read, hp]

end Laws

end InodeStore

end Forgetty.Lib
