import Forgetty.Lib.PartialMap
import Mathlib.Data.List.Basic

/-! A store of files under paths, as sequential code sees it. Every call of the
operating system is numbered and may be refused, and a call that writes may also
break off in the middle. A refused call changes nothing, so code interrupted at
its `n`-th call is code all of whose calls from the `n`-th on are refused. -/

namespace Forgetty.Lib

/-- The outcome of a call: it works, it has no effect, or it stops after `k` symbols. -/
inductive Answer where
  | works
  | refused
  | broke (k : ℕ)
  deriving DecidableEq, Repr

inductive IoErrorKind where
  | notFound
  | invalidData
  | other
  deriving DecidableEq, Repr

structure IoError where
  kind : IoErrorKind
  message : String
  deriving DecidableEq, Repr

/-- The answers of the operating system, by the number of the call, and the names
a listing of a directory goes through, as far as they are there. -/
structure Os (ν : Type*) where
  answer : ℕ → Answer
  names : ℕ → List ν

/-- Every call works. -/
def Os.Works {ν : Type*} (os : Os ν) : Prop := ∀ n, os.answer n = .works

/-- The files by path, the number of calls made, and the paths that were unlinked. -/
structure FileStore (π α : Type*) where
  files : PMap π (List α)
  calls : ℕ
  unlinked : List π

namespace FileStore

section Sequence

variable {π α β γ : Type*}

/-- Go on after a call that worked; this is the `?` operator. -/
def andThen (r : FileStore π α × Except IoError β)
    (k : β → FileStore π α → FileStore π α × Except IoError γ) :
    FileStore π α × Except IoError γ :=
  match r with
  | (d, .error e) => (d, .error e)
  | (d, .ok b) => k b d

/-- Go on after a call that did not work. -/
def orElse (r : FileStore π α × Except IoError β)
    (k : FileStore π α → FileStore π α × Except IoError β) : FileStore π α × Except IoError β :=
  match r with
  | (d, .error _) => k d
  | (d, .ok b) => (d, .ok b)

@[simp] theorem andThen_ok (d : FileStore π α) (b : β)
    (k : β → FileStore π α → FileStore π α × Except IoError γ) :
    andThen (d, .ok b) k = k b d := rfl

@[simp] theorem orElse_ok (d : FileStore π α) (b : β)
    (k : FileStore π α → FileStore π α × Except IoError β) :
    orElse (d, .ok b) k = (d, .ok b) := rfl

end Sequence

section Reading

variable {π α ν : Type*} (os : Os ν) (d : FileStore π α)

/-- The error of a call that did not work. -/
def failure : IoError := { kind := .other, message := "" }

def count : FileStore π α := { d with calls := d.calls + 1 }

/-- Create a directory with its parents. Directories are not modelled. -/
def createDirAll : FileStore π α × Except IoError Unit :=
  (d.count, if os.answer d.calls = .works then .ok () else .error failure)

/-- Read a whole file. -/
def read (p : π) : FileStore π α × Except IoError (List α) :=
  match os.answer d.calls, d.files.get p with
  | .works, some c => (d.count, .ok c)
  | .works, none => (d.count, .error { kind := .notFound, message := "" })
  | _, _ => (d.count, .error failure)

/-- The names `n` of a directory for which the file `path n` is there. -/
def readDir (path : ν → π) : FileStore π α × Except IoError (List ν) :=
  (d.count, if os.answer d.calls = .works then
      .ok ((os.names d.calls).filter fun n => path n ∈ d.files)
    else .error failure)

/-- Between the two stores only files in `P` changed, and no unlinking was undone. -/
structure Within (P : π → Prop) (d d' : FileStore π α) : Prop where
  same : ∀ q, ¬P q → d'.files.get q = d.files.get q
  unlinked : d.unlinked <+: d'.unlinked

/-- The file was unlinked between the two stores. -/
def Unlinks (p : π) (d d' : FileStore π α) : Prop :=
  ∃ ps, d'.unlinked = d.unlinked ++ ps ∧ p ∈ ps

variable {os d}

@[simp] theorem count_files : d.count.files = d.files := rfl

@[simp] theorem count_unlinked : d.count.unlinked = d.unlinked := rfl

@[simp] theorem createDirAll_files : (d.createDirAll os).1.files = d.files := rfl

@[simp] theorem createDirAll_unlinked : (d.createDirAll os).1.unlinked = d.unlinked := rfl

@[simp] theorem readDir_files (path : ν → π) : (d.readDir os path).1.files = d.files := rfl

@[simp] theorem readDir_unlinked (path : ν → π) :
    (d.readDir os path).1.unlinked = d.unlinked := rfl

@[simp] theorem read_files (p : π) : (d.read os p).1.files = d.files := by
  unfold read; split <;> rfl

@[simp] theorem read_unlinked (p : π) : (d.read os p).1.unlinked = d.unlinked := by
  unfold read; split <;> rfl

theorem Within.refl (P : π → Prop) (d : FileStore π α) : Within P d d :=
  ⟨fun _ _ => rfl, List.prefix_rfl⟩

theorem Within.trans {P : π → Prop} {d d' d'' : FileStore π α} (h : Within P d d')
    (h' : Within P d' d'') : Within P d d'' :=
  ⟨fun q hq => (h'.same q hq).trans (h.same q hq), h.unlinked.trans h'.unlinked⟩

theorem Within.mono {P Q : π → Prop} {d d' : FileStore π α} (h : Within P d d')
    (hPQ : ∀ q, P q → Q q) : Within Q d d' :=
  ⟨fun q hq => h.same q fun hp => hq (hPQ q hp), h.unlinked⟩

theorem Within.mem_iff {P : π → Prop} {d d' : FileStore π α} (h : Within P d d') {q : π}
    (hq : ¬P q) : q ∈ d'.files ↔ q ∈ d.files := by
  rw [PMap.mem_def, PMap.mem_def, h.same q hq]

theorem Within.andThen {β γ : Type*} {P : π → Prop} {r : FileStore π α × Except IoError β}
    {k : β → FileStore π α → FileStore π α × Except IoError γ} (h : Within P d r.1)
    (hk : ∀ b d', Within P d' (k b d').1) : Within P d (andThen r k).1 := by
  obtain ⟨d', e | b⟩ := r
  · exact h
  · exact h.trans (hk b d')

theorem Within.orElse {β : Type*} {P : π → Prop} {r : FileStore π α × Except IoError β}
    {k : FileStore π α → FileStore π α × Except IoError β} (h : Within P d r.1)
    (hk : ∀ d', Within P d' (k d').1) : Within P d (orElse r k).1 := by
  obtain ⟨d', e | b⟩ := r
  · exact h.trans (hk d')
  · exact h

/-- Code that goes through a list stays within what each step stays within. -/
theorem Within.foldl {ι : Type*} {P : π → Prop} {f : FileStore π α → ι → FileStore π α}
    {is : List ι} (h : ∀ d, ∀ i ∈ is, Within P d (f d i)) (d : FileStore π α) :
    Within P d (is.foldl f d) := by
  induction is generalizing d with
  | nil => exact .refl P d
  | cons i is ih =>
    have hfirst := h d i List.mem_cons_self
    exact hfirst.trans (ih (fun d j hj => h d j (List.mem_cons_of_mem i hj)) (f d i))

theorem Unlinks.trans_within {P : π → Prop} {p : π} {d d' d'' : FileStore π α}
    (h : Unlinks p d d') (h' : Within P d' d'') : Unlinks p d d'' := by
  obtain ⟨ps, hps, hp⟩ := h
  obtain ⟨qs, hqs⟩ := h'.unlinked
  exact ⟨ps ++ qs, by rw [← hqs, hps, List.append_assoc], List.mem_append_left _ hp⟩

theorem Within.trans_unlinks {P : π → Prop} {p : π} {d d' d'' : FileStore π α}
    (h : Within P d d') (h' : Unlinks p d' d'') : Unlinks p d d'' := by
  obtain ⟨qs, hqs⟩ := h.unlinked
  obtain ⟨ps, hps, hp⟩ := h'
  exact ⟨qs ++ ps, by rw [hps, ← hqs, List.append_assoc], List.mem_append_right _ hp⟩

theorem within_of_files {P : π → Prop} {d d' : FileStore π α} (h : d'.files = d.files)
    (hu : d'.unlinked = d.unlinked) : Within P d d' :=
  ⟨fun _ _ => by rw [h], hu ▸ List.prefix_rfl⟩

theorem createDirAll_within (P : π → Prop) (d : FileStore π α) :
    Within P d (d.createDirAll os).1 := within_of_files rfl rfl

theorem read_within (P : π → Prop) (p : π) (d : FileStore π α) : Within P d (d.read os p).1 :=
  within_of_files (read_files p) (read_unlinked p)

theorem readDir_within (P : π → Prop) (path : ν → π) (d : FileStore π α) :
    Within P d (d.readDir os path).1 := within_of_files rfl rfl

theorem createDirAll_works (hos : os.Works) : d.createDirAll os = (d.count, .ok ()) := by
  simp [createDirAll, hos d.calls]

theorem read_works (hos : os.Works) {p : π} {c : List α} (h : d.files.get p = some c) :
    d.read os p = (d.count, .ok c) := by
  simp [read, hos d.calls, h]

theorem readDir_works (hos : os.Works) (path : ν → π) :
    d.readDir os path =
      (d.count, .ok ((os.names d.calls).filter fun n => path n ∈ d.files)) := by
  simp [readDir, hos d.calls]

end Reading

section Writing

variable {π α ν : Type*} [DecidableEq π] (os : Os ν) (d : FileStore π α)

/-- Write a whole file, dropping what it held. -/
def write (p : π) (c : List α) : FileStore π α × Except IoError Unit :=
  match os.answer d.calls with
  | .works => ({ d.count with files := d.files.insert p c }, .ok ())
  | .refused => (d.count, .error failure)
  | .broke k => ({ d.count with files := d.files.insert p (c.take k) }, .error failure)

/-- Give a file another name, dropping the file of that name. -/
def rename (p q : π) : FileStore π α × Except IoError Unit :=
  match os.answer d.calls, d.files.get p with
  | .works, some c => ({ d.count with files := (d.files.erase p).insert q c }, .ok ())
  | .works, none => (d.count, .error { kind := .notFound, message := "" })
  | _, _ => (d.count, .error failure)

def copy (p q : π) : FileStore π α × Except IoError Unit :=
  match d.files.get p with
  | some c => d.write os q c
  | none => (d.count, .error { kind := .notFound, message := "" })

/-- Unlink a file. -/
def remove (p : π) : FileStore π α × Except IoError Unit :=
  match os.answer d.calls, d.files.get p with
  | .works, some _ =>
    ({ d.count with files := d.files.erase p, unlinked := d.unlinked ++ [p] }, .ok ())
  | .works, none => (d.count, .error { kind := .notFound, message := "" })
  | _, _ => (d.count, .error failure)

variable {os d}

/-! Each call touches the files it names and no other. -/

section Within

variable {P : π → Prop}

theorem write_within {p : π} (c : List α) (h : P p) : Within P d (d.write os p c).1 := by
  have hne {q : π} (hq : ¬P q) : q ≠ p := fun hqp => hq (hqp ▸ h)
  unfold write
  split
  · exact ⟨fun q hq => PMap.get_insert_of_ne (hne hq), List.prefix_rfl⟩
  · exact within_of_files rfl rfl
  · exact ⟨fun q hq => PMap.get_insert_of_ne (hne hq), List.prefix_rfl⟩

theorem rename_within {p q : π} (hp : P p) (hq : P q) : Within P d (d.rename os p q).1 := by
  unfold rename
  split
  · refine ⟨fun r hr => ?_, List.prefix_rfl⟩
    have hrp : r ≠ p := fun h => hr (h ▸ hp)
    have hrq : r ≠ q := fun h => hr (h ▸ hq)
    simp [hrp, hrq]
  · exact within_of_files rfl rfl
  · exact within_of_files rfl rfl

theorem copy_within {p q : π} (h : P q) : Within P d (d.copy os p q).1 := by
  unfold copy
  split
  · exact write_within _ h
  · exact within_of_files rfl rfl

theorem remove_within {p : π} (h : P p) : Within P d (d.remove os p).1 := by
  unfold remove
  split
  · refine ⟨fun q hq => ?_, List.prefix_append _ _⟩
    have hqp : q ≠ p := fun h' => hq (h' ▸ h)
    simp [hqp]
  · exact within_of_files rfl rfl
  · exact within_of_files rfl rfl

end Within

/-! What a call does that works. -/

section Works

variable (hos : os.Works)
include hos

theorem write_works (p : π) (c : List α) :
    d.write os p c = ({ d.count with files := d.files.insert p c }, .ok ()) := by
  simp [write, hos d.calls]

theorem rename_works {p : π} {c : List α} (q : π) (h : d.files.get p = some c) :
    d.rename os p q = ({ d.count with files := (d.files.erase p).insert q c }, .ok ()) := by
  simp [rename, hos d.calls, h]

theorem remove_works {p : π} (h : p ∈ d.files) :
    d.remove os p =
      ({ d.count with files := d.files.erase p, unlinked := d.unlinked ++ [p] }, .ok ()) := by
  obtain ⟨c, hc⟩ := PMap.exists_get h
  simp [remove, hos d.calls, hc]

end Works

end Writing

end FileStore

end Forgetty.Lib
