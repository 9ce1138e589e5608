import Forgetty.Session.ByteLog
import Forgetty.Lib.InodeStore

/-! The task that appends to the log file of a pane. When the log has grown to its limit
the task rotates it: the end of the file is copied to a temporary file, which is given the
name of the log, and the log is opened anew. -/

namespace Forgetty

open Lib

/-- The log file of a pane and the temporary file of a rotation. -/
inductive LogFileName where
  | log
  | tmp
  deriving DecidableEq, Repr

/-- The calls of a rotation that can fail. A copy breaks off after some bytes. -/
inductive RotateCall where
  | metadata
  | openLog
  | createTmp
  | copy (copied : ℕ)
  | sync
  | rename
  | reopen
  deriving DecidableEq, Repr

/-- The state of the task: the inode its file is open on, what its writer has taken and
not yet written, and its count of the bytes in the log. -/
structure DiskAppender where
  store : InodeStore LogFileName UInt8
  handle : ℕ
  buffer : Bytes
  fileSizeApprox : ℕ
  maxDiskBytes : UInt64

/-- What the task receives. The writer passes any part of what it holds on to the file;
`fails` is the call at which a rotation fails, should there be one. -/
inductive DiskInput where
  | chunk (data : Bytes) (written : ℕ) (fails : Option RotateCall)
  | flush

namespace DiskInput

/-- The bytes of a message. -/
def data : DiskInput → Bytes
  | .chunk data _ _ => data
  | .flush => []

/-- Nothing fails. -/
def Works : DiskInput → Prop
  | .chunk _ _ fails => fails = none
  | .flush => True

end DiskInput

namespace DiskAppender

/-- The task on a log file of which the contents are counted, without a temporary file. -/
def start (file : Bytes) (maxDiskBytes : UInt64) : DiskAppender where
  store := { names := PMap.empty.insert .log 0, data := fun i => if i = 0 then file else [], next := 1 }
  handle := 0
  buffer := []
  fileSizeApprox := file.length
  maxDiskBytes := maxDiskBytes

/-- The first `n` bytes that the writer holds are appended to its file. -/
def pass (n : ℕ) (a : DiskAppender) : DiskAppender :=
  { a with
    store := a.store.setData a.handle (a.store.data a.handle ++ a.buffer.take n)
    buffer := a.buffer.drop n }

def flush (a : DiskAppender) : DiskAppender := a.pass a.buffer.length

def writeAll (data : Bytes) (written : ℕ) (a : DiskAppender) : DiskAppender :=
  { a with buffer := a.buffer ++ data }.pass written

/-- Only at the end of a rotation the writer gets another file. The result is the size of
the new log. -/
def rotateLog (fails : Option RotateCall) (keepBytes : ℕ) (a : DiskAppender) :
    DiskAppender × Option ℕ :=
  let a := a.flush
  match a.store.read .log with
  | none => (a, none)
  | some content =>
    let toKeep := min content.length keepBytes
    let startOffset := content.length - toKeep
    let tail := (content.drop startOffset).take toKeep
    let renamed := ((a.store.write .tmp tail).rename .tmp .log).1
    match fails with
    | some .metadata | some .openLog | some .createTmp => (a, none)
    | some (.copy n) => ({ a with store := a.store.write .tmp (tail.take n) }, none)
    | some .sync | some .rename => ({ a with store := a.store.write .tmp tail }, none)
    | some .reopen => ({ a with store := renamed }, none)
    | none =>
      let reopened := renamed.openAppend .log
      ({ a with store := reopened.1, handle := reopened.2, buffer := [] }, some toKeep)

/-- A chunk after which the log is due for a rotation. -/
def Rotates (a : DiskAppender) (data : Bytes) : Prop :=
  a.maxDiskBytes.toNat ≤ min (a.fileSizeApprox + data.length) u64Max

instance (a : DiskAppender) (data : Bytes) : Decidable (a.Rotates data) :=
  inferInstanceAs (Decidable (_ ≤ _))

/-- Write a chunk and count it. -/
def takeChunk (data : Bytes) (written : ℕ) (a : DiskAppender) : DiskAppender :=
  { a.writeAll data written with fileSizeApprox := min (a.fileSizeApprox + data.length) u64Max }

/-- Take over the size of the new log; without one, keep writing to the oversized log. -/
def resized : DiskAppender × Option ℕ → DiskAppender
  | (a, some newSize) => { a with fileSizeApprox := newSize }
  | (a, none) => a

/-- One round of the loop. -/
def step (a : DiskAppender) : DiskInput → DiskAppender
  | .chunk data written fails =>
    if a.Rotates data then
      resized ((a.takeChunk data written).rotateLog fails (a.maxDiskBytes.toNat / 2))
    else a.takeChunk data written
  | .flush => a.flush

/-- What the next start of the daemon reads. -/
def logFile (a : DiskAppender) : Bytes := (a.store.read .log).getD []

/-- The file of the writer with what the writer holds. -/
def content (a : DiskAppender) : Bytes := a.store.data a.handle ++ a.buffer

/-- The writer's file is the log. -/
structure Attached (a : DiskAppender) : Prop where
  wellFormed : a.store.WellFormed
  named : a.store.names.get .log = some a.handle

/-- The writer's file has no name any more, and another one is the log. -/
structure Detached (a : DiskAppender) : Prop where
  wellFormed : a.store.WellFormed
  unnamed : ∀ p, a.store.names.get p ≠ some a.handle
  old : a.handle < a.store.next
  named : ∃ i, a.store.names.get .log = some i
  short : a.logFile.length ≤ a.maxDiskBytes.toNat / 2

section Writer

variable {a : DiskAppender} {n : ℕ}

@[simp] theorem pass_content (a : DiskAppender) (n : ℕ) : (a.pass n).content = a.content := by
  simp [content, pass, InodeStore.setData]

@[simp] theorem pass_names (a : DiskAppender) (n : ℕ) :
    (a.pass n).store.names = a.store.names := rfl

@[simp] theorem flush_buffer (a : DiskAppender) : a.flush.buffer = [] := List.drop_length

@[simp] theorem writeAll_content (a : DiskAppender) (data : Bytes) (n : ℕ) :
    (a.writeAll data n).content = a.content ++ data := by
  rw [writeAll, pass_content, content, ← List.append_assoc]
  rfl

theorem Attached.logFile_eq (h : a.Attached) : a.logFile = a.store.data a.handle := by
  simp [logFile, InodeStore.read, h.named]

theorem Attached.content_eq (h : a.Attached) : a.content = a.logFile ++ a.buffer := by
  rw [content, h.logFile_eq]

theorem Attached.pass (h : a.Attached) (n : ℕ) : (a.pass n).Attached :=
  ⟨h.wellFormed.setData _ _, h.named⟩

theorem Attached.flush (h : a.Attached) : a.flush.Attached := h.pass _

theorem Attached.flush_logFile (h : a.Attached) : a.flush.logFile = a.content := by
  have hcontent := h.flush.content_eq
  rw [flush_buffer, List.append_nil] at hcontent
  exact hcontent.symm.trans (pass_content a _)

theorem Attached.writeAll (h : a.Attached) (data : Bytes) (n : ℕ) :
    (a.writeAll data n).Attached :=
  have hbuffer : Attached { a with buffer := a.buffer ++ data } := ⟨h.wellFormed, h.named⟩
  hbuffer.pass n

end Writer

section Rotation

variable {a : DiskAppender}

/-- The part of the log that is copied is its end. -/
theorem tail_eq_rtake (c : Bytes) (n : ℕ) :
    (c.drop (c.length - min c.length n)).take (min c.length n) = c.rtake n := by
  have hstart : c.length - min c.length n = c.length - n := by omega
  rw [hstart, List.take_of_length_le (by rw [List.length_drop]; omega), List.rtake]

/-- What the writer's file needs for a temporary file to be another one. -/
structure Apart (a : DiskAppender) : Prop where
  wellFormed : a.store.WellFormed
  old : a.handle < a.store.next
  notTmp : a.store.names.get .tmp ≠ some a.handle

theorem Attached.apart (h : a.Attached) : a.Apart where
  wellFormed := h.wellFormed
  old := h.wellFormed.fresh _ _ h.named
  notTmp hn := absurd (h.wellFormed.unshared _ _ _ hn h.named) (by decide)

theorem Detached.apart (h : a.Detached) : a.Apart := ⟨h.wellFormed, h.old, h.unnamed .tmp⟩

/-- A rotation that does not come to the rename leaves a temporary file. -/
def withTmp (c : Bytes) (a : DiskAppender) : DiskAppender :=
  { a with store := a.store.write .tmp c }

theorem withTmp_named (a : DiskAppender) (c : Bytes) :
    (a.withTmp c).store.names.get .log = a.store.names.get .log :=
  InodeStore.write_names_of_ne _ _ (by decide)

theorem Apart.withTmp_content (h : a.Apart) (c : Bytes) : (a.withTmp c).content = a.content := by
  have hdata : (a.withTmp c).store.data a.handle = a.store.data a.handle :=
    InodeStore.write_data_of_ne c h.old h.notTmp
  rw [content, content, ← hdata]
  rfl

theorem Apart.withTmp_logFile (h : a.Apart) (c : Bytes) : (a.withTmp c).logFile = a.logFile := by
  have hread : (a.withTmp c).store.read .log = a.store.read .log := by
    rw [withTmp, InodeStore.write]
    have hname := InodeStore.create_names a.store .tmp
    rw [(h.wellFormed.create .tmp).read_setData_of_ne hname (by decide),
      h.wellFormed.read_create_of_ne (by decide)]
  rw [logFile, logFile, hread]

/-- After the rename the temporary file is the log. -/
def replaced (c : Bytes) (a : DiskAppender) : DiskAppender :=
  { a with store := ((a.store.write .tmp c).rename .tmp .log).1 }

theorem replaced_names (a : DiskAppender) (c : Bytes) (p : LogFileName) :
    (a.replaced c).store.names.get p = if p = .log then some (a.store.create .tmp).2 else none := by
  rw [replaced, InodeStore.rename_names (InodeStore.write_names a.store .tmp c)]
  cases p <;> rfl

theorem replaced_data (a : DiskAppender) (c : Bytes) :
    (a.replaced c).store.data (a.store.create .tmp).2 = c := by
  have hname := InodeStore.write_names a.store .tmp c
  rw [replaced, InodeStore.rename, hname]
  exact InodeStore.write_data a.store .tmp c

theorem replaced_logFile (a : DiskAppender) (c : Bytes) : (a.replaced c).logFile = c := by
  rw [logFile, InodeStore.read, replaced_names, if_pos rfl, Option.map_some, replaced_data]
  rfl

/-- A rotation that only fails to open the new log. -/
theorem Apart.replaced_detached (h : a.Apart) {c : Bytes}
    (hc : c.length ≤ a.maxDiskBytes.toNat / 2) : (a.replaced c).Detached where
  wellFormed := (h.wellFormed.write _ _).rename _ _
  unnamed p hp := by
    rw [replaced_names] at hp
    split_ifs at hp
    exact InodeStore.create_inode_ne h.old h.notTmp (Option.some.inj hp)
  old := by
    have hnext : (a.replaced c).store.next = (a.store.write .tmp c).next := by
      rw [replaced, InodeStore.rename, InodeStore.write_names]
    rw [hnext]
    exact h.old.trans_le (InodeStore.next_le_write _ _ _)
  named := ⟨_, by rw [replaced_names, if_pos rfl]⟩
  short := by rwa [replaced_logFile]

/-- The end of a rotation: the writer starts on the new log. -/
def reopened (a : DiskAppender) : DiskAppender :=
  { a with
    store := (a.store.openAppend .log).1
    handle := (a.store.openAppend .log).2
    buffer := [] }

theorem Apart.reopened_attached (h : a.Apart) (c : Bytes) : (a.replaced c).reopened.Attached ∧
    (a.replaced c).reopened.content = c := by
  have hname : (a.replaced c).store.names.get .log = some (a.store.create .tmp).2 := by
    rw [replaced_names, if_pos rfl]
  have hopen := InodeStore.openAppend_found hname
  refine ⟨⟨?_, ?_⟩, ?_⟩
  · rw [reopened, hopen]
    exact (h.wellFormed.write _ _).rename _ _
  · rw [reopened, hopen]
    exact hname
  · rw [content, reopened, hopen, List.append_nil]
    exact replaced_data a c

/-- How a rotation ends: before the rename, at the reopening, or well. -/
theorem rotateLog_cases (fails : Option RotateCall) (keepBytes : ℕ) {c : Bytes} (hread : a.flush.logFile = c)
    (hsome : ∃ i, a.flush.store.names.get .log = some i) :
    (fails ≠ none ∧ fails ≠ some .reopen ∧
      ((a.rotateLog fails keepBytes) = (a.flush, none) ∨
        ∃ c', a.rotateLog fails keepBytes = (a.flush.withTmp c', none))) ∨
    (fails = some .reopen ∧
      a.rotateLog fails keepBytes = (a.flush.replaced (c.rtake keepBytes), none)) ∨
    (fails = none ∧ a.rotateLog fails keepBytes =
      ((a.flush.replaced (c.rtake keepBytes)).reopened, some (min c.length keepBytes))) := by
  obtain ⟨i, hname⟩ := hsome
  have hsome : a.flush.store.read .log = some c := by
    rw [← hread, logFile, InodeStore.read, hname]
    rfl
  unfold rotateLog
  simp only [hsome, tail_eq_rtake]
  rcases fails with _ | (_ | _ | _ | n | _ | _ | _)
  · exact Or.inr (Or.inr ⟨rfl, rfl⟩)
  · exact Or.inl ⟨by simp, by simp, Or.inl rfl⟩
  · exact Or.inl ⟨by simp, by simp, Or.inl rfl⟩
  · exact Or.inl ⟨by simp, by simp, Or.inl rfl⟩
  · exact Or.inl ⟨by simp, by simp, Or.inr ⟨_, rfl⟩⟩
  · exact Or.inl ⟨by simp, by simp, Or.inr ⟨_, rfl⟩⟩
  · exact Or.inl ⟨by simp, by simp, Or.inr ⟨_, rfl⟩⟩
  · exact Or.inr (Or.inl ⟨rfl, rfl⟩)

end Rotation

section Steps

variable {a : DiskAppender}

/-- The log of a detached task does not see what the writer does. -/
theorem Detached.pass (h : a.Detached) (n : ℕ) :
    (a.pass n).Detached ∧ (a.pass n).logFile = a.logFile := by
  obtain ⟨i, hi⟩ := h.named
  have hne : i ≠ a.handle := fun hij => h.unnamed .log (hij ▸ hi)
  have hlog : (a.pass n).logFile = a.logFile := by
    rw [logFile, logFile, InodeStore.read, InodeStore.read, pass_names, hi, Option.map_some,
      Option.map_some, DiskAppender.pass]
    exact congrArg (fun c => (some c).getD []) (Function.update_of_ne hne _ _)
  exact ⟨⟨h.wellFormed.setData _ _, h.unnamed, h.old, h.named, hlog.symm ▸ h.short⟩, hlog⟩

theorem Detached.takeChunk (h : a.Detached) (data : Bytes) (n : ℕ) :
    (a.takeChunk data n).Detached ∧ (a.takeChunk data n).logFile = a.logFile := by
  have hbuffer : Detached { a with buffer := a.buffer ++ data } :=
    ⟨h.wellFormed, h.unnamed, h.old, h.named, h.short⟩
  obtain ⟨hd, hlog⟩ := hbuffer.pass n
  exact ⟨⟨hd.wellFormed, hd.unnamed, hd.old, hd.named, hd.short⟩, hlog⟩

theorem Attached.takeChunk (h : a.Attached) (data : Bytes) (n : ℕ) :
    (a.takeChunk data n).Attached ∧ (a.takeChunk data n).content = a.content ++ data :=
  ⟨⟨(h.writeAll data n).wellFormed, (h.writeAll data n).named⟩, writeAll_content a data n⟩

/-- What a chunk does to a log that the writer is attached to. -/
theorem Attached.chunk (h : a.Attached) (data : Bytes) (n : ℕ) (fails : Option RotateCall) :
    let b := a.step (.chunk data n fails)
    (¬a.Rotates data ∧ b.Attached ∧ b.content = a.content ++ data ∧
      b.fileSizeApprox = min (a.fileSizeApprox + data.length) u64Max) ∨
    (a.Rotates data ∧ fails = none ∧ b.Attached ∧
      b.content = (a.content ++ data).rtake (a.maxDiskBytes.toNat / 2) ∧
      b.fileSizeApprox = b.content.length) ∨
    (a.Rotates data ∧ fails = some .reopen ∧ b.Detached ∧
      b.logFile = (a.content ++ data).rtake (a.maxDiskBytes.toNat / 2)) ∨
    (a.Rotates data ∧ fails ≠ none ∧ fails ≠ some .reopen ∧ b.Attached ∧
      b.content = a.content ++ data) := by
  intro b
  obtain ⟨hchunk, hcontent⟩ := h.takeChunk data n
  by_cases hr : a.Rotates data
  · have hread : (a.takeChunk data n).flush.logFile = a.content ++ data :=
      hchunk.flush_logFile.trans hcontent
    have hstep : b =
        resized ((a.takeChunk data n).rotateLog fails (a.maxDiskBytes.toNat / 2)) := if_pos hr
    rcases rotateLog_cases fails (a.maxDiskBytes.toNat / 2) hread
      ⟨_, hchunk.flush.named⟩ with ⟨hnone, hre, heq⟩ | ⟨rfl, heq⟩ | ⟨rfl, heq⟩
    · refine Or.inr (Or.inr (Or.inr ⟨hr, hnone, hre, ?_⟩))
      rcases heq with heq | ⟨c, heq⟩
      · rw [hstep, heq]
        exact ⟨hchunk.flush, (pass_content _ _).trans hcontent⟩
      · rw [hstep, heq]
        have hapart := hchunk.flush.apart
        refine ⟨⟨hapart.wellFormed.write _ _, ?_⟩, ?_⟩
        · exact (withTmp_named _ c).trans hchunk.flush.named
        · exact (hapart.withTmp_content c).trans ((pass_content _ _).trans hcontent)
    · refine Or.inr (Or.inr (Or.inl ⟨hr, rfl, ?_⟩))
      rw [hstep, heq]
      refine ⟨hchunk.flush.apart.replaced_detached ?_, replaced_logFile _ _⟩
      rw [Lib.length_rtake]
      exact Nat.min_le_left _ _
    · refine Or.inr (Or.inl ⟨hr, rfl, ?_⟩)
      obtain ⟨hattached, hnew⟩ := hchunk.flush.apart.reopened_attached
        ((a.content ++ data).rtake (a.maxDiskBytes.toNat / 2))
      rw [hstep, heq]
      refine ⟨⟨hattached.wellFormed, hattached.named⟩, hnew, ?_⟩
      have hsize := congrArg List.length hnew
      rw [Lib.length_rtake] at hsize
      exact (Nat.min_comm _ _).trans hsize.symm
  · have hstep : b = a.takeChunk data n := if_neg hr
    rw [hstep]
    exact Or.inl ⟨hr, hchunk, hcontent, rfl⟩

/-- A chunk that comes to a detached task is not in the log. -/
theorem Detached.chunk (h : a.Detached) (data : Bytes) (n : ℕ) (fails : Option RotateCall) :
    let b := a.step (.chunk data n fails)
    b.Detached ∧ b.logFile = a.logFile ∨ b.Attached ∧ b.content = a.logFile := by
  intro b
  obtain ⟨hchunk, hlog⟩ := h.takeChunk data n
  obtain ⟨hflush, hlog'⟩ := hchunk.pass (a.takeChunk data n).buffer.length
  have hread : (a.takeChunk data n).flush.logFile = a.logFile := hlog'.trans hlog
  by_cases hr : a.Rotates data
  · have hstep : b =
        resized ((a.takeChunk data n).rotateLog fails (a.maxDiskBytes.toNat / 2)) := if_pos hr
    have hcases := rotateLog_cases fails (a.maxDiskBytes.toNat / 2) hread
      hflush.named
    rw [Lib.rtake_of_length_le h.short] at hcases
    rcases hcases with ⟨-, -, heq⟩ | ⟨-, heq⟩ | ⟨-, heq⟩
    · rcases heq with heq | ⟨c, heq⟩
      · rw [hstep, heq]
        exact Or.inl ⟨hflush, hread⟩
      · rw [hstep, heq]
        have htmp := (hflush.apart.withTmp_logFile c).trans hread
        refine Or.inl ⟨⟨hflush.wellFormed.write _ _, fun p hp => ?_, ?_, ?_, ?_⟩, htmp⟩
        · cases p with
          | log => exact hflush.unnamed .log ((withTmp_named _ c).symm.trans hp)
          | tmp =>
            have hname := InodeStore.write_names (a.takeChunk data n).flush.store .tmp c
            exact InodeStore.create_inode_ne hflush.old (hflush.unnamed .tmp)
              (Option.some.inj (hname.symm.trans hp))
        · exact hflush.old.trans_le (InodeStore.next_le_write _ _ _)
        · exact ⟨_, (withTmp_named _ c).trans hflush.named.choose_spec⟩
        · exact htmp.symm ▸ h.short
    · rw [hstep, heq]
      exact Or.inl ⟨hflush.apart.replaced_detached h.short, replaced_logFile _ _⟩
    · obtain ⟨hattached, hnew⟩ := hflush.apart.reopened_attached a.logFile
      rw [hstep, heq]
      exact Or.inr ⟨⟨hattached.wellFormed, hattached.named⟩, hnew⟩
  · have hstep : b = a.takeChunk data n := if_neg hr
    rw [hstep]
    exact Or.inl ⟨hchunk, hlog⟩

theorem resized_rotateLog_maxDiskBytes (a : DiskAppender) (fails : Option RotateCall)
    (keepBytes : ℕ) :
    (resized (a.rotateLog fails keepBytes)).maxDiskBytes = a.maxDiskBytes := by
  unfold rotateLog
  dsimp only
  split
  · rfl
  · split <;> rfl

@[simp] theorem step_maxDiskBytes (a : DiskAppender) (i : DiskInput) :
    (a.step i).maxDiskBytes = a.maxDiskBytes := by
  cases i with
  | chunk data n fails =>
    rw [step]
    split_ifs
    · exact resized_rotateLog_maxDiskBytes _ _ _
    · rfl
  | flush => rfl

@[simp] theorem run_maxDiskBytes (a : DiskAppender) (is : List DiskInput) :
    (run step a is).maxDiskBytes = a.maxDiskBytes := by
  induction is generalizing a with
  | nil => rfl
  | cons i is ih => rw [run_cons, ih, step_maxDiskBytes]

theorem start_attached (file : Bytes) (maxDiskBytes : UInt64) :
    (start file maxDiskBytes).Attached := by
  have hname (p : LogFileName) : (start file maxDiskBytes).store.names.get p =
      if p = .log then some 0 else none := by cases p <;> rfl
  refine ⟨⟨fun p q i hp hq => ?_, fun p i hp => ?_⟩, hname .log⟩
  · rw [hname] at hp hq
    split_ifs at hp hq with hpl hql
    rw [hpl, hql]
  · rw [hname] at hp
    split_ifs at hp
    rw [← Option.some.inj hp]
    exact Nat.one_pos

end Steps

/-! ### When every call works -/

section Whole

variable {a : DiskAppender} {total : Bytes}

/-- The log is a long enough end of everything that was accepted, and is counted. -/
structure EndOf (a : DiskAppender) (total : Bytes) : Prop where
  attached : a.Attached
  suffix : a.content <:+ total
  long : min total.length (a.maxDiskBytes.toNat / 2) ≤ a.content.length
  counted : a.fileSizeApprox = a.content.length

theorem EndOf.chunk (h : a.EndOf total) (data : Bytes) (n : ℕ) :
    (a.step (.chunk data n none)).EndOf (total ++ data) ∧
      (1 ≤ a.maxDiskBytes.toNat →
        (a.step (.chunk data n none)).content.length < a.maxDiskBytes.toNat) := by
  have hlimit : a.maxDiskBytes.toNat ≤ u64Max := Nat.le_pred_of_lt a.maxDiskBytes.toNat_lt
  have hlong := h.long
  have hsuffix : a.content ++ data <:+ total ++ data := by
    obtain ⟨front, hfront⟩ := h.suffix
    exact ⟨front, by rw [← hfront, List.append_assoc]⟩
  rcases h.attached.chunk data n none with
    ⟨hr, hb, hcontent, hsize⟩ | ⟨-, -, hb, hcontent, hsize⟩ | ⟨-, hnone, -⟩ | ⟨-, hnone, -⟩
  · have hlen := congrArg List.length hcontent
    rw [List.length_append] at hlen
    rw [Rotates, h.counted] at hr
    rw [h.counted] at hsize
    refine ⟨⟨hb, hcontent ▸ hsuffix, ?_, ?_⟩, fun _ => ?_⟩
    · rw [step_maxDiskBytes, hlen, List.length_append]
      omega
    · omega
    · omega
  · have hlen := congrArg List.length hcontent
    rw [Lib.length_rtake, List.length_append] at hlen
    refine ⟨⟨hb, ?_, ?_, hsize⟩, fun hpos => ?_⟩
    · rw [hcontent]
      exact (Lib.rtake_suffix _ _).trans hsuffix
    · rw [step_maxDiskBytes, hlen, List.length_append]
      omega
    · omega
  · exact absurd hnone (by simp)
  · exact absurd rfl hnone

theorem EndOf.flush (h : a.EndOf total) : a.flush.EndOf total := by
  have hcontent : a.flush.content = a.content := pass_content a _
  exact ⟨h.attached.flush, hcontent.symm ▸ h.suffix, hcontent.symm ▸ h.long,
    hcontent.symm ▸ h.counted⟩

theorem EndOf.step (h : a.EndOf total) {i : DiskInput} (hi : i.Works) :
    (a.step i).EndOf (total ++ i.data) := by
  cases i with
  | chunk data n fails =>
    obtain rfl : fails = none := hi
    exact (h.chunk data n).1
  | flush =>
    rw [DiskInput.data, List.append_nil]
    exact h.flush

theorem EndOf.run (h : a.EndOf total) {is : List DiskInput} (hi : ∀ i ∈ is, i.Works) :
    (run DiskAppender.step a is).EndOf (total ++ is.flatMap DiskInput.data) := by
  induction is generalizing a total with
  | nil => simpa using h
  | cons i is ih =>
    rw [List.flatMap_cons, ← List.append_assoc]
    exact ih (h.step (hi i List.mem_cons_self)) fun j hj => hi j (List.mem_cons_of_mem i hj)

theorem start_endOf (file : Bytes) (maxDiskBytes : UInt64) :
    (start file maxDiskBytes).EndOf file := by
  have hcontent : (start file maxDiskBytes).content = file := List.append_nil _
  refine ⟨start_attached file maxDiskBytes, ⟨[], hcontent⟩, ?_, ?_⟩
  · rw [hcontent]
    exact Nat.min_le_left _ _
  · rw [hcontent]
    rfl

end Whole

/-- After any messages the log with what the writer holds is a suffix of what the log was and
what was accepted, at least half the limit long; a chunk leaves it shorter than the limit and
counted; and a flush is acknowledged when all of it is in the file. -/
theorem log_run (file : Bytes) (maxDiskBytes : UInt64) (hpos : 1 ≤ maxDiskBytes.toNat)
    (is : List DiskInput) (hi : ∀ i ∈ is, i.Works) :
    let a := run step (start file maxDiskBytes) is
    let total := file ++ is.flatMap DiskInput.data
    a.logFile ++ a.buffer <:+ total ∧
      min total.length (maxDiskBytes.toNat / 2) ≤ (a.logFile ++ a.buffer).length ∧
      (∀ data n fails, is.getLast? = some (.chunk data n fails) →
        (a.logFile ++ a.buffer).length < maxDiskBytes.toNat ∧
          a.fileSizeApprox = (a.logFile ++ a.buffer).length) ∧
      (is.getLast? = some .flush → a.buffer = []) := by
  intro a total
  have h : a.EndOf total := (start_endOf file maxDiskBytes).run hi
  have hmax : a.maxDiskBytes = maxDiskBytes := run_maxDiskBytes _ _
  rw [← h.attached.content_eq]
  refine ⟨h.suffix, hmax ▸ h.long, fun data n fails hlast => ⟨?_, h.counted⟩, fun hlast => ?_⟩
  · obtain ⟨before, rfl⟩ := List.getLast?_eq_some_iff.mp hlast
    obtain rfl : fails = none := hi _ (List.mem_append_right _ List.mem_cons_self)
    have hbefore := (start_endOf file maxDiskBytes).run fun i hmem =>
      hi i (List.mem_append_left _ hmem)
    have ha : a = (run step (start file maxDiskBytes) before).step (.chunk data n none) := by
      rw [show a = run step (start file maxDiskBytes) _ from rfl, run_append]
      rfl
    have hlt := (hbefore.chunk data n).2
    rw [run_maxDiskBytes] at hlt
    rw [ha]
    exact hlt hpos
  · obtain ⟨before, rfl⟩ := List.getLast?_eq_some_iff.mp hlast
    have ha : a = (run step (start file maxDiskBytes) before).flush := by
      rw [show a = run step (start file maxDiskBytes) _ from rfl, run_append]
      rfl
    rw [ha, flush_buffer]

/-- A log with a limit of four bytes. -/
theorem log_run_four :
    let a := run step (start [1, 2] 4) [.chunk [3] 0 none, .chunk [4, 5] 1 none, .flush]
    a.logFile ++ a.buffer <:+ [1, 2, 3, 4, 5] ∧ a.buffer = [] := by
  obtain ⟨hsuffix, -, -, hflush⟩ := log_run [1, 2] 4 (by decide)
    [.chunk [3] 0 none, .chunk [4, 5] 1 none, .flush] (by simp [DiskInput.Works])
  exact ⟨hsuffix, hflush rfl⟩

/-! ### When a rotation fails -/

/-- What is left of the bytes written since some moment: a rotation that comes to the rename
drops all but the last of them. -/
def trim (a : DiskAppender) (written : Bytes) : DiskInput → Bytes
  | .chunk data _ fails =>
    if a.Rotates data ∧ (fails = none ∨ fails = some .reopen) then
      (written ++ data).rtake (a.maxDiskBytes.toNat / 2)
    else written ++ data
  | .flush => written

/-- The bytes of a run that the rotations of the run leave. -/
def survivors (a : DiskAppender) (written : Bytes) : List DiskInput → Bytes
  | [] => written
  | i :: is => survivors (a.step i) (a.trim written i) is

/-- A chunk comes while the writer's file is the log. -/
def Writable (a : DiskAppender) : DiskInput → Prop
  | .chunk _ _ _ => a.store.names.get .log = some a.handle
  | .flush => True

section Failures

variable {a : DiskAppender} {written : Bytes} {is : List DiskInput}

theorem Detached.not_writable (h : a.Detached) {data : Bytes} {n : ℕ} {fails : Option RotateCall} :
    ¬a.Writable (.chunk data n fails) := h.unnamed .log

theorem Detached.not_attached (h : a.Detached) : ¬a.Attached := fun ha => h.unnamed .log ha.named

/-- Only a rotation that fails to open the new log takes the writer off the log. -/
theorem Attached.detached_iff (h : a.Attached) (i : DiskInput) :
    (a.step i).Detached ↔ ∃ data n, i = .chunk data n (some .reopen) ∧ a.Rotates data := by
  constructor
  · intro hd
    cases i with
    | flush => exact absurd h.flush hd.not_attached
    | chunk data n fails =>
      rcases h.chunk data n fails with h' | h' | h' | h'
      · exact absurd h'.2.1 hd.not_attached
      · exact absurd h'.2.2.1 hd.not_attached
      · exact ⟨data, n, by rw [h'.2.1], h'.1⟩
      · exact absurd h'.2.2.2.1 hd.not_attached
  · rintro ⟨data, n, rfl, hr⟩
    rcases h.chunk data n (some .reopen) with h' | h' | h' | h'
    · exact absurd hr h'.1
    · exact absurd h'.2.1 (by simp)
    · exact h'.2.2.1
    · exact absurd rfl h'.2.2.1

/-- The writer is on the log, or on a file without a name. -/
theorem attached_or_detached (file : Bytes) (maxDiskBytes : UInt64) (is : List DiskInput) :
    (run step (start file maxDiskBytes) is).Attached ∨
      (run step (start file maxDiskBytes) is).Detached := by
  suffices hrun : ∀ a : DiskAppender, a.Attached ∨ a.Detached →
      (run step a is).Attached ∨ (run step a is).Detached from
    hrun _ (Or.inl (start_attached file maxDiskBytes))
  induction is with
  | nil => exact fun a h => h
  | cons i is ih =>
    refine fun a h => ih _ ?_
    cases i with
    | chunk data n fails =>
      rcases h with h | h
      · rcases h.chunk data n fails with h' | h' | h' | h'
        · exact Or.inl h'.2.1
        · exact Or.inl h'.2.2.1
        · exact Or.inr h'.2.2.1
        · exact Or.inl h'.2.2.2.1
      · exact (h.chunk data n fails).symm.imp And.left And.left
    | flush => exact h.imp Attached.flush fun h => (h.pass _).1

/-- The log a later start reads ends with these bytes. -/
inductive EndsWith (a : DiskAppender) (written : Bytes) : Prop
  | attached (h : a.Attached) (hs : written <:+ a.content) : EndsWith a written
  | detached (h : a.Detached) (hs : written <:+ a.logFile) : EndsWith a written

theorem EndsWith.logFile (h : a.EndsWith written) : written <:+ a.flush.logFile := by
  cases h with
  | attached h hs => exact h.flush_logFile.symm ▸ hs
  | detached h hs => exact (h.pass _).2.symm ▸ hs

theorem append_suffix {b c : Bytes} (h : b <:+ c) (d : Bytes) : b ++ d <:+ c ++ d := by
  obtain ⟨front, rfl⟩ := h
  exact ⟨front, (List.append_assoc ..).symm⟩

theorem rtake_suffix_rtake {b c : Bytes} (h : b <:+ c) (n : ℕ) : b.rtake n <:+ c.rtake n := by
  refine List.suffix_of_suffix_length_le ((Lib.rtake_suffix b n).trans h) (Lib.rtake_suffix c n) ?_
  have hle := h.length_le
  rw [Lib.length_rtake, Lib.length_rtake]
  omega

theorem EndsWith.step (h : a.EndsWith written) {i : DiskInput} (hi : a.Writable i) :
    (a.step i).EndsWith (a.trim written i) := by
  cases i with
  | flush =>
    cases h with
    | attached h hs => exact .attached h.flush ((pass_content a _).symm ▸ hs)
    | detached h hs => exact .detached (h.pass _).1 ((h.pass _).2.symm ▸ hs)
  | chunk data n fails =>
    cases h with
    | detached h hs => exact absurd hi h.not_writable
    | attached h hs =>
      have hdata := append_suffix hs data
      rcases h.chunk data n fails with ⟨hr, hb, hcontent, -⟩ | ⟨hr, hf, hb, hcontent, -⟩ |
        ⟨hr, hf, hb, hlog⟩ | ⟨hr, hnone, hre, hb, hcontent⟩
      · rw [trim, if_neg fun hand => hr hand.1]
        exact .attached hb (hcontent.symm ▸ hdata)
      · rw [trim, if_pos ⟨hr, Or.inl hf⟩]
        exact .attached hb (hcontent.symm ▸ rtake_suffix_rtake hdata _)
      · rw [trim, if_pos ⟨hr, Or.inr hf⟩]
        exact .detached hb (hlog.symm ▸ rtake_suffix_rtake hdata _)
      · rw [trim, if_neg fun hand => hand.2.elim hnone hre]
        exact .attached hb (hcontent.symm ▸ hdata)

theorem EndsWith.run (h : a.EndsWith written) (hi : Meets DiskAppender.step Writable a is) :
    (run DiskAppender.step a is).EndsWith (a.survivors written is) := by
  induction is generalizing a written with
  | nil => exact h
  | cons i is ih => exact ih (h.step hi.1) hi.2

/-- Rotations leave at least half the limit of what was written. -/
theorem survivors_eq (hshort : (written ++ is.flatMap DiskInput.data).length ≤
    a.maxDiskBytes.toNat / 2) : a.survivors written is = written ++ is.flatMap DiskInput.data := by
  induction is generalizing a written with
  | nil => exact (List.append_nil _).symm
  | cons i is ih =>
    rw [List.flatMap_cons, ← List.append_assoc] at hshort ⊢
    have htrim : a.trim written i = written ++ i.data := by
      have hle : (written ++ i.data).length ≤ a.maxDiskBytes.toNat / 2 :=
        (List.length_append ▸ Nat.le_add_right _ _).trans hshort
      cases i with
      | flush => exact (List.append_nil _).symm
      | chunk data n fails =>
        have hkeep : (written ++ data).rtake (a.maxDiskBytes.toNat / 2) = written ++ data :=
          Lib.rtake_of_length_le hle
        rw [trim, hkeep, ite_self]
        rfl
    rw [survivors, htrim]
    exact ih (by rwa [step_maxDiskBytes])

end Failures

/-- Whatever rotations fail, and at whatever call: the bytes written after any moment are at the
end of the file that the next start reads, but for what later rotations dropped from the front,
if each of their chunks came while the writer's file was the log. It is not after a rotation that
came to the rename and failed to open the new log; a chunk that comes then is not in that file. -/
theorem written_after (file : Bytes) (maxDiskBytes : UInt64) (before after : List DiskInput) :
    let a := run step (start file maxDiskBytes) before
    (Meets step Writable a after →
      a.survivors [] after <:+ (run step a after).flush.logFile ∧
        ((after.flatMap DiskInput.data).length ≤ maxDiskBytes.toNat / 2 →
          a.survivors [] after = after.flatMap DiskInput.data)) ∧
      ∀ data n fails, ¬a.Writable (.chunk data n fails) →
        (a.step (.chunk data n fails)).flush.logFile = a.logFile := by
  intro a
  have hcases : a.Attached ∨ a.Detached := attached_or_detached file maxDiskBytes before
  constructor
  · intro hmeets
    have hstart : a.EndsWith [] :=
      hcases.elim (.attached · List.nil_suffix) (.detached · List.nil_suffix)
    refine ⟨(hstart.run hmeets).logFile, fun hshort => ?_⟩
    exact survivors_eq (by rwa [run_maxDiskBytes])
  · intro data n fails hw
    have hd : a.Detached := hcases.resolve_left fun h => hw h.named
    rcases hd.chunk data n fails with ⟨hb, hlog⟩ | ⟨hb, hcontent⟩
    · exact (hb.pass _).2.trans hlog
    · exact hb.flush_logFile.trans hcontent

/-- The rename fails; the next byte is in the log. -/
theorem written_after_rename :
    [5] <:+ (run step (run step (start [] 4) [.chunk [1, 2, 3, 4] 4 (some .rename)])
      [.chunk [5] 1 none]).flush.logFile := by
  obtain ⟨hend, hall⟩ := (written_after [] 4 [.chunk [1, 2, 3, 4] 4 (some .rename)]
    [.chunk [5] 1 none]).1 ⟨rfl, trivial⟩
  rwa [hall (by decide)] at hend

/-- The new log cannot be opened; the next byte is not in it, and a rotation that then works
does not bring it back. -/
theorem not_written_after_reopen :
    let a := run step (start [] 4) [.chunk [1, 2, 3, 4] 4 (some .reopen)]
    ¬[5] <:+ (run step a [.chunk [5] 1 none]).flush.logFile := by
  decide

end DiskAppender

end Forgetty
