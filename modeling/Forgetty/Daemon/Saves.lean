import Forgetty.Session.Snapshot
import Forgetty.Workspace.Persistence
import Forgetty.Lib.InodeStore

/-! The savers of a running daemon: the event watcher, the debounced and the periodic
save, the handler of `set_pinned`, and the exit handlers. Each takes a snapshot under
the lock, writes the one temporary file of the session and renames it; exit handlers
then move the file out of `active/`. Nothing orders the savers. What is stored is a
state of the session, never goes back, and stays away after an exit move, in every
run in which the savers use the temporary file one at a time in the order of their
snapshots, no rename fails, and the exit move is made when no save is under way and
is the last thing. -/

namespace Forgetty

open Lib

inductive SaverPhase where
  | idle
  /-- The snapshot is taken. -/
  | waiting
  /-- Writing the temporary file. -/
  | writing (inode offset : ℕ)
  /-- The rename failed: writing the file itself. -/
  | direct (inode offset : ℕ)
  /-- An exit handler before its move. -/
  | moving
  deriving DecidableEq

/-- A saver with the snapshot it took, as text and as a moment of the session. -/
structure Saver (α : Type) where
  phase : SaverPhase
  exits : Bool
  moment : ℕ
  json : List α

namespace Saver

variable {α : Type}

def resting : Saver α := { phase := .idle, exits := false, moment := 0, json := [] }

/-- The save is over, well or not. -/
def done (sv : Saver α) : Saver α := { sv with phase := if sv.exits then .moving else .idle }

/-- No save is under way. -/
def Quiet (sv : Saver α) : Prop := sv.phase = .idle ∨ sv.phase = .moving

theorem quiet_done (sv : Saver α) : sv.done.Quiet := by
  unfold done Quiet
  split_ifs <;> simp

end Saver

/-- The steps of the session and of its savers. A `works` tells whether the rename
system call works, `n` how many symbols a write call takes. -/
inductive SaveEvent where
  | mutate (op : Op)
  | snapshot (saver : ℕ) (exits : Bool) (procCwd : ℕ → Option PathBuf)
  | create (saver : ℕ)
  | write (saver n : ℕ)
  | rename (saver : ℕ) (works : Bool)
  | finish (saver : ℕ)
  | abort (saver : ℕ)
  | exitMove (saver : ℕ) (works : Bool)

/-- The saver that takes a step. -/
def SaveEvent.saver : SaveEvent → Option ℕ
  | .mutate _ => none
  | .snapshot s _ _ | .create s | .write s _ | .rename s _ | .finish s | .abort s | .exitMove s _ =>
    some s

/-- A session, all its states up to now, its files, its savers, the moments of the
saves that were completed, and whether an exit handler moved the file out. -/
structure SaveState (α : Type) where
  sm : SessionManager
  moments : List SessionManager
  store : InodeStore FilePath α
  savers : ℕ → Saver α
  saved : List ℕ
  movedOut : Bool

namespace SaveState

section Step

variable {α : Type} [Inhabited α] (w : World) (codec : SessionCodec α) (id : Uuid)

def setSaver (t : SaveState α) (s : ℕ) (sv : Saver α) : SaveState α :=
  { t with savers := Function.update t.savers s sv }

/-- Write some of what is left of the text to the inode. -/
def writeSome (t : SaveState α) (s inode offset n : ℕ) (phase : ℕ → SaverPhase) : SaveState α :=
  let part := ((t.savers s).json.drop offset).take n
  { t with store := t.store.setData inode (overwriteAt (t.store.data inode) offset part) }.setSaver s
    { t.savers s with phase := phase (offset + part.length) }

def step (t : SaveState α) : SaveEvent → SaveState α
  | .mutate op => { t with sm := t.sm.apply w op, moments := t.moments ++ [t.sm.apply w op] }
  | .snapshot s exits procCwd =>
    if (t.savers s).phase = .idle then
      let taken := t.sm.snapshotToWorkspaceState w procCwd
      let resting := { Saver.resting with exits := exits, moment := t.moments.length }
      { t with sm := taken.1, moments := t.moments ++ [taken.1] }.setSaver s
        (match codec.toStringPretty taken.2 with
          | .ok json => { resting with phase := .waiting, json := json }
          -- nothing is written of what cannot be printed
          | .error _ => resting.done)
    else t
  | .create s =>
    match (t.savers s).phase with
    | .waiting =>
      let opened := t.store.create (.jsonTmp (sessionPathActiveFor id))
      { t with store := opened.1 }.setSaver s { t.savers s with phase := .writing opened.2 0 }
    | _ => t
  | .write s n =>
    match (t.savers s).phase with
    | .writing inode offset => t.writeSome s inode offset n (.writing inode)
    | .direct inode offset => t.writeSome s inode offset n (.direct inode)
    | _ => t
  | .rename s works =>
    match (t.savers s).phase with
    | .writing _ offset =>
      if offset = (t.savers s).json.length then
        let renamed := t.store.rename (.jsonTmp (sessionPathActiveFor id)) (sessionPathActiveFor id)
        if works && renamed.2 then
          { t with store := renamed.1, saved := t.saved ++ [(t.savers s).moment] }.setSaver s
            (t.savers s).done
        else
          let opened := t.store.create (sessionPathActiveFor id)
          { t with store := opened.1 }.setSaver s { t.savers s with phase := .direct opened.2 0 }
      else t
    | _ => t
  | .finish s =>
    match (t.savers s).phase with
    | .direct _ offset =>
      if offset = (t.savers s).json.length then
        { t with saved := t.saved ++ [(t.savers s).moment] }.setSaver s (t.savers s).done
      else t
    | _ => t
  | .abort s =>
    match (t.savers s).phase with
    | .waiting | .writing _ _ | .direct _ _ => t.setSaver s (t.savers s).done
    | _ => t
  | .exitMove s works =>
    match (t.savers s).phase with
    | .moving =>
      let dest := if t.sm.isPinned then sessionPathFor id else trashPathFor id
      if works then
        { t with
          store := (t.store.rename (sessionPathActiveFor id) dest).1
          movedOut := true }.setSaver s { t.savers s with phase := .idle }
      else t.setSaver s { t.savers s with phase := .idle }
    | _ => t

/-- The file is there and holds the last state saved, the saves follow the time, and
after an exit move there is no file. -/
structure Faithful (t : SaveState α) : Prop where
  decodes : ∀ c, t.store.read (sessionPathActiveFor id) = some c → ∃ k m,
    t.saved.getLast? = some k ∧ t.moments[k]? = some m ∧
      codec.decode c = some (m.toWorkspaceState w)
  monotone : t.saved.Pairwise (· ≤ ·)
  gone : t.movedOut = true → t.store.read (sessionPathActiveFor id) = none

/-- No snapshot is taken after an exit move, nor one the parser would refuse. A saver
opens the temporary file when no other save is under way except those that wait with
no older snapshot. Renames work. An exit move is made when no save is under way. -/
def Orderly (t : SaveState α) : SaveEvent → Prop
  | .snapshot _ _ procCwd => t.movedOut = false ∧
      ((t.sm.refreshPaneCwds procCwd).toWorkspaceState w).nesting ≤ recursionLimit
  | .create s => ∀ s' ≠ s, (t.savers s').Quiet ∨
      (t.savers s').phase = .waiting ∧ (t.savers s).moment ≤ (t.savers s').moment
  | .rename _ works => works = true
  | .exitMove s _ => ∀ s' ≠ s, (t.savers s').Quiet
  | _ => True

end Step

section Setter

variable {α : Type} {t : SaveState α} {s s' : ℕ} {sv : Saver α}

@[simp] theorem setSaver_self : (t.setSaver s sv).savers s = sv := by simp [setSaver]

theorem setSaver_of_ne (h : s' ≠ s) : (t.setSaver s sv).savers s' = t.savers s' := by
  simp [setSaver, h]

@[simp] theorem setSaver_store : (t.setSaver s sv).store = t.store := rfl

@[simp] theorem setSaver_moments : (t.setSaver s sv).moments = t.moments := rfl

@[simp] theorem setSaver_saved : (t.setSaver s sv).saved = t.saved := rfl

@[simp] theorem setSaver_movedOut : (t.setSaver s sv).movedOut = t.movedOut := rfl

end Setter

/-! ### The invariant of orderly runs -/

section Invariant

variable {α : Type} {w : World} {codec : SessionCodec α} {id : Uuid} {t : SaveState α}

/-- The text is read as the state of the session at the moment. -/
def Snap (w : World) (codec : SessionCodec α) (t : SaveState α) (k : ℕ) (c : List α) : Prop :=
  ∃ m, t.moments[k]? = some m ∧ codec.decode c = some (m.toWorkspaceState w)

/-- Nobody but the saver uses the temporary file, and who waits for it has no older
snapshot. -/
def Alone (t : SaveState α) (s : ℕ) : Prop :=
  ∀ s' ≠ s, (t.savers s').Quiet ∨
    (t.savers s').phase = .waiting ∧ (t.savers s).moment ≤ (t.savers s').moment

structure Inv (w : World) (codec : SessionCodec α) (id : Uuid) (t : SaveState α) : Prop where
  store : t.store.WellFormed
  /-- Snapshots are not older than what was saved. -/
  snap : ∀ s, ¬(t.savers s).Quiet →
    Snap w codec t (t.savers s).moment (t.savers s).json ∧ ∀ k ∈ t.saved, k ≤ (t.savers s).moment
  not_direct : ∀ s i o, (t.savers s).phase ≠ .direct i o
  writing : ∀ s i o, (t.savers s).phase = .writing i o →
    t.store.names.get (.jsonTmp (.active id)) = some i ∧
      t.store.data i = (t.savers s).json.take o ∧ o ≤ (t.savers s).json.length ∧ Alone t s
  stored : ∀ c, t.store.read (.active id) = some c →
    ∃ k, t.saved.getLast? = some k ∧ Snap w codec t k c
  sorted : t.saved.Pairwise (· ≤ ·)
  saved_lt : ∀ k ∈ t.saved, k < t.moments.length
  gone : t.movedOut = true → t.store.read (.active id) = none ∧ ∀ s, (t.savers s).Quiet

theorem Inv.faithful (h : Inv w codec id t) : Faithful w codec id t where
  decodes c hc := by
    obtain ⟨k, hk, m, hm, hdecode⟩ := h.stored c hc
    exact ⟨k, m, hk, hm, hdecode⟩
  monotone := h.sorted
  gone hm := (h.gone hm).1

theorem Snap.grow {t t' : SaveState α} {k : ℕ} {c : List α} (h : Snap w codec t k c)
    {ms : List SessionManager} (hms : t'.moments = t.moments ++ ms) : Snap w codec t' k c := by
  obtain ⟨m, hm, hdecode⟩ := h
  have hlt := (List.getElem?_eq_some_iff.mp hm).1
  exact ⟨m, by rw [hms, List.getElem?_append_left hlt, hm], hdecode⟩

theorem Snap.lt {k : ℕ} {c : List α} (h : Snap w codec t k c) : k < t.moments.length := by
  obtain ⟨m, hm, -⟩ := h
  exact (List.getElem?_eq_some_iff.mp hm).1

theorem not_quiet_waiting {sv : Saver α} (h : sv.phase = .waiting) : ¬sv.Quiet := by
  simp [Saver.Quiet, h]

theorem not_quiet_writing {sv : Saver α} {i o : ℕ} (h : sv.phase = .writing i o) : ¬sv.Quiet := by
  simp [Saver.Quiet, h]

/-- A saver comes to rest. -/
theorem Inv.quiet (h : Inv w codec id t) (s : ℕ) {sv : Saver α} (hq : sv.Quiet) :
    Inv w codec id (t.setSaver s sv) where
  store := h.store
  snap s' hs' := by
    have hne : s' ≠ s := by
      rintro rfl
      exact hs' (by rwa [setSaver_self])
    rw [setSaver_of_ne hne] at hs' ⊢
    exact h.snap s' hs'
  not_direct s' i o := by
    by_cases hne : s' = s
    · rw [hne, setSaver_self]
      rcases hq with hq | hq <;> simp [hq]
    · rw [setSaver_of_ne hne]
      exact h.not_direct s' i o
  writing s' i o hp := by
    have hne : s' ≠ s := by
      rintro rfl
      exact not_quiet_writing hp (by rwa [setSaver_self])
    rw [setSaver_of_ne hne] at hp ⊢
    obtain ⟨hname, hdata, hlen, halone⟩ := h.writing s' i o hp
    refine ⟨hname, hdata, hlen, fun s'' hs'' => ?_⟩
    by_cases hs : s'' = s
    · exact Or.inl (by rwa [hs, setSaver_self])
    · rw [setSaver_of_ne hs, setSaver_of_ne hne]
      exact halone s'' hs''
  stored := h.stored
  sorted := h.sorted
  saved_lt := h.saved_lt
  gone hm := by
    refine ⟨(h.gone hm).1, fun s' => ?_⟩
    by_cases hne : s' = s
    · rwa [hne, setSaver_self]
    · rw [setSaver_of_ne hne]
      exact (h.gone hm).2 s'

/-- The session goes on. -/
theorem Inv.moment (h : Inv w codec id t) (sm : SessionManager) (ms : List SessionManager) :
    Inv w codec id { t with sm := sm, moments := t.moments ++ ms } where
  store := h.store
  snap s hs := ⟨(h.snap s hs).1.grow rfl, (h.snap s hs).2⟩
  not_direct := h.not_direct
  writing := h.writing
  stored c hc := by
    obtain ⟨k, hk, hsnap⟩ := h.stored c hc
    exact ⟨k, hk, hsnap.grow rfl⟩
  sorted := h.sorted
  saved_lt k hk := by
    have := h.saved_lt k hk
    simp only [List.length_append]
    omega
  gone := h.gone

/-- A saver takes a snapshot, not older than any. -/
theorem Inv.wait (h : Inv w codec id t) (s : ℕ) {sv : Saver α} (hidle : (t.savers s).Quiet)
    (hp : sv.phase = .waiting) (hsnap : Snap w codec t sv.moment sv.json)
    (hnew : t.moments.length ≤ sv.moment + 1) (hm : t.movedOut = false) :
    Inv w codec id (t.setSaver s sv) where
  store := h.store
  snap s' hs' := by
    by_cases hne : s' = s
    · rw [hne, setSaver_self]
      refine ⟨hsnap, fun k hk => ?_⟩
      have := h.saved_lt k hk
      omega
    · rw [setSaver_of_ne hne] at hs' ⊢
      exact h.snap s' hs'
  not_direct s' i o := by
    by_cases hne : s' = s
    · rw [hne, setSaver_self, hp]
      exact SaverPhase.noConfusion
    · rw [setSaver_of_ne hne]
      exact h.not_direct s' i o
  writing s' i o hw := by
    have hne : s' ≠ s := by
      rintro rfl
      rw [setSaver_self, hp] at hw
      exact nomatch hw
    rw [setSaver_of_ne hne] at hw ⊢
    obtain ⟨hname, hdata, hlen, halone⟩ := h.writing s' i o hw
    refine ⟨hname, hdata, hlen, fun s'' hs'' => ?_⟩
    by_cases hs : s'' = s
    · rw [hs, setSaver_self, setSaver_of_ne hne]
      have := (h.snap s' (not_quiet_writing hw)).1.lt
      exact Or.inr ⟨hp, by omega⟩
    · rw [setSaver_of_ne hs, setSaver_of_ne hne]
      exact halone s'' hs''
  stored := h.stored
  sorted := h.sorted
  saved_lt := h.saved_lt
  gone hm' := absurd hm' (by rw [setSaver_movedOut, hm]; exact Bool.false_ne_true)

/-- No other saver is writing. -/
theorem Alone.not_writing {s s' i o : ℕ} (h : Alone t s) (hne : s' ≠ s) :
    (t.savers s').phase ≠ .writing i o := by
  intro hw
  rcases h s' hne with hq | ⟨hq, -⟩
  · exact not_quiet_writing hw hq
  · rw [hw] at hq
    exact nomatch hq

/-- A saver that is alone opens or writes the temporary file. -/
theorem Inv.write (h : Inv w codec id t) {s : ℕ} (hbusy : ¬(t.savers s).Quiet) (halone : Alone t s)
    {store : InodeStore FilePath α} {i o : ℕ} (hwf : store.WellFormed)
    (hread : store.read (.active id) = t.store.read (.active id))
    (hname : store.names.get (.jsonTmp (.active id)) = some i)
    (hdata : store.data i = (t.savers s).json.take o) (ho : o ≤ (t.savers s).json.length) :
    Inv w codec id
      ({ t with store := store }.setSaver s { t.savers s with phase := .writing i o }) where
  store := hwf
  snap s' hs' := by
    by_cases hne : s' = s
    · rw [hne, setSaver_self]
      exact h.snap s hbusy
    · rw [setSaver_of_ne hne] at hs' ⊢
      exact h.snap s' hs'
  not_direct s' i' o' := by
    by_cases hne : s' = s
    · rw [hne, setSaver_self]
      exact SaverPhase.noConfusion
    · rw [setSaver_of_ne hne]
      exact h.not_direct s' i' o'
  writing s' i' o' hw := by
    have hs : s' = s := by
      by_contra hne
      rw [setSaver_of_ne hne] at hw
      exact halone.not_writing hne hw
    subst hs
    rw [setSaver_self] at hw ⊢
    obtain ⟨rfl, rfl⟩ := SaverPhase.writing.inj hw
    refine ⟨hname, hdata, ho, fun s'' hs'' => ?_⟩
    rw [setSaver_of_ne hs'', setSaver_self]
    exact halone s'' hs''
  stored c hc := h.stored c (hread ▸ hc)
  sorted := h.sorted
  saved_lt := h.saved_lt
  gone hm := absurd ((h.gone hm).2 s) hbusy

/-- The rename of a saver that wrote its whole text. -/
theorem Inv.commit (h : Inv w codec id t) {s i : ℕ}
    (hw : (t.savers s).phase = .writing i (t.savers s).json.length) :
    Inv w codec id ({ t with
      store := (t.store.rename (.jsonTmp (.active id)) (.active id)).1
      saved := t.saved ++ [(t.savers s).moment] }.setSaver s (t.savers s).done) := by
  obtain ⟨hname, hdata, -, halone⟩ := h.writing s i _ hw
  have hbusy := not_quiet_writing hw
  obtain ⟨hsnap, hlast⟩ := h.snap s hbusy
  rw [List.take_length] at hdata
  constructor
  case store => exact h.store.rename _ _
  case snap =>
    intro s' hs'
    have hne : s' ≠ s := by
      rintro rfl
      rw [setSaver_self] at hs'
      exact hs' (Saver.quiet_done _)
    rw [setSaver_of_ne hne] at hs' ⊢
    refine ⟨(h.snap s' hs').1, fun k hk => ?_⟩
    rcases List.mem_append.mp hk with hk | hk
    · exact (h.snap s' hs').2 k hk
    · rw [List.mem_singleton.mp hk]
      exact ((halone s' hne).resolve_left hs').2
  case not_direct => exact (h.quiet s (Saver.quiet_done (t.savers s))).not_direct
  case writing =>
    intro s' i' o' hw'
    by_cases hne : s' = s
    · rw [hne, setSaver_self] at hw'
      exact absurd (Saver.quiet_done (t.savers s)) (not_quiet_writing hw')
    · rw [setSaver_of_ne hne] at hw'
      exact absurd hw' (halone.not_writing hne)
  case stored =>
    intro c hc
    rw [setSaver_store, InodeStore.read_rename hname, Option.some.injEq] at hc
    refine ⟨(t.savers s).moment, List.getLast?_concat, ?_⟩
    rw [← hc, hdata]
    exact hsnap
  case sorted =>
    rw [setSaver_saved, List.pairwise_append]
    refine ⟨h.sorted, List.pairwise_singleton _ _, fun k hk m hm => ?_⟩
    rw [List.mem_singleton.mp hm]
    exact hlast k hk
  case saved_lt =>
    intro k hk
    rcases List.mem_append.mp hk with hk | hk
    · exact h.saved_lt k hk
    · rw [List.mem_singleton.mp hk]
      exact hsnap.lt
  case gone => exact fun hm => absurd ((h.gone hm).2 s) hbusy

/-- The move of an exit handler when nothing is under way. -/
theorem Inv.moveOut (h : Inv w codec id t) {dest : FilePath} (hd : dest ≠ .active id)
    (hq : ∀ s, (t.savers s).Quiet) :
    Inv w codec id
      { t with store := (t.store.rename (.active id) dest).1, movedOut := true } := by
  have hread : (t.store.rename (.active id) dest).1.read (.active id) = none :=
    InodeStore.rename_source (Ne.symm hd)
  constructor
  case store => exact h.store.rename _ _
  case snap => exact fun s hs => absurd (hq s) hs
  case not_direct => exact h.not_direct
  case writing => exact fun s i o hw => absurd (hq s) (not_quiet_writing hw)
  case stored => exact fun c hc => nomatch hread.symm.trans hc
  case sorted => exact h.sorted
  case saved_lt => exact h.saved_lt
  case gone => exact fun _ => ⟨hread, hq⟩

end Invariant

/-! ### Steps and runs -/

section Run

variable {α : Type} [Inhabited α] {w : World} {codec : SessionCodec α} {id : Uuid}
  {t : SaveState α}

/-- What a write call adds to the part of the text that is written. -/
theorem overwriteAt_take (json : List α) {o : ℕ} (ho : o ≤ json.length) (n : ℕ) :
    overwriteAt (json.take o) o ((json.drop o).take n) =
      json.take (o + ((json.drop o).take n).length) := by
  have hlen : (json.take o).length = o := by rw [List.length_take, min_eq_left ho]
  have happend := overwriteAt_length (json.take o) ((json.drop o).take n)
  rw [hlen] at happend
  rw [happend, List.take_add, List.append_cancel_left_eq, List.take_eq_take_iff]
  simp only [List.length_take, List.length_drop]
  omega

theorem Inv.step (h : Inv w codec id t) {e : SaveEvent} (he : Orderly w t e) :
    Inv w codec id (step w codec id t e) := by
  cases e with
  | mutate op => exact h.moment _ _
  | snapshot s exits procCwd =>
    simp only [SaveState.step]
    split_ifs with hidle
    · split
      · rename_i json hjson
        obtain ⟨htext, rfl⟩ := SessionCodec.toStringPretty_eq_ok hjson
        refine Inv.wait (h.moment _ _) s (Or.inl hidle) rfl ?_ (by simp) he.1
        exact ⟨_, List.getElem?_concat_length, codec.decode_encode _ htext he.2⟩
      · exact (h.moment _ _).quiet s (Saver.quiet_done _)
    · exact h
  | create s =>
    simp only [SaveState.step]
    split
    · rename_i hwait
      have hne : FilePath.active id ≠ .jsonTmp (.active id) := by simp
      exact h.write (not_quiet_waiting hwait) he (h.store.create _) (h.store.read_create_of_ne hne)
        (InodeStore.create_names _ _) (by rw [InodeStore.create_data, List.take_zero])
        (Nat.zero_le _)
    · exact h
  | write s n =>
    simp only [SaveState.step]
    split
    · rename_i i o hw
      obtain ⟨hname, hdata, ho, halone⟩ := h.writing s i o hw
      have hne : FilePath.active id ≠ .jsonTmp (.active id) := by simp
      refine h.write (not_quiet_writing hw) halone (h.store.setData _ _)
        (h.store.read_setData_of_ne hname hne) hname ?_ ?_
      · rw [InodeStore.setData, hdata, overwriteAt_take _ ho]
        exact Function.update_self ..
      · simp only [List.length_take, List.length_drop]
        omega
    · rename_i i o hw
      exact absurd hw (h.not_direct s i o)
    · exact h
  | rename s works =>
    obtain rfl : works = true := he
    simp only [SaveState.step]
    split
    · rename_i i o hw
      split_ifs with ho hr
      · exact h.commit (ho ▸ hw)
      · -- the temporary file is there, so the rename does not fail
        obtain ⟨hname, -⟩ := h.writing s i o hw
        simp [InodeStore.rename, hname] at hr
      · exact h
    · exact h
  | finish s =>
    simp only [SaveState.step]
    split
    · rename_i i o hw
      exact absurd hw (h.not_direct s i o)
    · exact h
  | abort s =>
    simp only [SaveState.step]
    split
    · exact h.quiet s (Saver.quiet_done _)
    · exact h.quiet s (Saver.quiet_done _)
    · exact h.quiet s (Saver.quiet_done _)
    · exact h
  | exitMove s works =>
    simp only [SaveState.step]
    split
    · rename_i hm
      have hall : ∀ s', (t.savers s').Quiet := by
        intro s'
        by_cases hs : s' = s
        · exact Or.inr (hs ▸ hm)
        · exact he s' hs
      cases works with
      | true =>
        refine (h.moveOut ?_ hall).quiet s (Or.inl rfl)
        split_ifs <;> simp
      | false => exact h.quiet s (Or.inl rfl)
    · exact h

/-- The step of one saver leaves the others where they are. -/
theorem step_savers_of_ne {e : SaveEvent} {s' : ℕ} (h : e.saver ≠ some s') :
    (step w codec id t e).savers s' = t.savers s' := by
  cases e with
  | mutate op => rfl
  | _ =>
    have hne : s' ≠ _ := fun heq => h (congrArg some heq.symm)
    simp only [step]
    split <;> (try split_ifs) <;> first | rfl | exact setSaver_of_ne hne

/-- A saver that is not disturbed installs the text under the name of the file. -/
theorem run_write {s i : ℕ} (hw : (t.savers s).phase = .writing i 0) (hdata : t.store.data i = [])
    (hname : t.store.names.get (.jsonTmp (.active id)) = some i) :
    let t' := run (step w codec id) t [.write s (t.savers s).json.length, .rename s true]
    t'.saved = t.saved ++ [(t.savers s).moment] ∧
      t'.store = ((t.store.setData i (t.savers s).json).rename (.jsonTmp (.active id))
        (.active id)).1 := by
  have hwritten : overwriteAt (t.store.data i) 0 (t.savers s).json = (t.savers s).json := by
    rw [hdata]
    exact (overwriteAt_length [] _).trans (List.nil_append _)
  have hstep : step w codec id t (.write s (t.savers s).json.length) =
      { t with store := t.store.setData i (t.savers s).json }.setSaver s
        { t.savers s with phase := .writing i (t.savers s).json.length } := by
    simp only [step, hw, writeSome, List.drop_zero, List.take_length, Nat.zero_add, hwritten]
  have hset : (t.store.setData i (t.savers s).json).names.get (.jsonTmp (.active id)) = some i :=
    hname
  rw [run_cons, hstep, run_cons, run_nil]
  simp only [step, setSaver_self, if_true, setSaver_store, InodeStore.rename_found hset,
    Bool.and_self, setSaver_saved, and_self]

/-- What the sequential code does to the files is what such a saver does. -/
theorem run_save (h : t.store.WellFormed) {s : ℕ} (hidle : (t.savers s).phase = .idle)
    (exits : Bool) (procCwd : ℕ → Option PathBuf) {os : Os Uuid} (hos : os.Works) {d : Disk α}
    (hd : d.files = t.store.view)
    (htext : (t.sm.snapshotToWorkspaceState w procCwd).2.IsText) :
    let state := (t.sm.snapshotToWorkspaceState w procCwd).2
    let t' := run (step w codec id) t [.snapshot s exits procCwd, .create s,
      .write s (codec.encode state).length, .rename s true]
    t'.saved = t.saved ++ [t.moments.length] ∧
      (moveToActive os codec id state d).1.files = t'.store.view := by
  intro state t'
  have hname := InodeStore.create_names t.store (.jsonTmp (.active id))
  have hdata := InodeStore.create_data t.store (.jsonTmp (.active id))
  have hopened := h.create (.jsonTmp (.active id))
  have hother := fun {q : FilePath} (hq : q ≠ .jsonTmp (.active id)) => h.read_create_of_ne hq
  generalize hop : t.store.create (.jsonTmp (.active id)) = opened at hname hdata hopened hother
  obtain ⟨hsaved, hstore⟩ : t'.saved = t.saved ++ [t.moments.length] ∧
      t'.store = ((opened.1.setData opened.2 (codec.encode state)).rename (.jsonTmp (.active id))
        (.active id)).1 := by
    have hcreate : run (step w codec id) t [.snapshot s exits procCwd, .create s] =
        { t with
          sm := (t.sm.snapshotToWorkspaceState w procCwd).1
          moments := t.moments ++ [(t.sm.snapshotToWorkspaceState w procCwd).1]
          store := opened.1
          savers := Function.update (Function.update t.savers s
            { phase := .waiting, exits := exits, moment := t.moments.length
              json := codec.encode state }) s
            { phase := .writing opened.2 0, exits := exits, moment := t.moments.length
              json := codec.encode state } } := by
      simp only [run_cons, run_nil, step, hidle, if_true, SessionCodec.toStringPretty_ok htext,
        setSaver_self, setSaver_store, hop]
      simp [setSaver, state]
    have hrest := @run_write _ _ w codec id
      (run (step w codec id) t [.snapshot s exits procCwd, .create s]) s opened.2
      (by simp [hcreate]) (by simpa [hcreate] using hdata) (by simpa [hcreate] using hname)
    rw [show t' = run (step w codec id) (run (step w codec id) t [.snapshot s exits procCwd, .create s])
      [.write s (codec.encode state).length, .rename s true] from rfl]
    rw [hcreate] at hrest ⊢
    simpa using hrest
  refine ⟨hsaved, ?_⟩
  have hset : (opened.1.setData opened.2 (codec.encode state)).names.get (.jsonTmp (.active id)) =
      some opened.2 := hname
  rw [moveToActive, (saveToPath_works hos _ htext).2, hstore, hd]
  ext1
  funext p
  show _ = InodeStore.read _ p
  by_cases hp : p = .active id
  · rw [hp, PMap.get_insert_self, InodeStore.read_rename hset]
    simp [InodeStore.setData, state]
  · rw [PMap.get_insert_of_ne hp, PMap.get_erase]
    split_ifs with hpt
    · rw [hpt]
      exact (InodeStore.rename_source (by simp)).symm
    · rw [PMap.get_insert_of_ne hpt, InodeStore.read_rename_of_ne hpt hp,
        hopened.read_setData_of_ne hname hpt, hother hpt]
      rfl

/-- A daemon that has saved its session and starts its savers. -/
def started (sm : SessionManager) (store : InodeStore FilePath α) : SaveState α where
  sm := sm
  moments := [sm]
  store := store
  savers _ := .resting
  saved := [0]
  movedOut := false

/-- Of a daemon that saved its session before it started its savers, so that a file that is
there is read as its session: in every state of
a run in which the savers are orderly, the file, if there, is the state of the last
completed save, no save was overtaken by an older one, and after an exit move the
file is gone. -/
theorem faithful_of_orderly (sm : SessionManager) (store : InodeStore FilePath α)
    (hwf : store.WellFormed)
    (hstart : ∀ c, store.read (.active id) = some c →
      codec.decode c = some (sm.toWorkspaceState w))
    (events : List SaveEvent)
    (h : Meets (step w codec id) (Orderly w) (started sm store) events) :
    Along (step w codec id) (Faithful w codec id) (started sm store) events := by
  have h0 : Inv w codec id (started sm store) := by
    have hquiet (s : ℕ) : ((started sm store).savers s).Quiet := Or.inl rfl
    constructor
    case store => exact hwf
    case snap => exact fun s hs => absurd (hquiet s) hs
    case not_direct => exact fun s i o => SaverPhase.noConfusion
    case writing => exact fun s i o => SaverPhase.noConfusion
    case stored => exact fun c hc => ⟨0, rfl, sm, rfl, hstart c hc⟩
    case sorted => exact List.pairwise_singleton _ _
    case saved_lt => simp [started]
    case gone => exact fun hm => absurd hm Bool.false_ne_true
  exact along_of_invariant (I := Inv w codec id) (fun t e ht he => Inv.step ht he)
    (fun t ht => ht.faithful) h0 h

end Run

/-! A periodic save is overtaken by the save of a `set_pinned` call and then puts the
file back to the state before that call. -/

def overtakenSave : List SaveEvent :=
  [.snapshot 0 false fun _ => none, .mutate (.setPinned true),
    .snapshot 1 false fun _ => none, .create 1, .write 1 2, .rename 1 true,
    .create 0, .write 0 2, .rename 0 true]

theorem not_faithful_overtakenSave :
    ¬Along (step .counting .doubled ⟨7⟩) (Faithful .counting .doubled ⟨7⟩)
      (started (.new .counting .empty) ⟨.empty, fun _ => [], 0⟩) overtakenSave := by
  intro h
  have hsaved : (run (step .counting .doubled ⟨7⟩)
      (started (.new .counting .empty) ⟨.empty, fun _ => [], 0⟩) overtakenSave).saved = [0, 3, 1] := by
    rfl
  have hsorted := h.last.monotone
  rw [hsaved] at hsorted
  exact absurd hsorted (by decide)

/-- One exit handler, from its snapshot to its move. -/
theorem faithful_exit :
    Along (step .counting .doubled ⟨7⟩) (Faithful .counting .doubled ⟨7⟩)
      (started (.new .counting .empty) ⟨.empty, fun _ => [], 0⟩)
      [.snapshot 0 true fun _ => none, .create 0, .write 0 2, .rename 0 true, .exitMove 0 true] := by
  apply faithful_of_orderly
  case hwf => exact ⟨nofun, nofun⟩
  case hstart => exact nofun
  case h =>
    refine ⟨⟨rfl, by decide⟩, fun s hs => Or.inl (Or.inl ?_), trivial, rfl, fun s hs => Or.inl ?_,
      trivial⟩
    · rw [step_savers_of_ne (by simpa [SaveEvent.saver] using hs.symm)]
      rfl
    · repeat rw [step_savers_of_ne (by simpa [SaveEvent.saver] using hs.symm)]
      rfl

end SaveState

end Forgetty
