import Forgetty.Workspace.State
import Forgetty.Lib.FileStore

/-! Session files in their three buckets: `sessions/active/` for running daemons,
`sessions/` for pinned sessions that were closed, and `sessions/trash/` for
unpinned ones. Files with other names are not modelled, they are skipped by all
of this code. -/

namespace Forgetty

open Lib FileStore

/-- The files of the data directory that hold session state. -/
inductive FilePath where
  | session (id : Uuid)
  | active (id : Uuid)
  | trash (id : Uuid)
  | jsonTmp (path : FilePath)
  | migrationMarker
  deriving DecidableEq, Repr

/-- The data directory. File contents are lists of symbols. -/
abbrev Disk (α : Type) := FileStore FilePath α

abbrev sessionPathFor (sessionId : Uuid) : FilePath := .session sessionId

abbrev sessionPathActiveFor (sessionId : Uuid) : FilePath := .active sessionId

/-- `trash_dir().join("{session_id}.json")`. -/
abbrev trashPathFor (sessionId : Uuid) : FilePath := .trash sessionId

abbrev migrationP018MarkerPath : FilePath := .migrationMarker

section

variable {α : Type} (os : Os Uuid) (codec : SessionCodec α)

/-! ### Saving and loading -/

/-- Write a temporary file next to `path` and rename it; when the rename fails,
write the file itself. A state that cannot be printed is not written. -/
def saveToPath (path : FilePath) (state : WorkspaceState) (d : Disk α) :
    Disk α × Except IoError Unit :=
  let tmpPath := FilePath.jsonTmp path
  andThen (d.createDirAll os) fun _ d =>
  match codec.toStringPretty state with
  | .error e => (d, .error e)
  | .ok json =>
    andThen (d.write os tmpPath json) fun _ d =>
    orElse (d.rename os tmpPath path) fun d =>
    d.write os path json

/-- A file that is missing or cannot be parsed is no session. -/
def loadFromPath (path : FilePath) (d : Disk α) :
    Disk α × Except IoError (Option WorkspaceState) :=
  if path ∈ d.files then
    andThen (d.read os path) fun contents d => (d, .ok (codec.decode contents))
  else (d, .ok none)

def saveSessionFor (sessionId : Uuid) (state : WorkspaceState) (d : Disk α) :
    Disk α × Except IoError Unit :=
  saveToPath os codec (sessionPathFor sessionId) state d

def loadSessionFor (sessionId : Uuid) (d : Disk α) :
    Disk α × Except IoError (Option WorkspaceState) :=
  loadFromPath os codec (sessionPathFor sessionId) d

/-- The write of a running daemon. -/
def moveToActive (sessionId : Uuid) (state : WorkspaceState) (d : Disk α) :
    Disk α × Except IoError Unit :=
  saveToPath os codec (sessionPathActiveFor sessionId) state d

/-! ### Moving between buckets -/

def renameWithFallback (src dest : FilePath) (d : Disk α) : Disk α × Except IoError Unit :=
  andThen (d.createDirAll os) fun _ d =>
  orElse (d.rename os src dest) fun d =>
  andThen (d.copy os src dest) fun _ d =>
  d.remove os src

/-- The two moves out of `active/`: a missing file is no error. -/
def moveActiveTo (dest : FilePath) (sessionId : Uuid) (d : Disk α) : Disk α × Except IoError Unit :=
  if sessionPathActiveFor sessionId ∈ d.files then
    renameWithFallback os (sessionPathActiveFor sessionId) dest d
  else (d, .ok ())

def moveActiveToSessions (sessionId : Uuid) (d : Disk α) : Disk α × Except IoError Unit :=
  moveActiveTo os (sessionPathFor sessionId) sessionId d

def moveActiveToTrash (sessionId : Uuid) (d : Disk α) : Disk α × Except IoError Unit :=
  moveActiveTo os (trashPathFor sessionId) sessionId d

def deleteActiveFor (sessionId : Uuid) (d : Disk α) : Disk α × Except IoError Unit :=
  if sessionPathActiveFor sessionId ∈ d.files then d.remove os (sessionPathActiveFor sessionId)
  else (d, .ok ())

/-- Here a missing file is an error. -/
def restoreFromTrashToActive (sessionId : Uuid) (d : Disk α) : Disk α × Except IoError Unit :=
  if trashPathFor sessionId ∈ d.files then
    renameWithFallback os (trashPathFor sessionId) (sessionPathActiveFor sessionId) d
  else (d, .error { kind := .notFound, message := s!"trash file not found: {sessionId}" })

/-- The move of a daemon that exits. Errors are only logged. -/
def pinnedAwareExitMove (sessionId : Uuid) (pinned : Bool) (d : Disk α) : Disk α :=
  if pinned then (moveActiveToSessions os sessionId d).1 else (moveActiveToTrash os sessionId d).1

/-! ### Orphans -/

def readPinnedField (path : FilePath) (d : Disk α) : Disk α × Except IoError Bool :=
  andThen (d.read os path) fun contents d =>
  match codec.probe contents with
  | none => (d, .error { kind := .invalidData, message := "" })
  | some pinned => (d, .ok pinned)

/-- One entry of the listing: a file that cannot be read or parsed is skipped. -/
def probeOrphan (uuid : Uuid) (d : Disk α) : Disk α × Option (Uuid × Bool) :=
  let read := readPinnedField os codec (sessionPathActiveFor uuid) d
  (read.1, read.2.toOption.map fun isPinned => (uuid, isPinned))

def probeOrphans : List Uuid → Disk α → Disk α × List (Uuid × Bool)
  | [], d => (d, [])
  | uuid :: uuids, d =>
    let first := probeOrphan os codec uuid d
    let rest := probeOrphans uuids first.1
    (rest.1, first.2.toList ++ rest.2)

/-- The names in `active/`, none when there is no such directory. -/
def listActive (d : Disk α) : Disk α × List Uuid :=
  let entries := d.readDir os FilePath.active
  (entries.1, entries.2.toOption.getD [])

/-- The sessions in `active/` and whether they are pinned. -/
def recoverOrphansInActive (d : Disk α) : Disk α × List (Uuid × Bool) :=
  let entries := listActive os d
  probeOrphans os codec entries.2 entries.1

/-! ### The one-shot migration -/

/-- One file of `sessions/`: an unpinned one goes to the trash, where a file that
is already there has precedence. -/
def migrateEntry (sessionId : Uuid) (d : Disk α) : Disk α :=
  let path := sessionPathFor sessionId
  let dest := trashPathFor sessionId
  match readPinnedField os codec path d with
  | (d, .error _) => d
  | (d, .ok true) => d
  | (d, .ok false) =>
    if dest ∈ d.files then (d.remove os path).1
    else
      (orElse (d.rename os path dest) fun d =>
        andThen (d.copy os path dest) fun _ d =>
        d.remove os path).1

/-- `marker` is the text `"p018-v1\n"`. -/
def writeMarker (marker : List α) (d : Disk α) : Disk α × Except IoError Unit :=
  andThen (d.createDirAll os) fun _ d =>
  d.write os migrationP018MarkerPath marker

def runMigrationP018 (marker : List α) (d : Disk α) : Disk α × Except IoError Unit :=
  if migrationP018MarkerPath ∈ d.files then (d, .ok ())
  else
    andThen (d.createDirAll os) fun _ d =>
    andThen (d.createDirAll os) fun _ d =>
    andThen (d.readDir os FilePath.session) fun uuids d =>
    writeMarker os marker (uuids.foldl (fun d id => migrateEntry os codec id d) d)

end

/-! ### The files each function touches -/

section Within

variable {α : Type} {os : Os Uuid} {codec : SessionCodec α} {P : FilePath → Prop} {d : Disk α}

theorem saveToPath_within {path : FilePath} (state : WorkspaceState) (hp : P path)
    (ht : P (.jsonTmp path)) : Within P d (saveToPath os codec path state d).1 := by
  refine (createDirAll_within P d).andThen fun _ d₁ => ?_
  split
  · exact .refl P d₁
  · refine (write_within _ ht).andThen fun _ d₂ => ?_
    exact (rename_within ht hp).orElse fun d₃ => write_within _ hp

theorem renameWithFallback_within {src dest : FilePath} (hs : P src) (hd : P dest) :
    Within P d (renameWithFallback os src dest d).1 := by
  refine (createDirAll_within P d).andThen fun _ d₁ => ?_
  refine (rename_within hs hd).orElse fun d₂ => ?_
  exact (copy_within hd).andThen fun _ d₃ => remove_within hs

theorem moveActiveTo_within {dest : FilePath} {id : Uuid} (ha : P (.active id)) (hd : P dest) :
    Within P d (moveActiveTo os dest id d).1 := by
  unfold moveActiveTo
  split_ifs
  · exact renameWithFallback_within ha hd
  · exact .refl P d

theorem deleteActiveFor_within {id : Uuid} (ha : P (.active id)) :
    Within P d (deleteActiveFor os id d).1 := by
  unfold deleteActiveFor
  split_ifs
  · exact remove_within ha
  · exact .refl P d

theorem restoreFromTrashToActive_within {id : Uuid} (ht : P (.trash id)) (ha : P (.active id)) :
    Within P d (restoreFromTrashToActive os id d).1 := by
  unfold restoreFromTrashToActive
  split_ifs
  · exact renameWithFallback_within ht ha
  · exact .refl P d

theorem readPinnedField_within (P : FilePath → Prop) (path : FilePath) (d : Disk α) :
    Within P d (readPinnedField os codec path d).1 := by
  refine (read_within P path d).andThen fun contents d₁ => ?_
  split <;> exact .refl P d₁

theorem probeOrphan_within (P : FilePath → Prop) (id : Uuid) (d : Disk α) :
    Within P d (probeOrphan os codec id d).1 := readPinnedField_within P _ d

theorem probeOrphans_within (P : FilePath → Prop) (ids : List Uuid) (d : Disk α) :
    Within P d (probeOrphans os codec ids d).1 := by
  induction ids generalizing d with
  | nil => exact .refl P d
  | cons id ids ih => exact (probeOrphan_within P id d).trans (ih _)

theorem listActive_within (P : FilePath → Prop) (d : Disk α) : Within P d (listActive os d).1 :=
  within_of_files rfl rfl

theorem migrateEntry_within {id : Uuid} (hs : P (.session id)) (ht : P (.trash id)) (d : Disk α) :
    Within P d (migrateEntry os codec id d) := by
  have hread := @readPinnedField_within _ os codec P (.session id) d
  unfold migrateEntry sessionPathFor trashPathFor
  dsimp only
  split <;> rename_i heq <;> rw [heq] at hread
  · exact hread
  · exact hread
  · refine hread.trans ?_
    split_ifs
    · exact remove_within hs
    · refine (rename_within hs ht).orElse fun d₂ => ?_
      exact (copy_within ht).andThen fun _ d₃ => remove_within hs

theorem writeMarker_within {marker : List α} (hm : P .migrationMarker) (d : Disk α) :
    Within P d (writeMarker os marker d).1 :=
  (createDirAll_within P d).andThen fun _ _ => write_within _ hm

/-- The migration leaves the active sessions alone. -/
theorem runMigrationP018_within {marker : List α} (hm : P .migrationMarker)
    (hs : ∀ id, P (.session id)) (ht : ∀ id, P (.trash id)) (d : Disk α) :
    Within P d (runMigrationP018 os codec marker d).1 := by
  unfold runMigrationP018
  split_ifs
  · exact .refl P d
  · refine (createDirAll_within P d).andThen fun _ d₁ => ?_
    refine (createDirAll_within P d₁).andThen fun _ d₂ => ?_
    refine (readDir_within P FilePath.session d₂).andThen fun ids d₃ => ?_
    refine Within.trans (Within.foldl ?_ d₃) (writeMarker_within hm _)
    exact fun d id _ => migrateEntry_within (hs id) (ht id) d

end Within

/-- What is loaded was read from a file the parser accepts. -/
theorem decode_of_load {α : Type} {os : Os Uuid} {codec : SessionCodec α} {path : FilePath}
    {d : Disk α} {s : WorkspaceState} (h : (loadFromPath os codec path d).2 = .ok (some s)) :
    ∃ c, codec.decode c = some s := by
  unfold loadFromPath at h
  split_ifs at h
  · rcases hread : FileStore.read os d path with ⟨d', e | c⟩ <;> rw [hread] at h
    · cases h
    · exact ⟨c, Except.ok.inj h⟩
  · cases h

/-! ### What the probes find -/

section Probes

variable {α : Type} {os : Os Uuid} {codec : SessionCodec α} {d : Disk α} {id : Uuid} {b : Bool}

theorem readPinnedField_ok {path : FilePath} {d' : Disk α}
    (h : readPinnedField os codec path d = (d', .ok b)) :
    ∃ c, d.files.get path = some c ∧ codec.probe c = some b := by
  unfold readPinnedField FileStore.read at h
  split at h
  · rename_i c _ hc
    refine ⟨c, hc, ?_⟩
    simp only [andThen_ok] at h
    split at h
    · simp at h
    · rename_i hp
      simp only [Prod.mk.injEq, Except.ok.injEq] at h
      rw [hp, h.2]
  · simp [andThen] at h
  · simp [andThen] at h

/-- An entry of the recovery list was in `active/`, with the flag listed. -/
theorem mem_probeOrphans {ids : List Uuid} (h : (id, b) ∈ (probeOrphans os codec ids d).2) :
    id ∈ ids ∧ ∃ c, d.files.get (.active id) = some c ∧ codec.probe c = some b := by
  induction ids generalizing d with
  | nil => exact absurd h List.not_mem_nil
  | cons uuid ids ih =>
    rw [probeOrphans, List.mem_append, Option.mem_toList] at h
    rcases h with h | h
    · simp only [probeOrphan, Option.map_eq_some_iff, Prod.mk.injEq] at h
      obtain ⟨b', hb, rfl, rfl⟩ := h
      obtain ⟨r, hr⟩ : ∃ r, readPinnedField os codec (sessionPathActiveFor uuid) d = r := ⟨_, rfl⟩
      rw [hr] at hb
      obtain ⟨d', e | b''⟩ := r
      · simp [Except.toOption] at hb
      · simp only [Except.toOption, Option.some.injEq] at hb
        subst hb
        exact ⟨List.mem_cons_self, readPinnedField_ok hr⟩
    · obtain ⟨hmem, c, hc, hp⟩ := ih h
      have hsame := (@probeOrphan_within _ os codec (fun _ => False) uuid d).same
        (.active id) not_false
      exact ⟨List.mem_cons_of_mem _ hmem, c, hsame ▸ hc, hp⟩

/-- A readable file that is listed is found. -/
theorem probeOrphans_works (hos : os.Works) {ids : List Uuid} {c : List α} (hid : id ∈ ids)
    (hc : d.files.get (.active id) = some c) (hp : codec.probe c = some b) :
    (id, b) ∈ (probeOrphans os codec ids d).2 := by
  induction ids generalizing d with
  | nil => exact absurd hid List.not_mem_nil
  | cons uuid ids ih =>
    rw [probeOrphans, List.mem_append, Option.mem_toList]
    by_cases hu : id = uuid
    · subst hu
      left
      have hread : readPinnedField os codec (.active id) d = (d.count, .ok b) := by
        simp [readPinnedField, read_works hos hc, hp]
      simp [probeOrphan, sessionPathActiveFor, hread, Except.toOption]
    · right
      have hsame := (@probeOrphan_within _ os codec (fun _ => False) uuid d).same
        (.active id) not_false
      exact ih (by simpa [hu] using hid) (hsame.trans hc)

theorem eq_of_probeOrphan {uuid : Uuid}
    (h : (id, b) ∈ (probeOrphan os codec uuid d).2.toList) : id = uuid := by
  simp only [probeOrphan, Option.mem_toList, Option.map_eq_some_iff, Prod.mk.injEq] at h
  obtain ⟨-, -, h, -⟩ := h
  exact h.symm

theorem mem_of_listActive (h : id ∈ (listActive os d).2) : .active id ∈ d.files := by
  simp only [listActive, readDir] at h
  split_ifs at h
  · simpa using (List.mem_filter.mp h).2
  · exact absurd h List.not_mem_nil

theorem listActive_works (hos : os.Works) (hlist : ∀ n, id ∈ os.names n)
    (h : .active id ∈ d.files) : id ∈ (listActive os d).2 := by
  simp only [listActive, readDir_works hos, Except.toOption, Option.getD_some]
  exact List.mem_filter.mpr ⟨hlist _, by simpa using h⟩

end Probes

/-! ### What the moves do when every call works -/

section Works

variable {α : Type} {os : Os Uuid} {codec : SessionCodec α} {d : Disk α} {id : Uuid} {c : List α}
variable (hos : os.Works)
include hos

theorem saveToPath_works (path : FilePath) {state : WorkspaceState} (ht : state.IsText) :
    (saveToPath os codec path state d).2 = .ok () ∧
      (saveToPath os codec path state d).1.files =
        ((d.files.insert (.jsonTmp path) (codec.encode state)).erase (.jsonTmp path)).insert path
          (codec.encode state) := by
  simp [saveToPath, SessionCodec.toStringPretty, ht, createDirAll_works hos, write_works hos,
    rename_works hos]

/-- A state that is not text leaves the files alone, and the save says so. -/
theorem saveToPath_refused (path : FilePath) {state : WorkspaceState} (ht : ¬state.IsText) :
    (∃ e, (saveToPath os codec path state d).2 = .error e) ∧
      (saveToPath os codec path state d).1.files = d.files := by
  simp [saveToPath, SessionCodec.toStringPretty, ht, createDirAll_works hos]

/-- A load after a save reads what was written. -/
theorem loadSessionFor_saved {state : WorkspaceState} (ht : state.IsText) :
    (loadSessionFor os codec id (saveSessionFor os codec id state d).1).2 =
      .ok (codec.decode (codec.encode state)) := by
  have hfile : (saveSessionFor os codec id state d).1.files.get (.session id) =
      some (codec.encode state) := by
    rw [saveSessionFor, (saveToPath_works hos _ ht).2]
    exact PMap.get_insert_self ..
  rw [loadSessionFor, loadFromPath, if_pos (PMap.mem_of_get hfile), read_works hos hfile]
  rfl

theorem renameWithFallback_works {src : FilePath} (dest : FilePath)
    (h : d.files.get src = some c) :
    (renameWithFallback os src dest d).2 = .ok () ∧
      (renameWithFallback os src dest d).1.files = (d.files.erase src).insert dest c := by
  have hsrc : d.count.files.get src = some c := h
  simp [renameWithFallback, createDirAll_works hos, rename_works hos dest hsrc]

theorem restoreFromTrashToActive_works (h : d.files.get (.trash id) = some c) :
    (restoreFromTrashToActive os id d).1.files.get (.active id) = some c := by
  unfold restoreFromTrashToActive trashPathFor sessionPathActiveFor
  rw [if_pos (PMap.mem_of_get h), (renameWithFallback_works hos (.active id) h).2,
    PMap.get_insert_self]

theorem deleteActiveFor_works (h : .active id ∈ d.files) :
    Unlinks (.active id) d (deleteActiveFor os id d).1 := by
  unfold deleteActiveFor sessionPathActiveFor
  rw [if_pos h, remove_works hos h]
  exact ⟨[.active id], rfl, List.mem_singleton_self _⟩

theorem deleteActiveFor_removes (d : Disk α) (id : Uuid) :
    .active id ∉ (deleteActiveFor os id d).1.files := by
  unfold deleteActiveFor
  split_ifs with h
  · rw [remove_works hos h]
    simp
  · exact h

theorem moveActiveToSessions_removes (d : Disk α) (id : Uuid) :
    .active id ∉ (moveActiveToSessions os id d).1.files := by
  unfold moveActiveToSessions moveActiveTo
  split_ifs with h
  · obtain ⟨c, hc⟩ := PMap.exists_get h
    rw [(renameWithFallback_works hos (.session id) hc).2]
    simp
  · exact h

/-- Saving an unpinned session and leaving puts its file into the trash. -/
theorem exitMove_trash {s : WorkspaceState} (ht : s.IsText) (hs : s.pinned = false) :
    (pinnedAwareExitMove os id s.pinned (moveToActive os codec id s d).1).files.get (.trash id) =
      some (codec.encode s) := by
  have hsave : (moveToActive os codec id s d).1.files.get (.active id) = some (codec.encode s) := by
    rw [moveToActive, (saveToPath_works hos _ ht).2]
    exact PMap.get_insert_self ..
  simp only [pinnedAwareExitMove, hs, Bool.false_eq_true, if_false, moveActiveToTrash, moveActiveTo,
    sessionPathActiveFor, trashPathFor]
  rw [if_pos (PMap.mem_of_get hsave), (renameWithFallback_works hos (.trash id) hsave).2,
    PMap.get_insert_self]

end Works

end Forgetty
