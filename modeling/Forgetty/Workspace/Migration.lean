import Forgetty.Workspace.Persistence
import Forgetty.Lib.Interruption
import Forgetty.Lib.Run

/-! The one-shot migration, interrupted at any call and run again. An entry goes from a
session file without a copy in the trash to a copy without a session file, and the rerun
takes up whatever is left, taking every copy it finds for the whole session. It is not
when the rename was refused and the copy that replaces it was cut off, nor when the trash
held another file of that name to begin with. -/

namespace Forgetty

open Lib FileStore

/-! ### One entry -/

section Entry

variable {α : Type} (os : Os Uuid) (codec : SessionCodec α) (d : Disk α) (id : Uuid)

/-- The file holds an unpinned session. -/
def Unpinned (c : List α) : Prop :=
  d.files.get (.session id) = some c ∧ codec.probe c = some false

/-- Every call made for the entry works, except that its rename may be refused. -/
def EntryWorks : Prop :=
  os.answer d.calls = .works ∧ ∀ c, Unpinned codec d id c →
    if .trash id ∈ d.files then os.answer (d.calls + 1) = .works
    else os.answer (d.calls + 1) = .works ∨
      os.answer (d.calls + 2) = .works ∧ os.answer (d.calls + 3) = .works

/-- The rename of the entry is refused and the copy is cut off, with part of the file
in the trash. -/
def CopyBreaks : Prop :=
  ∃ c k, Unpinned codec d id c ∧ .trash id ∉ d.files ∧ os.answer d.calls = .works ∧
    os.answer (d.calls + 1) ≠ .works ∧ os.answer (d.calls + 2) = .broke k ∧ c.take k ≠ c

/-- What is done with an entry that is not skipped. -/
def moveEntry : Disk α × Except IoError Unit :=
  if .trash id ∈ d.files then d.remove os (.session id)
  else orElse (d.rename os (.session id) (.trash id)) fun d =>
    andThen (d.copy os (.session id) (.trash id)) fun _ d => d.remove os (.session id)

variable {os codec d id} {c : List α}

theorem readPinnedField_works (hr : os.answer d.calls = .works) (h : Unpinned codec d id c) :
    readPinnedField os codec (.session id) d = (d.count, .ok false) := by
  simp [readPinnedField, FileStore.read, hr, h.1, h.2]

theorem migrateEntry_unpinned (hr : os.answer d.calls = .works) (h : Unpinned codec d id c) :
    migrateEntry os codec id d = (moveEntry os d.count id).1 := by
  rw [migrateEntry, sessionPathFor, readPinnedField_works hr h, moveEntry]
  dsimp only
  split_ifs <;> rfl

/-- A file that is pinned or cannot be read stays where it is. -/
theorem migrateEntry_skip (h : os.answer d.calls = .works → ∀ c, ¬Unpinned codec d id c) :
    migrateEntry os codec id d = d.count := by
  have hfst : (readPinnedField os codec (.session id) d).1 = d.count := by
    unfold readPinnedField FileStore.read
    split <;> simp only [andThen]
    split <;> rfl
  unfold migrateEntry sessionPathFor
  dsimp only
  split <;> rename_i heq <;> rw [heq] at hfst
  · exact hfst
  · exact hfst
  · obtain ⟨c, hc, hp⟩ := readPinnedField_ok heq
    refine absurd ⟨hc, hp⟩ (h ?_ c)
    by_contra hr
    simp only [readPinnedField, FileStore.read] at heq
    split at heq
    · contradiction
    · simp [andThen] at heq
    · simp [andThen] at heq

/-- The rename is refused: the file is copied and then removed. -/
theorem migrateEntry_copied (hr : os.answer d.calls = .works) (h : Unpinned codec d id c)
    (htrash : .trash id ∉ d.files) (ha : os.answer (d.calls + 1) ≠ .works) :
    migrateEntry os codec id d =
      (andThen (d.count.count.write os (.trash id) c) fun _ d => d.remove os (.session id)).1 := by
  have hrename : d.count.rename os (.session id) (.trash id) = (d.count.count, .error failure) := by
    unfold FileStore.rename
    split <;> simp_all [count]
  have hcopy : d.count.count.copy os (.session id) (.trash id) =
      d.count.count.write os (.trash id) c := by
    simp [FileStore.copy, h.1]
  rw [migrateEntry_unpinned hr h, moveEntry, count_files, if_neg htrash, hrename]
  simp only [orElse, hcopy]

/-- The file gone from `sessions/` and in the trash. -/
def movedFiles (d : Disk α) (id : Uuid) (c : List α) : PMap FilePath (List α) :=
  (d.files.erase (.session id)).insert (.trash id) c

/-- All that can become of an entry that is not skipped: its file is moved, dropped for
the one in the trash, copied as a whole or in part, or nothing happens. -/
theorem migrateEntry_cases (hr : os.answer d.calls = .works) (h : Unpinned codec d id c) :
    let d' := migrateEntry os codec id d
    .trash id ∈ d.files ∧ (d'.files = d.files ∧ os.answer (d.calls + 1) ≠ .works ∨
        d'.files = d.files.erase (.session id)) ∨
      .trash id ∉ d.files ∧ (d'.files = movedFiles d id c ∨ os.answer (d.calls + 1) ≠ .works ∧
        (d'.files = d.files ∧ os.answer (d.calls + 2) = .refused ∨
          (∃ k, d'.files = d.files.insert (.trash id) (c.take k) ∧
            os.answer (d.calls + 2) = .broke k) ∨
          d'.files = d.files.insert (.trash id) c ∧ os.answer (d.calls + 3) ≠ .works)) := by
  intro d'
  by_cases htrash : FilePath.trash id ∈ d.files
  · refine Or.inl ⟨htrash, ?_⟩
    have hd' : d' = _ := migrateEntry_unpinned hr h
    rw [moveEntry, count_files, if_pos htrash] at hd'
    by_cases ha : os.answer (d.calls + 1) = .works
    · exact Or.inr (by simp [hd', FileStore.remove, count, ha, h.1])
    · refine Or.inl ⟨?_, ha⟩
      rw [hd']
      unfold FileStore.remove
      split <;> simp_all [count]
  · refine Or.inr ⟨htrash, ?_⟩
    by_cases ha : os.answer (d.calls + 1) = .works
    · have hd' : d' = _ := migrateEntry_unpinned hr h
      rw [moveEntry, count_files, if_neg htrash] at hd'
      exact Or.inl (by simp [hd', FileStore.rename, count, ha, h.1, movedFiles])
    · have hd' : d' = _ := migrateEntry_copied hr h htrash ha
      cases ha₂ : os.answer (d.calls + 2) with
      | works =>
        by_cases ha₃ : os.answer (d.calls + 3) = .works
        · left
          have hne : FilePath.trash id ≠ .session id := by simp
          simp [hd', FileStore.write, FileStore.remove, count, ha₂, ha₃, h.1, movedFiles,
            PMap.erase_insert_of_ne hne]
        · refine Or.inr ⟨ha, Or.inr (Or.inr ⟨?_, ha₃⟩)⟩
          simp only [hd', FileStore.write, count, ha₂, andThen_ok]
          unfold FileStore.remove
          split <;> simp_all [count]
      | refused =>
        exact Or.inr ⟨ha, Or.inl ⟨by simp [hd', FileStore.write, count, ha₂, andThen], rfl⟩⟩
      | broke k =>
        refine Or.inr ⟨ha, Or.inr (Or.inl ⟨k, ?_, rfl⟩)⟩
        simp [hd', FileStore.write, count, ha₂, andThen]

theorem EntryWorks.not_copyBreaks (h : EntryWorks os codec d id) : ¬CopyBreaks os codec d id := by
  rintro ⟨c, k, hc, htrash, -, hrename, hcopy, -⟩
  have hw := h.2 c hc
  rw [if_neg htrash] at hw
  rcases hw with hw | ⟨hw, -⟩
  · exact hrename hw
  · exact nomatch hw.symm.trans hcopy

/-- An entry touches the files of its own session only. -/
theorem migrateEntry_other {id' : Uuid} (hne : id ≠ id') :
    (migrateEntry os codec id' d).files.get (.session id) = d.files.get (.session id) ∧
      (migrateEntry os codec id' d).files.get (.trash id) = d.files.get (.trash id) := by
  have hwithin := @migrateEntry_within _ os codec
    (fun p => p = .session id' ∨ p = .trash id') _ (Or.inl rfl) (Or.inr rfl) d
  exact ⟨hwithin.same _ (by simp [hne]), hwithin.same _ (by simp [hne])⟩

/-- What is in the trash stays as it is. -/
theorem migrateEntry_trash {id' : Uuid} (h : d.files.get (.trash id) = some c) :
    (migrateEntry os codec id' d).files.get (.trash id) = some c := by
  by_cases hid : id = id'
  · subst hid
    by_cases hr : os.answer d.calls = .works ∧ ∃ c, Unpinned codec d id c
    · obtain ⟨hr, c', hc⟩ := hr
      rcases migrateEntry_cases hr hc with ⟨-, ⟨hf, -⟩ | hf⟩ | ⟨hno, -⟩
      · rw [hf, h]
      · rw [hf, PMap.get_erase_of_ne (by simp), h]
      · exact absurd (PMap.mem_of_get h) hno
    · rw [migrateEntry_skip fun hr' c hc => hr ⟨hr', c, hc⟩, count_files, h]
  · rw [(migrateEntry_other hid).2, h]

/-- No session file gets another content. -/
theorem get_of_migrateEntry {id' : Uuid}
    (h : (migrateEntry os codec id' d).files.get (.session id) = some c) :
    d.files.get (.session id) = some c := by
  by_cases hid : id = id'
  · subst hid
    by_cases hr : os.answer d.calls = .works ∧ ∃ c, Unpinned codec d id c
    · obtain ⟨hr, c', hc⟩ := hr
      rcases migrateEntry_cases hr hc with
        ⟨-, ⟨hf, -⟩ | hf⟩ | ⟨-, hf | ⟨-, ⟨hf, -⟩ | ⟨k, hf, -⟩ | ⟨hf, -⟩⟩⟩ <;>
        simp_all [movedFiles]
    · rwa [migrateEntry_skip fun hr' c hc => hr ⟨hr', c, hc⟩, count_files] at h
  · rwa [(migrateEntry_other hid).1] at h

/-- A file that is no unpinned session is left alone. -/
theorem migrateEntry_untouched {id' : Uuid} (h : d.files.get (.session id) = some c)
    (hp : codec.probe c ≠ some false) :
    (migrateEntry os codec id' d).files.get (.session id) = some c := by
  by_cases hid : id = id'
  · subst hid
    have hskip : ∀ c', ¬Unpinned codec d id c' := by
      rintro c' ⟨hc', hp'⟩
      exact hp (Option.some.inj (h.symm.trans hc') ▸ hp')
    rw [migrateEntry_skip fun _ => hskip, count_files, h]
  · rw [(migrateEntry_other hid).1, h]

end Entry

/-! ### Where a session is -/

section Safety

variable {α : Type} {os : Os Uuid} {codec : SessionCodec α} {d : Disk α} {id : Uuid} {c : List α}

/-- The whole session is in the trash and nowhere else. -/
def Moved (id : Uuid) (c : List α) (d : Disk α) : Prop :=
  .session id ∉ d.files ∧ d.files.get (.trash id) = some c

/-- The whole session is there, and so is no other content of it in the trash. -/
def Safe (id : Uuid) (c : List α) (d : Disk α) : Prop :=
  (d.files.get (.session id) = some c ∧ ∀ t, d.files.get (.trash id) = some t → t = c) ∨
    Moved id c d

theorem Moved.step (h : Moved id c d) (id' : Uuid) : Moved id c (migrateEntry os codec id' d) := by
  refine ⟨fun hmem => h.1 ?_, migrateEntry_trash h.2⟩
  obtain ⟨c', hc'⟩ := PMap.exists_get hmem
  exact PMap.mem_of_get (get_of_migrateEntry hc')

/-- An entry keeps its session whole unless its copy is cut off. -/
theorem Safe.step (h : Safe id c d) (hp : codec.probe c = some false) {id' : Uuid}
    (hwhole : ¬CopyBreaks os codec d id') : Safe id c (migrateEntry os codec id' d) := by
  rcases h with ⟨hc, ht⟩ | h
  case inr => exact Or.inr (h.step id')
  by_cases hid : id = id'
  case neg =>
    obtain ⟨hsession, htrash⟩ := @migrateEntry_other _ os codec d id id' hid
    exact Or.inl ⟨hsession.trans hc, htrash.symm ▸ ht⟩
  subst hid
  by_cases hr : os.answer d.calls = .works
  case neg =>
    rw [migrateEntry_skip fun hr' => absurd hr' hr]
    exact Or.inl ⟨hc, ht⟩
  rcases migrateEntry_cases hr ⟨hc, hp⟩ with
    ⟨htrash, ⟨hf, -⟩ | hf⟩ | ⟨htrash, hf | ⟨hrename, ⟨hf, -⟩ | ⟨k, hf, hk⟩ | ⟨hf, -⟩⟩⟩
  · exact Or.inl ⟨hf ▸ hc, hf ▸ ht⟩
  · obtain ⟨t, hget⟩ := PMap.exists_get htrash
    refine Or.inr ⟨by simp [hf], ?_⟩
    rw [hf, PMap.get_erase_of_ne (by simp), hget, ht t hget]
  · exact Or.inr ⟨by simp [hf, movedFiles], by simp [hf, movedFiles]⟩
  · exact Or.inl ⟨hf ▸ hc, hf ▸ ht⟩
  · have hall : c.take k = c := by
      by_contra hpart
      exact hwhole ⟨c, k, ⟨hc, hp⟩, htrash, hr, hrename, hk, hpart⟩
    exact Or.inl ⟨by simp [hf, hc], by simp [hf, hall]⟩
  · exact Or.inl ⟨by simp [hf, hc], by simp [hf]⟩

/-- An entry whose calls work moves its session. -/
theorem Safe.moved (h : Safe id c d) (hp : codec.probe c = some false)
    (hw : EntryWorks os codec d id) : Moved id c (migrateEntry os codec id d) := by
  rcases h with ⟨hc, ht⟩ | h
  case inr => exact h.step id
  have hcalls := hw.2 c ⟨hc, hp⟩
  rcases migrateEntry_cases hw.1 ⟨hc, hp⟩ with
    ⟨htrash, ⟨-, ha⟩ | hf⟩ | ⟨htrash, hf | ⟨hrename, hrest⟩⟩
  · rw [if_pos htrash] at hcalls
    exact absurd hcalls ha
  · obtain ⟨t, hget⟩ := PMap.exists_get htrash
    refine ⟨by simp [hf], ?_⟩
    rw [hf, PMap.get_erase_of_ne (by simp), hget, ht t hget]
  · exact ⟨by simp [hf, movedFiles], by simp [hf, movedFiles]⟩
  · rw [if_neg htrash] at hcalls
    obtain ⟨hcopy, hremove⟩ := hcalls.resolve_left hrename
    rcases hrest with ⟨-, ha⟩ | ⟨k, -, ha⟩ | ⟨-, ha⟩
    · exact nomatch hcopy.symm.trans ha
    · exact nomatch hcopy.symm.trans ha
    · exact absurd hremove ha

/-- The body of the loop. -/
def migrateStep (os : Os Uuid) (codec : SessionCodec α) (d : Disk α) (id : Uuid) : Disk α :=
  migrateEntry os codec id d

/-- A loop in which no copy is cut off keeps the session whole. -/
theorem Safe.loop {ids : List Uuid} (h : Safe id c d) (hp : codec.probe c = some false)
    (hwhole : Meets (migrateStep os codec) (fun d id => ¬CopyBreaks os codec d id) d ids) :
    Safe id c (run (migrateStep os codec) d ids) :=
  (along_of_invariant (I := Safe id c) (fun _ _ ht hi => ht.step hp hi) (fun _ ht => ht) h
    hwhole).last

/-- A loop whose calls work and that comes to the session moves it. -/
theorem Safe.loop_moved {ids : List Uuid} (h : Safe id c d) (hp : codec.probe c = some false)
    (hin : id ∈ ids ∨ Moved id c d)
    (hw : Meets (migrateStep os codec) (EntryWorks os codec) d ids) :
    Moved id c (run (migrateStep os codec) d ids) := by
  induction ids generalizing d with
  | nil => exact hin.resolve_left List.not_mem_nil
  | cons id' ids ih =>
    refine ih (h.step hp hw.1.not_copyBreaks) ?_ hw.2
    rcases hin with hin | hin
    · rcases List.mem_cons.mp hin with rfl | hin
      · exact Or.inr (h.moved hp hw.1)
      · exact Or.inl hin
    · exact Or.inr (hin.step id')

end Safety

/-! ### A whole run -/

section Runs

variable {α : Type} (os : Os Uuid) (codec : SessionCodec α) (d : Disk α)

/-- The directory when the loop begins: two directories were made and one was listed. -/
def opened : Disk α := d.count.count.count

/-- The calls before the loop work. -/
def Opens : Prop := ∀ i < 3, os.answer (d.calls + i) = .works

instance : Decidable (Opens os d) :=
  inferInstanceAs (Decidable (∀ i < 3, os.answer (d.calls + i) = .works))

def listed : List Uuid := (os.names (d.calls + 2)).filter fun u => .session u ∈ d.files

/-- A run to the end: every call works, except that renames may be refused, and the
directory is listed whole. -/
structure Completes : Prop where
  opens : Opens os d
  whole : ∀ u, .session u ∈ d.files → u ∈ os.names (d.calls + 2)
  entries : Meets (migrateStep os codec) (EntryWorks os codec) (opened d) (listed os d)
  marks : ∀ i < 2, os.answer ((run (migrateStep os codec) (opened d) (listed os d)).calls + i) =
    .works

/-- No copy of an entry is cut off, if the run comes to its entries. -/
def Uncut : Prop :=
  Opens os d → Meets (migrateStep os codec) (fun d id => ¬CopyBreaks os codec d id) (opened d)
    (listed os d)

/-- What the migration is to do to the directory: the unpinned sessions are moved, the
others are left alone, and nothing in the trash or elsewhere is changed. -/
structure Migrated (d d' : Disk α) : Prop where
  moved : ∀ id c, Unpinned codec d id c → Moved id c d'
  untouched : ∀ id c, d.files.get (.session id) = some c → codec.probe c ≠ some false →
    d'.files.get (.session id) = some c
  kept : ∀ id c, d.files.get (.trash id) = some c → d'.files.get (.trash id) = some c
  others : ∀ p, (∀ u, p ≠ .session u ∧ p ≠ .trash u) → p ≠ .migrationMarker →
    d'.files.get p = d.files.get p

variable {os codec d} {marker : List α} {id : Uuid} {c : List α}

/-- With the marker there the run does nothing, not even a call. -/
theorem runMigrationP018_marked (h : .migrationMarker ∈ d.files) :
    runMigrationP018 os codec marker d = (d, .ok ()) := by
  simp [runMigrationP018, h]

theorem runMigrationP018_opened (hm : .migrationMarker ∉ d.files) (ho : Opens os d) :
    runMigrationP018 os codec marker d =
      writeMarker os marker (run (migrateStep os codec) (opened d) (listed os d)) := by
  have h0 : os.answer d.calls = .works := ho 0 (by omega)
  have h1 : os.answer (d.calls + 1) = .works := ho 1 (by omega)
  have h2 : os.answer (d.calls + 2) = .works := ho 2 (by omega)
  simp [runMigrationP018, hm, createDirAll, readDir, count, h0, h1, h2, run, opened, listed]
  rfl

/-- A run that is refused a call before the loop changes no file. -/
theorem runMigrationP018_unopened (hm : .migrationMarker ∉ d.files) (ho : ¬Opens os d) :
    (runMigrationP018 os codec marker d).1.files = d.files := by
  have hcalls : ¬(os.answer d.calls = .works ∧ os.answer (d.calls + 1) = .works ∧
      os.answer (d.calls + 2) = .works) := by
    rintro ⟨h0, h1, h2⟩
    refine ho fun i hi => ?_
    obtain rfl | rfl | rfl : i = 0 ∨ i = 1 ∨ i = 2 := by omega
    · exact h0
    · exact h1
    · exact h2
  by_cases h0 : os.answer d.calls = .works
  · by_cases h1 : os.answer (d.calls + 1) = .works
    · have h2 : os.answer (d.calls + 2) ≠ .works := fun h2 => hcalls ⟨h0, h1, h2⟩
      simp [runMigrationP018, hm, createDirAll, readDir, count, andThen, h0, h1, h2]
    · simp [runMigrationP018, hm, createDirAll, count, andThen, h0, h1]
  · simp [runMigrationP018, hm, createDirAll, count, andThen, h0]

theorem writeMarker_get {p : FilePath} (hp : p ≠ .migrationMarker) :
    (writeMarker os marker d).1.files.get p = d.files.get p :=
  (writeMarker_within (P := fun p => p = .migrationMarker) rfl d).same p hp

/-- The marker is there when the call that writes it had an effect. -/
theorem writeMarker_writes (hm : .migrationMarker ∉ d.files)
    (h : .migrationMarker ∈ (writeMarker os marker d).1.files) :
    os.answer (d.calls + 1) ≠ .refused := by
  intro ha
  refine hm ?_
  by_cases h0 : os.answer d.calls = .works
  · simpa [writeMarker, createDirAll, FileStore.write, count, h0, ha] using h
  · simpa [writeMarker, createDirAll, count, andThen, h0] using h

/-- The invariant rule of a run of the migration, whatever its calls answer. -/
theorem runMigrationP018_keeps {I : Disk α → Prop}
    (hfiles : ∀ d d' : Disk α, (∀ p ≠ .migrationMarker, d'.files.get p = d.files.get p) → I d → I d')
    (hstep : ∀ d id, I d → I (migrateEntry os codec id d)) (h : I d) :
    I (runMigrationP018 os codec marker d).1 := by
  by_cases hm : .migrationMarker ∈ d.files
  · rwa [runMigrationP018_marked hm]
  by_cases ho : Opens os d
  · rw [runMigrationP018_opened hm ho]
    refine hfiles _ _ (fun p hp => writeMarker_get hp) ?_
    have hopened : I (opened d) := hfiles d (opened d) (fun _ _ => rfl) h
    exact (@along_of_step _ _ (migrateStep os codec) I _ (listed os d) hopened hstep).last
  · refine hfiles _ _ (fun p _ => ?_) h
    rw [runMigrationP018_unopened hm ho]

theorem runMigrationP018_untouched (hc : d.files.get (.session id) = some c)
    (hp : codec.probe c ≠ some false) :
    (runMigrationP018 os codec marker d).1.files.get (.session id) = some c :=
  runMigrationP018_keeps (I := fun d => d.files.get (.session id) = some c)
    (fun _ _ hsame h => (hsame _ (by simp)).trans h) (fun _ _ h => migrateEntry_untouched h hp) hc

/-- No file comes to `sessions/`. -/
theorem mem_of_runMigrationP018
    (h : .session id ∈ (runMigrationP018 os codec marker d).1.files) : .session id ∈ d.files := by
  refine @runMigrationP018_keeps _ os codec d marker
    (fun t => .session id ∈ t.files → .session id ∈ d.files) (fun t t' hsame ht hmem => ht ?_)
    (fun t i ht hmem => ht ?_) (fun hmem => hmem) h
  · rwa [PMap.mem_def, ← hsame _ (by simp)]
  · obtain ⟨c, hc⟩ := PMap.exists_get hmem
    exact PMap.mem_of_get (get_of_migrateEntry hc)

theorem runMigrationP018_trash (hc : d.files.get (.trash id) = some c) :
    (runMigrationP018 os codec marker d).1.files.get (.trash id) = some c :=
  runMigrationP018_keeps (I := fun d => d.files.get (.trash id) = some c)
    (fun _ _ hsame h => (hsame _ (by simp)).trans h) (fun _ _ h => migrateEntry_trash h) hc

theorem runMigrationP018_others {p : FilePath} (hp : ∀ u, p ≠ .session u ∧ p ≠ .trash u)
    (hm : p ≠ .migrationMarker) :
    (runMigrationP018 os codec marker d).1.files.get p = d.files.get p :=
  (runMigrationP018_within (P := fun p => ¬((∀ u, p ≠ .session u ∧ p ≠ .trash u) ∧
    p ≠ .migrationMarker)) (by simp) (fun u h => (h.1 u).1 rfl) (fun u h => (h.1 u).2 rfl) d).same p
    (not_not.mpr ⟨hp, hm⟩)

/-! A run up to its interruption. -/

theorem readPinnedField_proceeds (path : FilePath) :
    Proceeds fun (os : Os Uuid) (d : Disk α) => readPinnedField os codec path d := by
  unfold readPinnedField
  refine (read_proceeds path).andThen fun contents => ?_
  cases codec.probe contents <;> exact .stay _

theorem moveEntry_proceeds (id : Uuid) :
    Proceeds fun (os : Os Uuid) (d : Disk α) => moveEntry os d id :=
  .ite _ (remove_proceeds _) ((rename_proceeds _ _).orElse
    ((copy_proceeds _ _).andThen fun _ => remove_proceeds _))

theorem migrateStep_proceeds (id : Uuid) :
    Proceeds fun (os : Os Uuid) (d : Disk α) => (migrateStep os codec d id, ()) := by
  have hseq := (@readPinnedField_proceeds _ codec (.session id)).seq
    (k := fun r os d => if r.toOption = some false then ((moveEntry os d id).1, ()) else (d, ()))
    fun r => by
        rcases r with e | b | b
        · exact .stay ()
        · exact (moveEntry_proceeds id).seq fun _ => .stay ()
        · exact .stay ()
  convert hseq using 3 with os d
  unfold migrateStep migrateEntry sessionPathFor
  dsimp only
  obtain ⟨d', e | b | b⟩ := readPinnedField os codec (.session id) d
  · rfl
  · refine Eq.trans ?_ (if_pos rfl).symm
    unfold moveEntry
    dsimp only
    split_ifs <;> rfl
  · rfl

/-- A loop that ends before the interruption is the loop without one. -/
theorem loop_interrupted {n : ℕ} {a : Answer} {ids : List Uuid}
    (h : (run (migrateStep (os.interrupted n a) codec) d ids).calls ≤ n) :
    run (migrateStep (os.interrupted n a) codec) d ids = run (migrateStep os codec) d ids :=
  congrArg Prod.fst ((Proceeds.foldl migrateStep_proceeds ids).same os n a d h)

end Runs

/-! ### Interrupted and run again -/

section Rerun

variable {α : Type} {os os' : Os Uuid} {codec : SessionCodec α} {marker : List α} {d : Disk α}
  {id : Uuid} {c : List α}

theorem Safe.congr {d d' : Disk α} (h : Safe id c d)
    (hsame : ∀ p ≠ .migrationMarker, d'.files.get p = d.files.get p) : Safe id c d' := by
  have hs : d'.files.get (.session id) = d.files.get (.session id) := hsame _ (by simp)
  have ht : d'.files.get (.trash id) = d.files.get (.trash id) := hsame _ (by simp)
  simpa only [Safe, Moved, PMap.mem_def, hs, ht] using h

theorem Moved.congr {d d' : Disk α} (h : Moved id c d)
    (hsame : ∀ p ≠ .migrationMarker, d'.files.get p = d.files.get p) : Moved id c d' := by
  have hs : d'.files.get (.session id) = d.files.get (.session id) := hsame _ (by simp)
  have ht : d'.files.get (.trash id) = d.files.get (.trash id) := hsame _ (by simp)
  simpa only [Moved, PMap.mem_def, hs, ht] using h

/-- Whatever the calls of a run answer, a session stays whole if no copy is cut off. -/
theorem Safe.run (h : Safe id c d) (hp : codec.probe c = some false)
    (hm : .migrationMarker ∉ d.files) (huncut : Uncut os codec d) :
    Safe id c (runMigrationP018 os codec marker d).1 := by
  by_cases ho : Opens os d
  · have hopened : Safe id c (opened d) := h.congr fun _ _ => rfl
    rw [runMigrationP018_opened hm ho]
    exact (hopened.loop hp (huncut ho)).congr fun p hp => writeMarker_get hp
  · exact h.congr fun p _ => by rw [runMigrationP018_unopened hm ho]

/-- A run to the end moves every unpinned session that is whole. -/
theorem Safe.run_moved (h : Safe id c d) (hp : codec.probe c = some false)
    (hm : .migrationMarker ∉ d.files) (hos : Completes os codec d) :
    Moved id c (runMigrationP018 os codec marker d).1 := by
  have hin : id ∈ listed os d ∨ Moved id c (opened d) := by
    rcases h with ⟨hc, -⟩ | h
    · have hmem : FilePath.session id ∈ d.files := PMap.mem_of_get hc
      exact Or.inl (List.mem_filter.mpr ⟨hos.whole id hmem, decide_eq_true hmem⟩)
    · exact Or.inr (h.congr fun _ _ => rfl)
  have hopened : Safe id c (opened d) := h.congr fun _ _ => rfl
  rw [runMigrationP018_opened hm hos.opens]
  exact (hopened.loop_moved hp hin hos.entries).congr fun p hp => writeMarker_get hp

/-- When an interrupted run leaves the marker, it went through all entries before. -/
theorem Safe.interrupted_moved {n : ℕ} {a : Answer} (h : Safe id c d)
    (hp : codec.probe c = some false) (hm : .migrationMarker ∉ d.files)
    (hos : Completes os codec d)
    (hmarked : .migrationMarker ∈
      (runMigrationP018 (os.interrupted n a) codec marker d).1.files) :
    Moved id c (runMigrationP018 (os.interrupted n a) codec marker d).1 := by
  by_cases ho : Opens (os.interrupted n a) d
  · rw [runMigrationP018_opened hm ho] at hmarked ⊢
    have hloop : .migrationMarker ∉
        (Lib.run (migrateStep (os.interrupted n a) codec) (opened d) (listed os d)).files := by
      refine (@along_of_step _ _ (migrateStep (os.interrupted n a) codec)
        (fun t => FilePath.migrationMarker ∉ t.files) (opened d) _ hm fun t i ht => ?_).last
      rwa [migrateStep, (migrateEntry_within (P := fun p => p ≠ .migrationMarker) (by simp)
        (by simp) t).mem_iff (by simp)]
    have hn := Os.le_of_interrupted (writeMarker_writes hloop hmarked)
    have hsame := @loop_interrupted _ os codec (opened d) n a (listed os d) (by omega)
    have hmoved := @Safe.run_moved _ os codec marker d id c h hp hm hos
    rw [runMigrationP018_opened hm hos.opens] at hmoved
    refine Moved.congr (hmoved.congr fun p hp => (writeMarker_get hp).symm) fun p hp => ?_
    rw [writeMarker_get hp]
    exact congrArg (fun t => t.files.get p) hsame
  · rw [runMigrationP018_unopened hm ho] at hmarked
    exact absurd hmarked hm

/-- What a cut copy leaves in the trash. -/
theorem migrateEntry_broken {k : ℕ} (h : Unpinned codec d id c) (htrash : .trash id ∉ d.files)
    (hr : os.answer d.calls = .works) (hrename : os.answer (d.calls + 1) ≠ .works)
    (hk : os.answer (d.calls + 2) = .broke k) :
    (migrateEntry os codec id d).files.get (.trash id) = some (c.take k) := by
  simp [migrateEntry_copied hr h htrash hrename, FileStore.write, count, hk, andThen]

/-- If all unpinned sessions are in the trash at last, no copy was cut off in a loop
whose trash was kept. -/
theorem meets_whole {F : Disk α} {ids : List Uuid}
    (hkept : ∀ id t, (run (migrateStep os codec) d ids).files.get (.trash id) = some t →
      F.files.get (.trash id) = some t)
    (hmoved : ∀ id c, Unpinned codec d id c → F.files.get (.trash id) = some c) :
    Meets (migrateStep os codec) (fun d id => ¬CopyBreaks os codec d id) d ids := by
  induction ids generalizing d with
  | nil => trivial
  | cons id ids ih =>
    refine ⟨?_, ih hkept fun id' c h => hmoved id' c ⟨get_of_migrateEntry h.1, h.2⟩⟩
    rintro ⟨c, k, hc, htrash, hr, hrename, hk, hpart⟩
    have hpartial := migrateEntry_broken hc htrash hr hrename hk
    have hlast := (@along_of_step _ _ (migrateStep os codec)
      (fun t => t.files.get (.trash id) = some (c.take k)) _ ids hpartial
      fun t i ht => migrateEntry_trash ht).last
    exact hpart (Option.some.inj ((hkept id _ hlast).symm.trans (hmoved id c hc)))

/-- The directory when the migration was interrupted in call `n`. -/
def interruptedRun (os : Os Uuid) (codec : SessionCodec α) (marker : List α) (n : ℕ) (a : Answer)
    (d : Disk α) : Disk α :=
  (runMigrationP018 (os.interrupted n a) codec marker d).1

/-- The same when it was then run again to the end. -/
def rerun (os os' : Os Uuid) (codec : SessionCodec α) (marker : List α) (n : ℕ) (a : Answer)
    (d : Disk α) : Disk α :=
  (runMigrationP018 os' codec marker (interruptedRun os codec marker n a d)).1

/-- With the marker there the migration does nothing. Else, interrupted in any call, which
may break off in the middle, and run again to the end, it does what it is to do exactly
if the trash had no other file of an unpinned session and no copy was cut off. -/
theorem migrated_iff (marker : List α) (d : Disk α) :
    (.migrationMarker ∈ d.files → runMigrationP018 os codec marker d = (d, .ok ())) ∧
      (.migrationMarker ∉ d.files → Completes os codec d → ∀ (n : ℕ) (a : Answer),
        (.migrationMarker ∉ (interruptedRun os codec marker n a d).files →
          Completes os' codec (interruptedRun os codec marker n a d)) →
        (Migrated codec d (rerun os os' codec marker n a d) ↔
          (∀ id c t, Unpinned codec d id c → d.files.get (.trash id) = some t → t = c) ∧
            Uncut (os.interrupted n a) codec d)) := by
  refine ⟨runMigrationP018_marked, fun hm hos n a hos' => ⟨fun h => ?_, ?_⟩⟩
  · constructor
    · intro id c t hc ht
      have hkept := h.kept id t ht
      exact Option.some.inj (hkept.symm.trans (h.moved id c hc).2)
    · intro ho
      refine meets_whole (F := rerun os os' codec marker n a d) (fun id t ht => ?_)
        fun id c hc => (h.moved id c hc).2
      refine runMigrationP018_trash ?_
      rw [interruptedRun, runMigrationP018_opened hm ho, writeMarker_get (by simp)]
      exact ht
  · rintro ⟨hclean, huncut⟩
    have hsafe {id : Uuid} {c : List α} (hc : Unpinned codec d id c) : Safe id c d :=
      Or.inl ⟨hc.1, fun t ht => hclean id c t hc ht⟩
    constructor
    case moved =>
      intro id c hc
      by_cases hm₁ : .migrationMarker ∈ (interruptedRun os codec marker n a d).files
      · rw [rerun, runMigrationP018_marked hm₁]
        exact (hsafe hc).interrupted_moved hc.2 hm hos hm₁
      · exact ((hsafe hc).run hc.2 hm huncut).run_moved hc.2 hm₁ (hos' hm₁)
    case untouched =>
      exact fun id c hc hp => runMigrationP018_untouched (runMigrationP018_untouched hc hp) hp
    case kept => exact fun id c hc => runMigrationP018_trash (runMigrationP018_trash hc)
    case others =>
      exact fun p hp hmp => (runMigrationP018_others hp hmp).trans (runMigrationP018_others hp hmp)

end Rerun

/-! One unpinned session, and a trash on another device: the fourth call is the rename,
which is refused, the fifth the copy, the sixth the removal. -/

def crossDevice : Os Uuid where
  answer n := if n = 4 then .refused else .works
  names _ := [⟨7⟩]

def sameDevice : Os Uuid where
  answer _ := .works
  names _ := [⟨7⟩]

def unmigrated : Disk WorkspaceState where
  files := PMap.empty.insert (.session ⟨7⟩) [.new, .new]
  calls := 0
  unlinked := []

theorem eq_of_unmigrated {u : Uuid} (h : .session u ∈ unmigrated.files) : u = ⟨7⟩ := by
  simpa [unmigrated] using h

theorem completes_crossDevice : Completes crossDevice .doubled unmigrated where
  opens := by decide
  whole u hu := List.mem_singleton.mpr (eq_of_unmigrated hu)
  entries := ⟨⟨rfl, fun c _ => by decide⟩, trivial⟩
  marks := by decide

/-- The copy is cut off in the middle, and the rerun deletes the session. -/
theorem not_migrated_cutCopy :
    .migrationMarker ∉ unmigrated.files ∧ Completes crossDevice .doubled unmigrated ∧
      Completes sameDevice .doubled
        (interruptedRun crossDevice .doubled [] 5 (.broke 1) unmigrated) ∧
      ¬Migrated .doubled unmigrated
        (rerun crossDevice sameDevice .doubled [] 5 (.broke 1) unmigrated) := by
  refine ⟨by decide, completes_crossDevice, ?_, fun h => ?_⟩
  · constructor
    case opens => decide
    case whole =>
      exact fun u hu => List.mem_singleton.mpr (eq_of_unmigrated (mem_of_runMigrationP018 hu))
    case entries => exact ⟨⟨rfl, fun c _ => by decide⟩, trivial⟩
    case marks => decide
  · exact absurd (h.moved ⟨7⟩ [.new, .new] ⟨rfl, rfl⟩).2 (by decide)

/-- Between the copy and the removal the interruption does no harm. -/
theorem migrated_twoCopies :
    Migrated .doubled unmigrated
      (rerun crossDevice sameDevice .doubled [] 6 .refused unmigrated) := by
  refine ((migrated_iff [] unmigrated).2 (by decide) completes_crossDevice 6 .refused fun _ =>
    ?_).mpr ⟨?_, ?_⟩
  · constructor
    case opens => decide
    case whole =>
      exact fun u hu => List.mem_singleton.mpr (eq_of_unmigrated (mem_of_runMigrationP018 hu))
    case entries => exact ⟨⟨rfl, fun c _ => by decide⟩, trivial⟩
    case marks => decide
  · intro id c t _ ht
    simp [unmigrated] at ht
  · rintro -
    refine ⟨?_, trivial⟩
    rintro ⟨c, k, -, -, -, -, hk, -⟩
    exact nomatch hk

end Forgetty
