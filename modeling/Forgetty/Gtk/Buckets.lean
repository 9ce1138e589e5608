import Forgetty.Gtk.StartUp
import Forgetty.Daemon.Restore
import Forgetty.Lib.Run

/-! The lives of one session, with one window at a time: windows are started for it or
bring it back from the trash, its daemon saves, it is pinned and unpinned, closed, and
closed for good. A close moves the one file of `active/` to the bucket of the pin state
and does not look into the other bucket, and a start leaves the file it loads where it
is. So a copy of an earlier life stays behind when the pin state at a close is not that
of the close before, and an unpinned session is restored from it. And nothing is moved of a
session that never could be saved. -/

namespace Forgetty

open Lib FileStore

/-- What the daemon of a window is started with. -/
structure Launch where
  w : World
  isDir : PathBuf → Bool
  procCwd : ℕ → Option PathBuf
  byteLogRingKb : UInt32
  byteLogMaxMb : UInt32
  logFiles : PMap Uuid Bytes

inductive LifeEvent where
  | startWindow (launch : Launch)
  /-- Undoing a close. -/
  | restoreSession (launch : Launch)
  | operate (op : Op)
  | save (procCwd : ℕ → Option PathBuf)
  | setPinned (pinned : Bool) (procCwd : ℕ → Option PathBuf)
  | closeWindow (procCwd : ℕ → Option PathBuf)
  | closeWindowPermanently

/-- The data directory, and the daemon of the session with its world while the window
is open. -/
structure Lives (α : Type) where
  disk : Disk α
  daemon : Option (World × SessionManager)

section Code

variable {α : Type} (os : Os Uuid) (codec : SessionCodec α) (sessionId : Uuid)

/-- The save of a daemon. Errors are only logged. -/
def saveSessionFromLayout (w : World) (procCwd : ℕ → Option PathBuf) (sm : SessionManager)
    (d : Disk α) : SessionManager × Disk α :=
  let taken := sm.snapshotToWorkspaceState w procCwd
  (taken.1, (moveToActive os codec sessionId taken.2 d).1)

/-- The handler of `shutdown_clean`, and of the calls that do the same. -/
def shutdownClean (w : World) (procCwd : ℕ → Option PathBuf) (sm : SessionManager)
    (d : Disk α) : Disk α :=
  let saved := saveSessionFromLayout os codec sessionId w procCwd sm d
  pinnedAwareExitMove os sessionId saved.1.isPinned saved.2

/-- The files "Close Window Permanently" deletes, once the daemon is gone. -/
def closeWindowPermanently (d : Disk α) : Disk α :=
  let path := sessionPathFor sessionId
  let d := if path ∈ d.files then (d.remove os path).1 else d
  (deleteActiveFor os sessionId d).1

/-- A daemon loads its session and saves it before it answers anybody. -/
def startDaemon (launch : Launch) (d : Disk α) : Lives α :=
  let sm := daemonStart launch.w launch.isDir os codec sessionId launch.byteLogRingKb
    launch.byteLogMaxMb d launch.logFiles
  let d := (loadSessionFor os codec sessionId d).1
  let saved := saveSessionFromLayout os codec sessionId launch.w launch.procCwd sm d
  { disk := saved.2, daemon := some (launch.w, saved.1) }

end Code

namespace Lives

section Step

variable {α : Type} (os : Os Uuid) (codec : SessionCodec α) (marker : List α) (id : Uuid)

/-- There is one window at a time: none is started while there is a daemon, and without
one there is nobody to call. -/
def step (t : Lives α) (e : LifeEvent) : Lives α :=
  match e, t.daemon with
  | .startWindow launch, none => startDaemon os codec id launch (startUp os codec marker t.disk)
  | .restoreSession launch, none =>
    startDaemon os codec id launch
      (startUp os codec marker (restoreFromTrashToActive os id t.disk).1)
  | .operate op, some (w, sm) => { t with daemon := some (w, sm.apply w op) }
  | .save procCwd, some (w, sm) =>
    let saved := saveSessionFromLayout os codec id w procCwd sm t.disk
    { disk := saved.2, daemon := some (w, saved.1) }
  | .setPinned pinned procCwd, some (w, sm) =>
    let saved := saveSessionFromLayout os codec id w procCwd (sm.setPinned pinned) t.disk
    { disk := saved.2, daemon := some (w, saved.1) }
  | .closeWindow procCwd, some (w, sm) =>
    { disk := shutdownClean os codec id w procCwd sm t.disk, daemon := none }
  | .closeWindowPermanently, some _ =>
    { disk := closeWindowPermanently os id t.disk, daemon := none }
  | _, _ => t

/-- The session has one file, in the bucket its pin state names. -/
structure InBucket (pinned : Bool) (d : Disk α) : Prop where
  active : .active id ∉ d.files
  session : .session id ∈ d.files ↔ pinned = true
  trash : .trash id ∈ d.files ↔ pinned = false

/-- The session has no file. -/
structure NoFile (d : Disk α) : Prop where
  active : .active id ∉ d.files
  session : .session id ∉ d.files
  trash : .trash id ∉ d.files

/-- After a close the session lives where it should. -/
def OneBucket (t : Lives α) (e : LifeEvent) : Prop :=
  match e, t.daemon with
  | .closeWindow _, some (_, sm) => InBucket id sm.pinned (step os codec marker id t e).disk
  | .closeWindowPermanently, some _ => NoFile id (step os codec marker id t e).disk
  | _, _ => True

/-- No copy of an earlier life is where the close does not look: in `trash/` when a
pinned session is closed or a session is closed for good, in `sessions/` when an
unpinned one is closed. -/
def NoStaleCopy (t : Lives α) (e : LifeEvent) : Prop :=
  match e, t.daemon with
  | .closeWindow _, some (_, sm) =>
    (sm.pinned = true → .trash id ∉ t.disk.files) ∧
      (sm.pinned = false → .session id ∉ t.disk.files)
  | .closeWindowPermanently, some _ => .trash id ∉ t.disk.files
  | _, _ => True

/-- A clean close finds a file of the session: the one it saves or, of a state that is no
text, one saved before, in `active/` or in the bucket of the pin state. -/
def FindsFile (t : Lives α) (e : LifeEvent) : Prop :=
  match e, t.daemon with
  | .closeWindow procCwd, some (w, sm) =>
    (sm.snapshotToWorkspaceState w procCwd).2.IsText ∨ .active id ∈ t.disk.files ∨
      (if sm.pinned then FilePath.session id else .trash id) ∈ t.disk.files
  | _, _ => True

end Step

/-! ### What one step does to the files of the session -/

section Closes

variable {α : Type} {os : Os Uuid} {codec : SessionCodec α} {marker : List α} {id : Uuid}
  {d : Disk α}
variable (hos : os.Works)
include hos

/-- A save of a text puts the file in `active/`, and no save touches another bucket. -/
theorem saveSessionFromLayout_files (w : World) (procCwd : ℕ → Option PathBuf)
    (sm : SessionManager) :
    let d' := (saveSessionFromLayout os codec id w procCwd sm d).2
    (.active id ∈ d'.files ↔
        (sm.snapshotToWorkspaceState w procCwd).2.IsText ∨ .active id ∈ d.files) ∧
      (.session id ∈ d'.files ↔ .session id ∈ d.files) ∧
      (.trash id ∈ d'.files ↔ .trash id ∈ d.files) := by
  intro d'
  by_cases htext : (sm.snapshotToWorkspaceState w procCwd).2.IsText
  · have hfiles : d'.files = _ := (saveToPath_works hos _ htext).2
    simp [hfiles, htext]
  · have hfiles : d'.files = d.files := (saveToPath_refused hos _ htext).2
    simp [hfiles, htext]

/-- The exit move takes the file out of `active/` and puts it under the other name. -/
theorem pinnedAwareExitMove_files {c : List α} (pinned : Bool)
    (h : d.files.get (.active id) = some c) :
    (pinnedAwareExitMove os id pinned d).files =
      (d.files.erase (.active id)).insert (if pinned then .session id else .trash id) c := by
  have hmem : FilePath.active id ∈ d.files := PMap.mem_of_get h
  cases pinned with
  | true =>
    simp only [pinnedAwareExitMove, if_true, moveActiveToSessions, moveActiveTo, if_pos hmem]
    exact (renameWithFallback_works hos _ h).2
  | false =>
    simp only [pinnedAwareExitMove, moveActiveToTrash, moveActiveTo, if_pos hmem]
    exact (renameWithFallback_works hos _ h).2

omit hos in
/-- Without a file there is nothing to move. -/
theorem pinnedAwareExitMove_none (pinned : Bool) (h : .active id ∉ d.files) :
    pinnedAwareExitMove os id pinned d = d := by
  cases pinned <;> simp [pinnedAwareExitMove, moveActiveToSessions, moveActiveToTrash, moveActiveTo, h]

/-- A clean close leaves the file in the bucket of the pin state, nothing in `active/`,
and the other bucket as it was. -/
theorem shutdownClean_files (w : World) (procCwd : ℕ → Option PathBuf) (sm : SessionManager) :
    let d' := shutdownClean os codec id w procCwd sm d
    let found := (sm.snapshotToWorkspaceState w procCwd).2.IsText ∨ .active id ∈ d.files
    .active id ∉ d'.files ∧
      (.session id ∈ d'.files ↔ sm.pinned = true ∧ found ∨ .session id ∈ d.files) ∧
      (.trash id ∈ d'.files ↔ sm.pinned = false ∧ found ∨ .trash id ∈ d.files) := by
  intro d' found
  obtain ⟨hactive, hsession, htrash⟩ :=
    @saveSessionFromLayout_files _ os codec id d hos w procCwd sm
  have hmove : d' = pinnedAwareExitMove os id sm.pinned
    (saveSessionFromLayout os codec id w procCwd sm d).2 := rfl
  by_cases hfound : found
  · obtain ⟨c, hc⟩ := PMap.exists_get (hactive.mpr hfound)
    have hmoved : d'.files = _ := pinnedAwareExitMove_files hos sm.pinned hc
    cases hp : sm.pinned <;> simp [hmoved, hp, hfound, hsession, htrash]
  · have hsame := @pinnedAwareExitMove_none _ os id _ sm.pinned fun h => hfound (hactive.mp h)
    rw [hmove, hsame, hsession, htrash]
    exact ⟨fun h => hfound (hactive.mp h), by simp [hfound], by simp [hfound]⟩

/-- A permanent close deletes the files in `active/` and `sessions/` and leaves the
trash alone. -/
theorem closeWindowPermanently_files :
    let d' := closeWindowPermanently os id d
    .active id ∉ d'.files ∧ .session id ∉ d'.files ∧
      (.trash id ∈ d'.files ↔ .trash id ∈ d.files) := by
  intro d'
  -- the file in `sessions/` is gone before the one in `active/` is looked for
  have hfirst : ∃ d₁ : Disk α, d' = (deleteActiveFor os id d₁).1 ∧ .session id ∉ d₁.files ∧
      (.trash id ∈ d₁.files ↔ .trash id ∈ d.files) := by
    by_cases h : FilePath.session id ∈ d.files
    · refine ⟨(d.remove os (.session id)).1, by simp [d', closeWindowPermanently, h], ?_⟩
      simp [remove_works hos h]
    · exact ⟨d, by simp [d', closeWindowPermanently, h], h, Iff.rfl⟩
  obtain ⟨d₁, hd', hsession, htrash⟩ := hfirst
  have hwithin : Within (fun p => p = .active id) d₁ d' :=
    hd' ▸ deleteActiveFor_within rfl
  refine ⟨hd' ▸ deleteActiveFor_removes hos d₁ id, ?_, ?_⟩
  · rwa [hwithin.mem_iff (by simp)]
  · rw [hwithin.mem_iff (by simp), htrash]

/-- A close leaves the session in one bucket exactly if there was no stale copy and it found a
file. -/
theorem oneBucket_step_iff (t : Lives α) (e : LifeEvent) :
    OneBucket os codec marker id t e ↔ NoStaleCopy id t e ∧ FindsFile id t e := by
  obtain ⟨d, _ | ⟨w, sm⟩⟩ := t
  · cases e <;> simp [OneBucket, NoStaleCopy, FindsFile]
  cases e with
  | closeWindow procCwd =>
    obtain ⟨hactive, hsession, htrash⟩ :=
      @shutdownClean_files _ _ codec id d hos w procCwd sm
    set found := (sm.snapshotToWorkspaceState w procCwd).2.IsText ∨ .active id ∈ d.files
    have hiff : InBucket id sm.pinned (shutdownClean os codec id w procCwd sm d) ↔
        (sm.pinned = true ∧ found ∨ .session id ∈ d.files ↔ sm.pinned = true) ∧
          (sm.pinned = false ∧ found ∨ .trash id ∈ d.files ↔ sm.pinned = false) := by
      rw [← hsession, ← htrash]
      exact ⟨fun h => ⟨h.session, h.trash⟩, fun h => ⟨hactive, h.1, h.2⟩⟩
    refine hiff.trans ?_
    have hfinds : FindsFile id ⟨d, some (w, sm)⟩ (.closeWindow procCwd) ↔
        found ∨ (if sm.pinned then FilePath.session id else .trash id) ∈ d.files :=
      or_assoc.symm
    rw [hfinds]
    cases hp : sm.pinned <;> simp [NoStaleCopy, hp, and_comm]
  | closeWindowPermanently =>
    obtain ⟨hactive, hsession, htrash⟩ := @closeWindowPermanently_files _ _ id d hos
    constructor
    · exact fun h => ⟨fun hmem => h.trash (htrash.mpr hmem), trivial⟩
    · exact fun h => ⟨hactive, hsession, fun hmem => h.1 (htrash.mp hmem)⟩
  | _ => simp [OneBucket, NoStaleCopy, FindsFile]

/-- In every run of one session: after each clean close it has one file, in the bucket
its pin state names, and after each close for good none, exactly if no close leaves a
stale copy behind and each clean one finds a file. -/
theorem oneBucket_iff (t : Lives α) (events : List LifeEvent) :
    Meets (step os codec marker id) (OneBucket os codec marker id) t events ↔
      Meets (step os codec marker id) (fun t e => NoStaleCopy id t e ∧ FindsFile id t e) t events :=
  meets_congr (oneBucket_step_iff hos)

end Closes

/-! ### A session that is pinned whenever it is closed -/

section Pinned

variable {α : Type} {os : Os Uuid} {codec : SessionCodec α} {marker : List α} {id : Uuid}
  {d : Disk α} {t : Lives α} {P : FilePath → Prop}

theorem saveSessionFromLayout_within (ha : P (.active id)) (ht : P (.jsonTmp (.active id)))
    (w : World) (procCwd : ℕ → Option PathBuf) (sm : SessionManager) :
    Within P d (saveSessionFromLayout os codec id w procCwd sm d).2 :=
  saveToPath_within _ ha ht

/-- Once the migration was made, the start of a window leaves the trash alone. -/
theorem startUp_within (ha : ∀ u, P (.active u)) (hs : ∀ u, P (.session u))
    (h : .migrationMarker ∈ d.files) : Within P d (startUp os codec marker d) := by
  have hmig : (runMigrationP018 os codec marker d).1 = d := by simp [runMigrationP018, h]
  have hlisted : Within P d (recoverOrphansInActive os codec d).1 :=
    (listActive_within P d).trans (probeOrphans_within P _ _)
  simp only [startUp, hmig]
  exact hlisted.trans (Within.foldl (fun d o _ => recoverOrphan_within o (ha _) (hs _) d) _)

theorem startDaemon_within (ha : P (.active id)) (ht : P (.jsonTmp (.active id)))
    (launch : Launch) (d : Disk α) : Within P d (startDaemon os codec id launch d).disk :=
  (loadSessionFor_within P d).trans (saveSessionFromLayout_within ha ht _ _ _)

theorem closeWindowPermanently_within (ha : P (.active id)) (hs : P (.session id)) :
    Within P d (closeWindowPermanently os id d) := by
  unfold closeWindowPermanently
  dsimp only
  split_ifs
  · exact (remove_within hs).trans (deleteActiveFor_within ha)
  · exact deleteActiveFor_within ha

/-- The session is pinned when it is closed, and can be saved. -/
def PinnedClose (t : Lives α) (e : LifeEvent) : Prop :=
  match e, t.daemon with
  | .closeWindow procCwd, some (w, sm) =>
    sm.pinned = true ∧ (sm.snapshotToWorkspaceState w procCwd).2.IsText
  | _, _ => True

/-- The migration was made and the session has nothing in the trash. -/
def NothingTrashed (id : Uuid) (t : Lives α) : Prop :=
  .migrationMarker ∈ t.disk.files ∧ .trash id ∉ t.disk.files

/-- The files a step may touch that is no unpinned close. -/
def Untrashed (id : Uuid) (p : FilePath) : Prop := p ≠ .migrationMarker ∧ p ≠ .trash id

theorem NothingTrashed.within (h : NothingTrashed id t) {e : LifeEvent} (he : PinnedClose t e) :
    Within (Untrashed id) t.disk (step os codec marker id t e).disk := by
  have hactive (u : Uuid) : Untrashed id (.active u) := by simp [Untrashed]
  have hsession (u : Uuid) : Untrashed id (.session u) := by simp [Untrashed]
  have htmp : Untrashed id (.jsonTmp (.active id)) := by simp [Untrashed]
  have hstart (launch : Launch) : Within (Untrashed id) t.disk
      (startDaemon os codec id launch (startUp os codec marker t.disk)).disk :=
    (startUp_within hactive hsession h.1).trans (startDaemon_within (hactive id) htmp launch _)
  obtain ⟨d, _ | ⟨w, sm⟩⟩ := t
  · cases e with
    | startWindow launch => exact hstart launch
    | restoreSession launch =>
      -- there is nothing to restore
      have hrestore : (restoreFromTrashToActive os id d).1 = d := by
        unfold restoreFromTrashToActive
        rw [if_neg h.2]
      simp only [Lives.step, hrestore]
      exact hstart launch
    | _ => exact .refl _ d
  · cases e with
    | save procCwd => exact saveSessionFromLayout_within (hactive id) htmp w procCwd sm
    | setPinned pinned procCwd =>
      exact saveSessionFromLayout_within (hactive id) htmp w procCwd (sm.setPinned pinned)
    | closeWindow procCwd =>
      have hp : sm.pinned = true := he.1
      have hsave : Within (Untrashed id) d
          (saveSessionFromLayout os codec id w procCwd sm d).2 :=
        saveSessionFromLayout_within (hactive id) htmp w procCwd sm
      have hmove (d : Disk α) : Within (Untrashed id) d (pinnedAwareExitMove os id true d) :=
        moveActiveTo_within (hactive id) (hsession id)
      simp only [Lives.step, shutdownClean, SessionManager.isPinned]
      rw [show (saveSessionFromLayout os codec id w procCwd sm d).1.pinned = true from hp]
      exact hsave.trans (hmove _)
    | closeWindowPermanently => exact closeWindowPermanently_within (hactive id) (hsession id)
    | _ => exact .refl _ d

theorem NothingTrashed.step (h : NothingTrashed id t) {e : LifeEvent} (he : PinnedClose t e) :
    NothingTrashed id (step os codec marker id t e) := by
  have hwithin := @NothingTrashed.within _ os codec marker _ _ h e he
  refine ⟨(hwithin.mem_iff (by simp [Untrashed])).mpr h.1, fun hmem => h.2 ?_⟩
  exact (hwithin.mem_iff (by simp [Untrashed])).mp hmem

/-- A session that never was in the trash and is pinned and saved whenever it is closed lives
in one bucket. -/
theorem oneBucket_of_pinnedClose (hos : os.Works) (h : NothingTrashed id t)
    {events : List LifeEvent} (he : Meets (step os codec marker id) PinnedClose t events) :
    Meets (step os codec marker id) (OneBucket os codec marker id) t events := by
  refine meets_of_invariant (I := NothingTrashed id) (fun t e ht he => ht.step he) ?_ h he
  rintro ⟨d, _ | ⟨w, sm⟩⟩ e ht he <;> rw [oneBucket_step_iff hos]
  · cases e <;> exact ⟨trivial, trivial⟩
  · cases e with
    | closeWindow procCwd =>
      obtain ⟨hp, htext⟩ := he
      refine ⟨⟨fun _ => ht.2, fun hunpinned => ?_⟩, Or.inl htext⟩
      cases hp.symm.trans hunpinned
    | closeWindowPermanently => exact ⟨ht.2, trivial⟩
    | _ => exact ⟨trivial, trivial⟩

end Pinned

end Lives

/-! A session that is pinned and closed, opened again, unpinned, and closed: it is in the
trash, and in `sessions/`, from where the next launch restores it. -/

def plainLaunch : Launch where
  w := .counting
  isDir _ := false
  procCwd _ := none
  byteLogRingKb := 1024
  byteLogMaxMb := 10
  logFiles := .empty

def pinnedOnce : List LifeEvent :=
  [.startWindow plainLaunch, .setPinned true fun _ => none, .closeWindow fun _ => none,
    .startWindow plainLaunch, .setPinned false fun _ => none, .closeWindow fun _ => none]

theorem not_oneBucket_pinnedOnce :
    ¬Meets (Lives.step oneSession .doubled [] ⟨7⟩) (Lives.OneBucket oneSession .doubled [] ⟨7⟩)
      ⟨⟨.empty, 0, []⟩, none⟩ pinnedOnce := by
  intro h
  obtain ⟨-, -, -, -, -, hclose, -⟩ := h
  exact absurd (hclose.session.mp (by decide)) (by decide)

/-- Its first life leaves one file. -/
theorem oneBucket_firstLife :
    Meets (Lives.step oneSession .doubled [] ⟨7⟩) (Lives.OneBucket oneSession .doubled [] ⟨7⟩)
      ⟨⟨.empty, 0, []⟩, none⟩ (pinnedOnce.take 3) := by
  rw [Lives.oneBucket_iff fun _ => rfl]
  exact ⟨⟨trivial, trivial⟩, ⟨trivial, trivial⟩,
    ⟨⟨fun _ => by decide, nofun⟩, Or.inl (by decide)⟩, trivial⟩

end Forgetty
