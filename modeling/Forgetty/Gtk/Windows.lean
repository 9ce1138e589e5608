import Forgetty.Gtk.StartUp
import Forgetty.Lib.Run

/-! Many windows on one data directory. Daemons save their sessions to `active/` and
move them away when they exit, while windows that start list `active/`, probe what
they listed, and then move or delete it. The recovery does not look whether the
daemon of a file it lists is running. It is safe as long as windows list the
directory only when no running session has a file there, and no daemon starts for a
session that is on the list of a window. -/

namespace Forgetty

open Lib FileStore

/-- The recovery of a window: what it listed and still has to probe, and what it
probed and still has to move or delete. -/
structure Recovery where
  names : List Uuid
  orphans : List (Uuid × Bool)

/-- The data directory, the sessions whose daemon is running, and the windows that
are in their recovery. -/
structure Desktop (α : Type) where
  disk : Disk α
  running : List Uuid
  recoveries : PMap ℕ Recovery

/-- What daemons and windows do, in steps that do not interleave. -/
inductive DesktopEvent where
  | startDaemon (id : Uuid)
  | save (id : Uuid) (state : WorkspaceState)
  | exit (id : Uuid) (pinned : Bool)
  | crash (id : Uuid)
  | openWindow (window : ℕ)
  | probe (window : ℕ)
  | recover (window : ℕ)

/-- The steps of the recovery at the start of a window. -/
def DesktopEvent.ofRecovery : DesktopEvent → Bool
  | openWindow _ | probe _ | recover _ => true
  | _ => false

namespace Desktop

section Step

variable {α : Type} (os : Os Uuid) (codec : SessionCodec α) (marker : List α)

def step (m : Desktop α) : DesktopEvent → Desktop α
  | .startDaemon id => { m with running := id :: m.running }
  | .save id state =>
    if id ∈ m.running then { m with disk := (moveToActive os codec id state m.disk).1 } else m
  | .exit id pinned =>
    if id ∈ m.running then
      { m with
        disk := pinnedAwareExitMove os id pinned m.disk
        running := m.running.filter (· ≠ id) }
    else m
  | .crash id => { m with running := m.running.filter (· ≠ id) }
  | .openWindow window =>
    let entries := listActive os (runMigrationP018 os codec marker m.disk).1
    { m with
      disk := entries.1
      recoveries := m.recoveries.insert window { names := entries.2, orphans := [] } }
  | .probe window =>
    match m.recoveries.get window with
    | some { names := uuid :: names, orphans := orphans } =>
      let probed := probeOrphan os codec uuid m.disk
      { m with
        disk := probed.1
        recoveries := m.recoveries.insert window
          { names := names, orphans := orphans ++ probed.2.toList } }
    | _ => m
  | .recover window =>
    match m.recoveries.get window with
    | some { names := [], orphans := orphan :: orphans } =>
      { m with
        disk := recoverOrphan os m.disk orphan
        recoveries := m.recoveries.insert window { names := [], orphans := orphans } }
    | _ => m

/-- The file of the session in `active/` is the same before and after the step. -/
def KeepsFile (id : Uuid) (m : Desktop α) (e : DesktopEvent) : Prop :=
  (step os codec marker m e).disk.files.get (.active id) = m.disk.files.get (.active id)

/-- A step of a recovery keeps the files of all running sessions. -/
def KeepsLive (m : Desktop α) (e : DesktopEvent) : Prop :=
  e.ofRecovery = true → ∀ id ∈ m.running, KeepsFile os codec marker id m e

/-- The session is on the list of a window. -/
def Listed (id : Uuid) (m : Desktop α) : Prop :=
  ∃ window r, m.recoveries.get window = some r ∧ (id ∈ r.names ∨ ∃ b, (id, b) ∈ r.orphans)

/-- A window lists `active/` only when no running session has a file there, and a
daemon starts only for a session that is on no list. -/
def Separate (m : Desktop α) : DesktopEvent → Prop
  | .openWindow _ => ∀ id ∈ m.running, .active id ∉ m.disk.files
  | .startDaemon id => ¬Listed id m
  | _ => True

end Step

section Safety

variable {α : Type} {os : Os Uuid} {codec : SessionCodec α} {marker : List α} {m : Desktop α}

/-- No running session is on a list. -/
def RunningUnlisted (m : Desktop α) : Prop := ∀ id ∈ m.running, ¬Listed id m

theorem listed_insert {id : Uuid} {window : ℕ} {r : Recovery} {d : Disk α}
    (h : Listed id { m with disk := d, recoveries := m.recoveries.insert window r }) :
    Listed id m ∨ id ∈ r.names ∨ ∃ b, (id, b) ∈ r.orphans := by
  obtain ⟨window', r', hget, hr'⟩ := h
  rw [PMap.get_insert] at hget
  split_ifs at hget with hw
  · rw [Option.some.injEq] at hget
    exact Or.inr (hget ▸ hr')
  · exact Or.inl ⟨window', r', hget, hr'⟩

theorem RunningUnlisted.step (h : RunningUnlisted m) {e : DesktopEvent} (he : Separate m e) :
    RunningUnlisted (step os codec marker m e) := by
  cases e with
  | startDaemon id =>
    intro id' hid'
    rcases List.mem_cons.mp hid' with rfl | hid'
    · exact he
    · exact h id' hid'
  | save id state =>
    simp only [Desktop.step]
    split_ifs <;> exact h
  | exit id pinned =>
    simp only [Desktop.step]
    split_ifs
    · exact fun id' hid' => h id' (List.mem_of_mem_filter hid')
    · exact h
  | crash id => exact fun id' hid' => h id' (List.mem_of_mem_filter hid')
  | openWindow window =>
    intro id hid hl
    rcases listed_insert hl with hl | hnames | ⟨b, hb⟩
    · exact h id hid hl
    · have hmig : Within (fun p => ∀ u, p ≠ .active u) m.disk
          (runMigrationP018 os codec marker m.disk).1 :=
        runMigrationP018_within (by simp) (by simp) (by simp) m.disk
      have hfile : .active id ∈ (runMigrationP018 os codec marker m.disk).1.files :=
        mem_of_listActive hnames
      exact he id hid ((hmig.mem_iff (by simp)).mp hfile)
    · exact absurd hb List.not_mem_nil
  | probe window =>
    simp only [Desktop.step]
    split
    · rename_i uuid names orphans hget
      intro id hid hl
      rcases listed_insert hl with hl | hnames | ⟨b, hb⟩
      · exact h id hid hl
      · exact h id hid ⟨window, _, hget, Or.inl (List.mem_cons_of_mem _ hnames)⟩
      · rcases List.mem_append.mp hb with hb | hb
        · exact h id hid ⟨window, _, hget, Or.inr ⟨b, hb⟩⟩
        · obtain rfl := eq_of_probeOrphan hb
          exact h id hid ⟨window, _, hget, Or.inl List.mem_cons_self⟩
    · exact h
  | recover window =>
    simp only [Desktop.step]
    split
    · rename_i orphan orphans hget
      intro id hid hl
      rcases listed_insert hl with hl | hnames | ⟨b, hb⟩
      · exact h id hid hl
      · exact absurd hnames List.not_mem_nil
      · exact h id hid ⟨window, _, hget, Or.inr ⟨b, List.mem_cons_of_mem _ hb⟩⟩
    · exact h

/-- As long as no running session is on a list, the recovery keeps their files. -/
theorem RunningUnlisted.keepsLive (h : RunningUnlisted m) (e : DesktopEvent) :
    KeepsLive os codec marker m e := by
  intro hrec id hid
  have hno := h id hid
  cases e with
  | startDaemon id' => exact absurd hrec Bool.false_ne_true
  | save id' state => exact absurd hrec Bool.false_ne_true
  | exit id' pinned => exact absurd hrec Bool.false_ne_true
  | crash id' => exact absurd hrec Bool.false_ne_true
  | openWindow window =>
    have hmig : Within (fun p => ∀ u, p ≠ .active u) m.disk
        (runMigrationP018 os codec marker m.disk).1 :=
      runMigrationP018_within (by simp) (by simp) (by simp) m.disk
    exact hmig.same (.active id) (by simp)
  | probe window =>
    simp only [KeepsFile, Desktop.step]
    split
    · exact (probeOrphan_within (fun _ => False) _ m.disk).same (.active id) not_false
    · rfl
  | recover window =>
    simp only [KeepsFile, Desktop.step]
    split
    · rename_i orphan orphans hget
      have hne : id ≠ orphan.1 := by
        rintro rfl
        exact hno ⟨window, _, hget, Or.inr ⟨orphan.2, List.mem_cons_self⟩⟩
      have hother : Within (fun p => p = .active orphan.1 ∨ p = .session orphan.1) m.disk
          (recoverOrphan os m.disk orphan) :=
        recoverOrphan_within orphan (Or.inl rfl) (Or.inr rfl) m.disk
      exact hother.same (.active id) (by simp [hne])
    · rfl

/-- In every run of daemons and windows in which windows list `active/` only when no
running session has a file there and daemons start only for sessions that are on no
list, no step of a recovery removes or moves the file of a running session. -/
theorem keepsLive_of_separate (disk : Disk α) (running : List Uuid) (events : List DesktopEvent)
    (h : Meets (step os codec marker) Separate ⟨disk, running, .empty⟩ events) :
    Meets (step os codec marker) (KeepsLive os codec marker) ⟨disk, running, .empty⟩ events := by
  refine meets_of_invariant (fun t e ht he => RunningUnlisted.step ht he)
    (fun t e ht _ => RunningUnlisted.keepsLive ht e) ?_ h
  rintro id - ⟨window, r, hget, -⟩
  exact nomatch hget

end Safety

/-! ### A window that is not disturbed -/

section Alone

variable {α : Type} (os : Os Uuid) (codec : SessionCodec α) (marker : List α)

theorem run_probe (window : ℕ) {names : List Uuid} {orphans : List (Uuid × Bool)} {m : Desktop α}
    (h : m.recoveries.get window = some ⟨names, orphans⟩) :
    (run (step os codec marker) m (List.replicate names.length (.probe window))).disk =
        (probeOrphans os codec names m.disk).1 ∧
      (run (step os codec marker) m (List.replicate names.length (.probe window))).recoveries.get
        window = some ⟨[], orphans ++ (probeOrphans os codec names m.disk).2⟩ := by
  induction names generalizing m orphans with
  | nil => exact ⟨rfl, by simpa [probeOrphans] using h⟩
  | cons uuid names ih =>
    have hstep : step os codec marker m (.probe window) =
        { m with
          disk := (probeOrphan os codec uuid m.disk).1
          recoveries := m.recoveries.insert window
            ⟨names, orphans ++ (probeOrphan os codec uuid m.disk).2.toList⟩ } := by
      simp only [step, h]
    rw [List.length_cons, List.replicate_succ, run_cons, hstep]
    obtain ⟨hdisk, hget⟩ := ih (m := { m with
      disk := (probeOrphan os codec uuid m.disk).1
      recoveries := m.recoveries.insert window
        ⟨names, orphans ++ (probeOrphan os codec uuid m.disk).2.toList⟩ }) (PMap.get_insert_self ..)
    exact ⟨hdisk, hget.trans (by rw [probeOrphans, List.append_assoc])⟩

theorem run_recover (window : ℕ) {orphans : List (Uuid × Bool)} {m : Desktop α}
    (h : m.recoveries.get window = some ⟨[], orphans⟩) :
    (run (step os codec marker) m (List.replicate orphans.length (.recover window))).disk =
      orphans.foldl (recoverOrphan os) m.disk := by
  induction orphans generalizing m with
  | nil => rfl
  | cons orphan orphans ih =>
    have hstep : step os codec marker m (.recover window) =
        { m with
          disk := recoverOrphan os m.disk orphan
          recoveries := m.recoveries.insert window ⟨[], orphans⟩ } := by
      simp only [step, h]
    rw [List.length_cons, List.replicate_succ, run_cons, hstep]
    exact ih (PMap.get_insert_self ..)

/-- The steps of one window's recovery. -/
def recoverySteps (disk : Disk α) (window : ℕ) : List DesktopEvent :=
  let entries := listActive os (runMigrationP018 os codec marker disk).1
  .openWindow window :: (List.replicate entries.2.length (.probe window) ++
    List.replicate (probeOrphans os codec entries.2 entries.1).2.length (.recover window))

variable {os codec marker}

/-- Taken one after the other they are the start of the window. -/
theorem run_recoverySteps (m : Desktop α) (window : ℕ) :
    (run (step os codec marker) m (recoverySteps os codec marker m.disk window)).disk =
      startUp os codec marker m.disk := by
  rw [recoverySteps, run_cons, run_append]
  have hopen : (step os codec marker m (.openWindow window)).recoveries.get window =
      some ⟨(listActive os (runMigrationP018 os codec marker m.disk).1).2, []⟩ :=
    PMap.get_insert_self ..
  obtain ⟨hdisk, hget⟩ := run_probe os codec marker window hopen
  have hlast := run_recover os codec marker window hget
  rw [hdisk] at hlast
  exact hlast

theorem running_of_recovery {m : Desktop α} {e : DesktopEvent} (h : e.ofRecovery = true) :
    (step os codec marker m e).running = m.running := by
  cases e with
  | openWindow window => rfl
  | probe window =>
    simp only [step]
    split <;> rfl
  | recover window =>
    simp only [step]
    split <;> rfl
  | _ => exact absurd h Bool.false_ne_true

theorem ofRecovery_of_mem {disk : Disk α} {window : ℕ} {e : DesktopEvent}
    (h : e ∈ recoverySteps os codec marker disk window) : e.ofRecovery = true := by
  simp only [recoverySteps, List.mem_cons, List.mem_append, List.mem_replicate] at h
  rcases h with rfl | ⟨-, rfl⟩ | ⟨-, rfl⟩ <;> rfl

/-- The condition on listing is needed: a window that lists `active/` while a running
session has a file there that can be read removes that file when nobody interferes. -/
theorem not_keepsLive_of_listed (hos : os.Works) {m : Desktop α} {id : Uuid} {c : List α} {b : Bool}
    (hlist : ∀ n, id ∈ os.names n) (hid : id ∈ m.running)
    (ha : m.disk.files.get (.active id) = some c) (hp : codec.probe c = some b) (window : ℕ) :
    ¬Meets (step os codec marker) (KeepsLive os codec marker) m
      (recoverySteps os codec marker m.disk window) := by
  intro h
  have hkept := meets_of_invariant (I := fun t : Desktop α => id ∈ t.running)
    (J := fun t e => e.ofRecovery = true ∧ KeepsLive os codec marker t e)
    (Q := fun t e => (step os codec marker t e).disk.files.get (.active id) =
      t.disk.files.get (.active id))
    (fun t e ht he => (running_of_recovery he.1).symm ▸ ht) (fun t e ht he => he.2 he.1 id ht) hid
    (meets_and.mpr ⟨meets_of_mem fun e he => ofRecovery_of_mem he, h⟩)
  have hfile := (Meets.last (f := fun t : Desktop α => t.disk.files.get (.active id)) hkept).trans ha
  rw [run_recoverySteps] at hfile
  exact startUp_removes hos hlist ha hp (PMap.mem_of_get hfile)

end Alone

/-! Session 7 is running and has saved; then a window for another session starts. -/

def secondWindow : List DesktopEvent :=
  [.startDaemon ⟨7⟩, .save ⟨7⟩ .new, .openWindow 0, .probe 0, .recover 0]

theorem not_keepsLive_secondWindow :
    ¬Meets (step oneSession .doubled []) (KeepsLive oneSession .doubled [])
      ⟨⟨.empty, 0, []⟩, [], .empty⟩ secondWindow := by
  rintro ⟨-, -, -, -, h, -⟩
  have hkept := h rfl ⟨7⟩ (by decide)
  revert hkept
  unfold KeepsFile
  decide

/-- The same after a crash of the daemon. -/
theorem keepsLive_crashedWindow :
    Meets (step oneSession .doubled []) (KeepsLive oneSession .doubled [])
      ⟨⟨.empty, 0, []⟩, [], .empty⟩
      [.startDaemon ⟨7⟩, .save ⟨7⟩ .new, .crash ⟨7⟩, .openWindow 0, .probe 0, .recover 0] := by
  apply keepsLive_of_separate
  refine ⟨?_, trivial, trivial, ?_, trivial, trivial, trivial⟩
  · rintro ⟨window, r, hget, -⟩
    exact nomatch hget
  · intro id hid
    exact absurd hid List.not_mem_nil

end Desktop

end Forgetty
