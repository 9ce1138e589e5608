import Forgetty.Workspace.Migration
import Forgetty.Lib.Stamped
import Mathlib.Tactic.Positivity

/-! How long a closed session stays in the trash. The purge at a launch goes by the time
the file was last modified. A clean close writes the file just before it moves it, and a
move by copying sets the time, so these files are kept for the full retention and removed
by the first purge after it. The migration renames files that may be old, and the next
purge removes them at once. Each event here has one time, and its calls work, except
where it says otherwise. -/

namespace Forgetty

open Lib StampedFiles

/-- The data directory with modification times, in nanoseconds. -/
abbrev StampedDisk (α : Type) := StampedFiles FilePath α

def FilePath.inTrash : FilePath → Bool
  | .trash _ => true
  | _ => false

/-- The retention of the purge, `max_days * 86400` seconds. -/
def retention (maxDays : UInt32) : ℤ := maxDays.toNat * (86400 * 10 ^ 9)

namespace StampedDisk

section Code

variable {α : Type} (codec : SessionCodec α) (renames : FilePath → FilePath → Bool) (now : ℤ)

/-- The temporary file and the file are in one directory. -/
def saveToPath (path : FilePath) (state : WorkspaceState) (m : StampedDisk α) : StampedDisk α :=
  match codec.toStringPretty state with
  | .error _ => m
  | .ok json => rename (.jsonTmp path) path (write now (.jsonTmp path) json m)

def moveActiveTo (dest : FilePath) (sessionId : Uuid) (m : StampedDisk α) : StampedDisk α :=
  if sessionPathActiveFor sessionId ∈ m then
    move renames now (sessionPathActiveFor sessionId) dest m
  else m

def pinnedAwareExitMove (sessionId : Uuid) (pinned : Bool) (m : StampedDisk α) : StampedDisk α :=
  if pinned then moveActiveTo renames now (sessionPathFor sessionId) sessionId m
  else moveActiveTo renames now (trashPathFor sessionId) sessionId m

/-- `saves` tells whether the calls of the save before the move work. When nothing is saved, what
was saved last is moved. -/
def closeWindow (sessionId : Uuid) (state : WorkspaceState) (saves : Bool) (m : StampedDisk α) :
    StampedDisk α :=
  pinnedAwareExitMove renames now sessionId state.pinned
    (if saves then saveToPath codec now (sessionPathActiveFor sessionId) state m else m)

def closeWindowPermanently (sessionId : Uuid) (m : StampedDisk α) : StampedDisk α :=
  (m.erase (sessionPathFor sessionId)).erase (sessionPathActiveFor sessionId)

def restoreFromTrashToActive (sessionId : Uuid) (m : StampedDisk α) : StampedDisk α :=
  if trashPathFor sessionId ∈ m then
    move renames now (trashPathFor sessionId) (sessionPathActiveFor sessionId) m
  else m

def recoverOrphan (orphan : Uuid × Bool) (m : StampedDisk α) : StampedDisk α :=
  if orphan.2 then moveActiveTo renames now (sessionPathFor orphan.1) orphan.1 m
  else m.erase (sessionPathActiveFor orphan.1)

def migrateEntry (m : StampedDisk α) (sessionId : Uuid) : StampedDisk α :=
  match (m.get (sessionPathFor sessionId)).bind fun f => codec.probe f.contents with
  | some false =>
    if trashPathFor sessionId ∈ m then m.erase (sessionPathFor sessionId)
    else move renames now (sessionPathFor sessionId) (trashPathFor sessionId) m
  | _ => m

def runMigrationP018 (marker : List α) (listed : List Uuid) (m : StampedDisk α) : StampedDisk α :=
  if migrationP018MarkerPath ∈ m then m
  else write now migrationP018MarkerPath marker (listed.foldl (migrateEntry codec renames now) m)

/-- The entries of the trash that were last modified before the cutoff are removed. -/
def purgeOldTrash (maxDays : UInt32) (m : StampedDisk α) : StampedDisk α :=
  if maxDays = 0 then m
  else
    let cutoff := now - retention maxDays
    ⟨fun p => (m.get p).filter fun f => !(p.inTrash && decide (f.modified < cutoff))⟩

end Code

end StampedDisk

/-- What windows and daemons do to the session files. -/
inductive TrashEvent where
  | save (sessionId : Uuid) (state : WorkspaceState)
  | closeWindow (sessionId : Uuid) (state : WorkspaceState) (saves : Bool)
  | closeWindowPermanently (sessionId : Uuid)
  | restoreSession (sessionId : Uuid)
  | migrate (listed : List Uuid)
  | recover (orphan : Uuid × Bool)
  | purge (maxDays : UInt32)

namespace StampedDisk

section Step

variable {α : Type} (codec : SessionCodec α) (renames : FilePath → FilePath → Bool)
  (marker : List α) (id : Uuid) (t : ℤ) (days : UInt32)

/-- An event at a time. -/
def step (m : StampedDisk α) (e : ℤ × TrashEvent) : StampedDisk α :=
  match e.2 with
  | .save u state => saveToPath codec e.1 (sessionPathActiveFor u) state m
  | .closeWindow u state saves => closeWindow codec renames e.1 u state saves m
  | .closeWindowPermanently u => closeWindowPermanently u m
  | .restoreSession u => restoreFromTrashToActive renames e.1 u m
  | .migrate listed => runMigrationP018 codec renames e.1 marker listed m
  | .recover orphan => recoverOrphan renames e.1 orphan m
  | .purge maxDays => purgeOldTrash e.1 maxDays m

/-- The event neither restores the session nor closes it once more. -/
def Spares (e : TrashEvent) : Prop :=
  match e with
  | .closeWindow u _ _ | .restoreSession u => u ≠ id
  | _ => True

/-- What may come after `t` while the retention lasts: the clock does not run backwards,
the session is spared, and purges go by the one retention. -/
structure DuringRetention (events : List (ℤ × TrashEvent)) : Prop where
  clock : events.Pairwise fun e e' => e.1 ≤ e'.1
  after : ∀ e ∈ events, t ≤ e.1
  spares : ∀ e ∈ events, Spares id e.2
  purges : ∀ e ∈ events, ∀ d, e.2 = .purge d → d = days ∧ e.1 ≤ t + retention days

/-- The file is kept for the retention, counted from `t`, whatever happens to other
sessions, and the first purge after it removes the file. -/
def Retained (m : StampedDisk α) : Prop :=
  ∀ events, DuringRetention id t days events →
    .trash id ∈ run (step codec renames marker) m events ∧
      ∀ τ, (∀ e ∈ events, e.1 ≤ τ) → t + retention days < τ →
        .trash id ∉ step codec renames marker (run (step codec renames marker) m events)
          (τ, .purge days)

/-- The event puts a file of the session into the trash: it is closed while unpinned, or
migrated. -/
def Enters (m : StampedDisk α) (e : TrashEvent) : Prop :=
  match e with
  | .closeWindow u state saves =>
    u = id ∧ state.pinned = false ∧ (saves = true ∧ state.IsText ∨ .active id ∈ m)
  | .migrate listed => .migrationMarker ∉ m ∧ id ∈ listed ∧ .trash id ∉ m ∧
      ∃ f, m.get (.session id) = some f ∧ codec.probe f.contents = some false
  | _ => False

/-- The file that enters is written at that moment: it is saved just before, or moved by
copying, or happens to be that new. -/
def WrittenNow (m : StampedDisk α) (e : TrashEvent) : Prop :=
  match e with
  | .closeWindow _ state saves => saves = true ∧ state.IsText ∨
      renames (.active id) (.trash id) = false ∨
      ∃ f, m.get (.active id) = some f ∧ f.modified = t
  | .migrate _ => renames (.session id) (.trash id) = false ∨
      ∃ f, m.get (.session id) = some f ∧ f.modified = t
  | _ => False

end Step

/-! ### What becomes of a file in the trash -/

section Kept

variable {α : Type} {codec : SessionCodec α} {renames : FilePath → FilePath → Bool}
  {marker : List α} {id : Uuid} {t now : ℤ} {days : UInt32} {m : StampedDisk α} {f : Stamped α}

/-- A move between two other paths. -/
theorem get_move_of_ne {p q r : FilePath} (hp : r ≠ p) (hq : r ≠ q) :
    (move renames now p q m).get r = m.get r := by
  unfold move rename copy
  split_ifs <;> cases m.get p <;> simp [hp, hq]

theorem saveToPath_eq (p : FilePath) {state : WorkspaceState} (h : state.IsText) :
    saveToPath codec now p state m =
      ((m.insert (.jsonTmp p) ⟨codec.encode state, now⟩).erase (.jsonTmp p)).insert p
        ⟨codec.encode state, now⟩ := by
  rw [saveToPath, SessionCodec.toStringPretty_ok h]
  dsimp only
  rw [write, rename_eq p (PMap.get_insert_self _ _ _)]

theorem saveToPath_of_not_isText (p : FilePath) {state : WorkspaceState} (h : ¬state.IsText) :
    saveToPath codec now p state m = m := by
  have hrefused : codec.toStringPretty state = .error _ := if_neg h
  rw [saveToPath, hrefused]

theorem get_saveToPath_of_ne {p r : FilePath} (hp : r ≠ p) (ht : r ≠ .jsonTmp p)
    (state : WorkspaceState) : (saveToPath codec now p state m).get r = m.get r := by
  by_cases htext : state.IsText
  · rw [saveToPath_eq p htext]
    simp [hp, ht]
  · rw [saveToPath_of_not_isText p htext]

theorem get_moveActiveTo_of_ne {u : Uuid} {dest r : FilePath} (hr : r ≠ .active u) (hd : r ≠ dest) :
    (moveActiveTo renames now dest u m).get r = m.get r := by
  unfold moveActiveTo
  split_ifs
  · exact get_move_of_ne hr hd
  · rfl

/-- The migration leaves what is in the trash as it is. -/
theorem get_migrateEntry_trash (h : m.get (.trash id) = some f) (u : Uuid) :
    (migrateEntry codec renames now m u).get (.trash id) = some f := by
  unfold migrateEntry
  split
  · split_ifs with hu
    · rw [PMap.get_erase_of_ne (by simp), h]
    · have hne : u ≠ id := fun heq => hu (heq ▸ PMap.mem_of_get h)
      rw [get_move_of_ne (by simp) (by simpa using hne.symm), h]
  · exact h

theorem get_runMigrationP018_trash (h : m.get (.trash id) = some f) (listed : List Uuid) :
    (runMigrationP018 codec renames now marker listed m).get (.trash id) = some f := by
  unfold runMigrationP018
  split_ifs
  · exact h
  · rw [write, PMap.get_insert_of_ne (by simp)]
    exact (@along_of_step _ _ (migrateEntry codec renames now)
      (fun m => m.get (.trash id) = some f) m listed h fun m u h => get_migrateEntry_trash h u).last

/-- The purge removes the file exactly if it was last modified longer ago than the
retention. -/
theorem get_purgeOldTrash (h : m.get (.trash id) = some f) (hd : days ≠ 0) :
    (purgeOldTrash now days m).get (.trash id) =
      if f.modified + retention days < now then none else some f := by
  simp only [purgeOldTrash, hd, if_false, h, FilePath.inTrash, Bool.true_and, Option.filter_some]
  split_ifs <;> simp_all; omega

/-- An event that spares the session and is no late purge leaves its file in the trash. -/
theorem get_step_trash (h : m.get (.trash id) = some f) {e : ℤ × TrashEvent} (hs : Spares id e.2)
    (hp : ∀ d, e.2 = .purge d → d ≠ 0 ∧ e.1 ≤ f.modified + retention d) :
    (step codec renames marker m e).get (.trash id) = some f := by
  obtain ⟨τ, e⟩ := e
  cases e with
  | save u state => exact (get_saveToPath_of_ne (by simp) (by simp) state).trans h
  | closeWindow u state saves =>
    have hne : id ≠ u := Ne.symm hs
    have hmove (m : StampedDisk α) : (pinnedAwareExitMove renames τ u state.pinned m).get
        (.trash id) = m.get (.trash id) := by
      unfold pinnedAwareExitMove
      split_ifs
      · exact get_moveActiveTo_of_ne (by simp) (by simp)
      · exact get_moveActiveTo_of_ne (by simp) (by simpa using hne)
    refine (hmove _).trans ?_
    split_ifs
    · exact (get_saveToPath_of_ne (by simp) (by simp) state).trans h
    · exact h
  | closeWindowPermanently u => simpa [step, closeWindowPermanently] using h
  | restoreSession u =>
    have hne : id ≠ u := Ne.symm hs
    simp only [step, restoreFromTrashToActive]
    split_ifs
    · exact (get_move_of_ne (by simpa using hne) (by simp)).trans h
    · exact h
  | migrate listed => exact get_runMigrationP018_trash h listed
  | recover orphan =>
    simp only [step, recoverOrphan]
    split_ifs
    · exact (get_moveActiveTo_of_ne (by simp) (by simp)).trans h
    · rw [PMap.get_erase_of_ne (by simp), h]
  | purge d =>
    obtain ⟨hd, hle⟩ := hp d rfl
    have hle : τ ≤ f.modified + retention d := hle
    rw [step, get_purgeOldTrash h hd, if_neg (by omega)]

/-- A file that entered at `t` is retained exactly if it was modified at `t`. -/
theorem retained_iff (h : m.get (.trash id) = some f) (hd : days ≠ 0) :
    Retained codec renames marker id t days m ↔ f.modified = t := by
  have hpos : 0 ≤ retention days := by unfold retention; positivity
  constructor
  · intro hret
    -- a purge at the last moment keeps it, and one right after takes it
    obtain ⟨hkept, -⟩ := hret [(t + retention days, .purge days)]
      ⟨by simp, by simpa using hpos, by simp [Spares], by simp⟩
    obtain ⟨-, hgone⟩ := hret [] ⟨by simp, by simp, by simp, by simp⟩
    have hgone := hgone (t + retention days + 1) (by simp) (by omega)
    simp only [run_cons, run_nil, step, PMap.mem_def, get_purgeOldTrash h hd] at hkept hgone
    split_ifs at hkept with hold
    · simp at hkept
    · split_ifs at hgone with hnew
      · omega
      · simp at hgone
  · rintro rfl events hevents
    have hrun : (run (step codec renames marker) m events).get (.trash id) = some f := by
      have hmeets : Meets (step codec renames marker)
          (fun _ e => Spares id e.2 ∧ ∀ d, e.2 = .purge d → d ≠ 0 ∧
            e.1 ≤ f.modified + retention d) m events := by
        refine meets_of_mem fun e he => ⟨hevents.spares e he, fun d hpurge => ?_⟩
        obtain ⟨rfl, hle⟩ := hevents.purges e he d hpurge
        exact ⟨hd, hle⟩
      exact (along_of_invariant (I := fun m : StampedDisk α => m.get (.trash id) = some f)
        (fun m e h he => get_step_trash h he.1 he.2) (fun m h => h) h hmeets).last
    refine ⟨PMap.mem_of_get hrun, fun τ _ hτ => ?_⟩
    rw [PMap.mem_def, step, get_purgeOldTrash hrun hd, if_pos hτ]
    simp

end Kept

/-! ### The ways into the trash -/

section Entering

variable {α : Type} {codec : SessionCodec α} {renames : FilePath → FilePath → Bool}
  {marker : List α} {id : Uuid} {t now : ℤ} {days : UInt32} {m : StampedDisk α} {f : Stamped α}

/-- The time of a file that is moved from the path into the trash. -/
def entryTime (renames : FilePath → FilePath → Bool) (now : ℤ) (src : FilePath) (id : Uuid)
    (f : Stamped α) : ℤ :=
  if renames src (.trash id) then f.modified else now

theorem get_move_trash {src : FilePath} (h : m.get src = some f) (hne : src ≠ .trash id) :
    (move renames now src (.trash id) m).get (.trash id) =
      some { f with modified := entryTime renames now src id f } := by
  rw [move_eq h hne, PMap.get_insert_self]
  rfl

theorem get_exitMove_trash (h : m.get (.active id) = some f) :
    (pinnedAwareExitMove renames now id false m).get (.trash id) =
      some { f with modified := entryTime renames now (.active id) id f } := by
  simp only [pinnedAwareExitMove, Bool.false_eq_true, if_false, moveActiveTo,
    if_pos (PMap.mem_of_get h)]
  exact get_move_trash h (by simp)

/-- The loop of the migration moves the unpinned session it comes to. -/
theorem get_migrateEntries_trash (hf : m.get (.session id) = some f)
    (hp : codec.probe f.contents = some false) (hno : .trash id ∉ m) {listed : List Uuid}
    (hin : id ∈ listed) :
    (listed.foldl (migrateEntry codec renames now) m).get (.trash id) =
      some { f with modified := entryTime renames now (.session id) id f } := by
  induction listed generalizing m with
  | nil => exact absurd hin List.not_mem_nil
  | cons u listed ih =>
    rw [List.foldl_cons]
    by_cases hu : u = id
    · subst hu
      have hfirst : migrateEntry codec renames now m u =
          move renames now (.session u) (.trash u) m := by
        simp [migrateEntry, hf, hp, hno]
      rw [hfirst]
      exact (@along_of_step _ _ (migrateEntry codec renames now) (fun m => m.get (.trash u) = some _)
        _ listed (get_move_trash hf (by simp)) fun m i h => get_migrateEntry_trash h i).last
    · have hother {r : FilePath} (hr : r = .session id ∨ r = .trash id) :
          (migrateEntry codec renames now m u).get r = m.get r := by
        have hs : r ≠ .session u := by rcases hr with rfl | rfl <;> simp [Ne.symm hu]
        have ht : r ≠ .trash u := by rcases hr with rfl | rfl <;> simp [Ne.symm hu]
        unfold migrateEntry
        split
        · split_ifs
          · exact PMap.get_erase_of_ne hs
          · exact get_move_of_ne hs ht
        · rfl
      refine ih ((hother (Or.inl rfl)).trans hf) ?_ ((List.mem_cons.mp hin).resolve_left (Ne.symm hu))
      rwa [PMap.mem_def, hother (Or.inr rfl), ← PMap.mem_def]

/-- A close puts what was saved last into the trash. -/
theorem closeWindow_trash {state : WorkspaceState} {saves : Bool} (hunpinned : state.pinned = false)
    (hfile : saves = true ∧ state.IsText ∨ .active id ∈ m) :
    ∃ f, (closeWindow codec renames t id state saves m).get (.trash id) = some f ∧
      (f.modified = t ↔ WrittenNow renames id t m (.closeWindow id state saves)) := by
  by_cases hsaves : saves = true ∧ state.IsText
  · obtain ⟨rfl, htext⟩ := hsaves
    have hsaved : (saveToPath codec t (.active id) state m).get (.active id) =
        some ⟨codec.encode state, t⟩ := by
      rw [saveToPath_eq _ htext, PMap.get_insert_self]
    refine ⟨_, by simpa only [closeWindow, hunpinned, if_true] using get_exitMove_trash hsaved, ?_⟩
    simp [WrittenNow, entryTime, htext]
  · obtain ⟨f, hf⟩ := PMap.exists_get (hfile.resolve_left hsaves)
    have hkept : (if saves then saveToPath codec t (sessionPathActiveFor id) state m else m) = m := by
      split_ifs with hs
      · exact saveToPath_of_not_isText _ fun htext => hsaves ⟨hs, htext⟩
      · rfl
    refine ⟨_, by simpa only [closeWindow, hunpinned, hkept] using get_exitMove_trash hf, ?_⟩
    simp only [WrittenNow, entryTime, hf, hsaves, false_or]
    cases renames (.active id) (.trash id) <;> simp

/-- The migration puts the file of `sessions/` into the trash. -/
theorem runMigrationP018_trash {listed : List Uuid} (hmarker : .migrationMarker ∉ m)
    (hin : id ∈ listed) (hno : .trash id ∉ m) (hf : m.get (.session id) = some f)
    (hp : codec.probe f.contents = some false) :
    ∃ f, (runMigrationP018 codec renames t marker listed m).get (.trash id) = some f ∧
      (f.modified = t ↔ WrittenNow renames id t m (.migrate listed)) := by
  refine ⟨{ f with modified := entryTime renames t (.session id) id f }, ?_, ?_⟩
  · simp only [runMigrationP018, if_neg hmarker, write]
    rw [PMap.get_insert_of_ne (by simp)]
    exact get_migrateEntries_trash hf hp hno hin
  · simp only [WrittenNow, entryTime, hf]
    cases renames (.session id) (.trash id) <;> simp

/-- A session whose file enters the trash at `t`, by a clean close or by the migration,
is kept for the retention and removed after it exactly if the file was written at `t`. -/
theorem retained_iff_writtenNow {e : TrashEvent} (he : Enters codec id m e) (hd : days ≠ 0) :
    Retained codec renames marker id t days (step codec renames marker m (t, e)) ↔
      WrittenNow renames id t m e := by
  cases e with
  | closeWindow u state saves =>
    obtain ⟨rfl, hunpinned, hfile⟩ := he
    obtain ⟨f, hf, htime⟩ := @closeWindow_trash _ codec renames u t m state saves hunpinned hfile
    exact (retained_iff hf hd).trans htime
  | migrate listed =>
    obtain ⟨hmarker, hin, hno, f, hf, hp⟩ := he
    obtain ⟨f', hf', htime⟩ :=
      @runMigrationP018_trash _ codec renames marker id t m f listed hmarker hin hno hf hp
    exact (retained_iff hf' hd).trans htime
  | _ => exact he.elim

end Entering

/-! ### Without the times -/

section Contents

open FileStore

variable {α : Type} {os : Os Uuid} {codec : SessionCodec α} {renames : FilePath → FilePath → Bool}
  {now : ℤ} {m : StampedDisk α} {d : Disk α}
variable (hos : os.Works) (hd : d.files = m.contents)
include hos hd

theorem contents_saveToPath (p : FilePath) (state : WorkspaceState) :
    (saveToPath codec now p state m).contents = (Forgetty.saveToPath os codec p state d).1.files := by
  by_cases htext : state.IsText
  · rw [(saveToPath_works hos p htext).2, hd, saveToPath_eq p htext]
    simp only [contents_insert, contents_erase]
  · rw [(saveToPath_refused hos p htext).2, hd, saveToPath_of_not_isText p htext]

/-- A file is moved as the calls of the program move it, by renaming or by copying. -/
theorem contents_move {p q : FilePath} (h : p ∈ m) (hne : p ≠ q) :
    (move renames now p q m).contents = (renameWithFallback os p q d).1.files := by
  obtain ⟨f, hf⟩ := PMap.exists_get h
  have hget : d.files.get p = some f.contents := by simp [hd, hf]
  rw [(renameWithFallback_works hos q hget).2, hd, move_eq hf hne, contents_insert, contents_erase]

theorem contents_moveActiveTo {dest : FilePath} (u : Uuid) (hne : .active u ≠ dest) :
    (moveActiveTo renames now dest u m).contents = (Forgetty.moveActiveTo os dest u d).1.files := by
  have hmem : .active u ∈ d.files ↔ .active u ∈ m := by simp [hd]
  simp only [moveActiveTo, Forgetty.moveActiveTo, hmem]
  split_ifs with h
  · exact contents_move hos hd h hne
  · exact hd.symm

theorem contents_migrateEntry (u : Uuid) :
    (migrateEntry codec renames now m u).contents =
      (Forgetty.migrateEntry os codec u d).files := by
  have hskip (h : ∀ c, ¬Unpinned codec d u c) :
      (Forgetty.migrateEntry os codec u d).files = m.contents := by
    rw [migrateEntry_skip fun _ => h, count_files, hd]
  unfold migrateEntry
  cases hf : m.get (.session u) with
  | none => exact (hskip fun c hc => by simpa [hd, hf] using hc.1).symm
  | some f =>
    by_cases hp : codec.probe f.contents = some false
    · have hunpinned : Unpinned codec d u f.contents := ⟨by simp [hd, hf], hp⟩
      have hsession : .session u ∈ d.count.files := PMap.mem_of_get hunpinned.1
      rw [migrateEntry_unpinned (hos _) hunpinned, moveEntry]
      simp only [Option.bind_some, hp, count_files, hd, mem_contents]
      split_ifs with htrash
      · rw [remove_works hos hsession, contents_erase, ← hd]
        rfl
      · rw [rename_works hos _ (show d.count.files.get (.session u) = _ from hunpinned.1),
          move_eq hf (by simp), contents_insert, contents_erase, ← hd]
        rfl
    · have hsame := hskip fun c hc => hp (by
        obtain rfl : f.contents = c := by simpa [hd, hf] using hc.1
        exact hc.2)
      rw [hsame]
      simp only [Option.bind_some]

end Contents

/-! A session that was saved at time 0 and never pinned is migrated eight days later. -/

def eightDaysLater : ℤ := retention 8

def unpinnedSince : StampedDisk WorkspaceState :=
  PMap.empty.insert (.session ⟨7⟩) { contents := [.new, .new], modified := 0 }

/-- The next launch, at the same moment, removes it. -/
theorem not_retained_migrated :
    Enters .doubled ⟨7⟩ unpinnedSince (.migrate [⟨7⟩]) ∧
      ¬Retained .doubled (fun _ _ => true) [] ⟨7⟩ eightDaysLater 7
        (step .doubled (fun _ _ => true) [] unpinnedSince (eightDaysLater, .migrate [⟨7⟩])) := by
  refine ⟨⟨by decide, by decide, by decide, _, rfl, rfl⟩, fun h => ?_⟩
  exact absurd ((retained_iff rfl (by decide)).mp h) (by decide)

/-- A session that is closed is kept for its seven days. -/
theorem retained_closed :
    Retained .doubled (fun _ _ => true) [] ⟨7⟩ eightDaysLater 7
      (step .doubled (fun _ _ => true) [] unpinnedSince
        (eightDaysLater, .closeWindow ⟨7⟩ .new true)) := by
  have henters : Enters .doubled ⟨7⟩ unpinnedSince (.closeWindow ⟨7⟩ .new true) :=
    ⟨rfl, rfl, Or.inl ⟨rfl, by decide⟩⟩
  exact (retained_iff_writtenNow henters (by decide)).mpr (Or.inl ⟨rfl, by decide⟩)

end StampedDisk

end Forgetty
