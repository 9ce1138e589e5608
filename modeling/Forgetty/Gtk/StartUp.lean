import Forgetty.Workspace.Persistence

/-! What a window does with the session files before it connects to its daemon:
the migration and the recovery of orphans. Then `--restore-session`, which takes a
closed session out of the trash, starts the window, and has the daemon load the
session. The recovery deletes the file that was just restored, and the daemon
looks for it in another bucket. -/

namespace Forgetty

open Lib FileStore

section

variable {α : Type} (os : Os Uuid) (codec : SessionCodec α)

/-- What becomes of one orphan. Errors are only logged. -/
def recoverOrphan (d : Disk α) (orphan : Uuid × Bool) : Disk α :=
  if orphan.2 then (moveActiveToSessions os orphan.1 d).1 else (deleteActiveFor os orphan.1 d).1

/-- The start of a window up to the point where it looks for its daemon. -/
def startUp (marker : List α) (d : Disk α) : Disk α :=
  let d := (runMigrationP018 os codec marker d).1
  let orphans := recoverOrphansInActive os codec d
  orphans.2.foldl (recoverOrphan os) orphans.1

/-- `--restore-session`: a failed move is only logged, the window starts, and the
daemon it starts loads the session. -/
def restoreSession (marker : List α) (id : Uuid) (d : Disk α) :
    Disk α × Except IoError (Option WorkspaceState) :=
  let d := (restoreFromTrashToActive os id d).1
  loadSessionFor os codec id (startUp os codec marker d)

/-- The session a file belongs to. -/
def FilePath.sessionId : FilePath → Option Uuid
  | .session id => some id
  | .active id => some id
  | .trash id => some id
  | .jsonTmp path => path.sessionId
  | .migrationMarker => none

/-- Undoing a close brings the session back: the daemon loads the state `s` and no
file of the session is deleted on the way. -/
structure RestoresClosed (marker : List α) (id : Uuid) (s : WorkspaceState) (d : Disk α) :
    Prop where
  loads : (restoreSession os codec marker id d).2 = .ok (some s)
  kept : ∀ p : FilePath, p.sessionId = some id →
    ¬Unlinks p d (restoreSession os codec marker id d).1

end

section Recovery

variable {α : Type} {os : Os Uuid} {codec : SessionCodec α} {marker : List α} {d : Disk α}
  {id : Uuid} {s : WorkspaceState}

theorem recoverOrphan_within {P : FilePath → Prop} (orphan : Uuid × Bool)
    (ha : P (.active orphan.1)) (hs : P (.session orphan.1)) (d : Disk α) :
    Within P d (recoverOrphan os d orphan) := by
  unfold recoverOrphan
  split_ifs
  · exact moveActiveTo_within ha hs
  · exact deleteActiveFor_within ha

/-- The recovery deletes every file it has on its list as unpinned. -/
theorem recovery_unlinks (hos : os.Works) {orphans : List (Uuid × Bool)}
    (hmem : (id, false) ∈ orphans) (hflag : ∀ b, (id, b) ∈ orphans → b = false)
    (ha : .active id ∈ d.files) :
    Unlinks (.active id) d (orphans.foldl (recoverOrphan os) d) := by
  induction orphans generalizing d with
  | nil => exact absurd hmem List.not_mem_nil
  | cons o orphans ih =>
    have hrest : Within (fun _ => True) (recoverOrphan os d o)
        (orphans.foldl (recoverOrphan os) (recoverOrphan os d o)) :=
      Within.foldl (fun d o _ => recoverOrphan_within o trivial trivial d) _
    by_cases ho : o.1 = id
    · have hb : o.2 = false := hflag o.2 (by rw [← ho]; exact List.mem_cons_self)
      have hfirst : Unlinks (.active id) d (recoverOrphan os d o) := by
        unfold recoverOrphan
        rw [hb, ho]
        exact deleteActiveFor_works hos ha
      exact hfirst.trans_within hrest
    · -- another session's file: this one stays
      have hother : Within (fun p => p = .active o.1 ∨ p = .session o.1) d (recoverOrphan os d o) :=
        recoverOrphan_within o (Or.inl rfl) (Or.inr rfl) d
      have ha' : .active id ∈ (recoverOrphan os d o).files :=
        (hother.mem_iff (by simp [Ne.symm ho])).mpr ha
      refine hother.trans_unlinks (ih ?_ (fun b hb => hflag b (List.mem_cons_of_mem _ hb)) ha')
      rcases List.mem_cons.mp hmem with h | h
      · exact absurd (congrArg Prod.fst h).symm ho
      · exact h

/-- After the migration and the listing a session in `active/` is as it was, and listed. -/
theorem startUp_listed (codec : SessionCodec α) (marker : List α) (hos : os.Works)
    (hlist : ∀ n, id ∈ os.names n) {c : List α} (ha : d.files.get (.active id) = some c) :
    let listed := listActive os (runMigrationP018 os codec marker d).1
    Within (fun p => ∀ u, p ≠ .active u) d listed.1 ∧ listed.1.files.get (.active id) = some c ∧
      id ∈ listed.2 := by
  intro listed
  have hmig : Within (fun p => ∀ u, p ≠ .active u) d (runMigrationP018 os codec marker d).1 :=
    runMigrationP018_within (by simp) (by simp) (by simp) d
  have hwithin : Within (fun p => ∀ u, p ≠ .active u) d listed.1 :=
    hmig.trans (listActive_within _ _)
  have hmem : .active id ∈ (runMigrationP018 os codec marker d).1.files :=
    (hmig.mem_iff (by simp)).mpr (PMap.mem_of_get ha)
  exact ⟨hwithin, (hwithin.same (.active id) (by simp)).trans ha, listActive_works hos hlist hmem⟩

/-- The start of a window deletes an unpinned session it finds in `active/`. -/
theorem startUp_unlinks (hos : os.Works) (hlist : ∀ n, id ∈ os.names n)
    (htext : s.IsText) (hn : s.nesting ≤ recursionLimit) (hs : s.pinned = false)
    (ha : d.files.get (.active id) = some (codec.encode s)) :
    Unlinks (.active id) d (startUp os codec marker d) := by
  obtain ⟨hlisted, ha₂, hmem⟩ := startUp_listed codec marker hos hlist ha
  have hprobe : codec.probe (codec.encode s) = some false := by 
    rw [codec.probe_encode s htext hn, hs]
  have hmem := probeOrphans_works hos hmem ha₂ hprobe
  have hprobed := @probeOrphans_within _ os codec (fun _ => False)
    (listActive os (runMigrationP018 os codec marker d).1).2
    (listActive os (runMigrationP018 os codec marker d).1).1
  have ha₃ := (hprobed.same (.active id) not_false).trans ha₂
  refine hlisted.trans_unlinks (hprobed.trans_unlinks ?_)
  refine recovery_unlinks hos hmem (fun b hb => ?_) (PMap.mem_of_get ha₃)
  obtain ⟨-, c, hc, hp⟩ := mem_probeOrphans hb
  rw [ha₂, Option.some.injEq] at hc
  rw [← hc, hprobe, Option.some.injEq] at hp
  exact hp.symm

theorem recoverOrphan_removes (hos : os.Works) (d : Disk α) (orphan : Uuid × Bool) :
    .active orphan.1 ∉ (recoverOrphan os d orphan).files := by
  unfold recoverOrphan
  split_ifs
  · exact moveActiveToSessions_removes hos d orphan.1
  · exact deleteActiveFor_removes hos d orphan.1

/-- A recovery takes every file on its list out of `active/`. -/
theorem recovery_removes (hos : os.Works) {orphans : List (Uuid × Bool)} {b : Bool}
    (h : (id, b) ∈ orphans ∨ .active id ∉ d.files) :
    .active id ∉ (orphans.foldl (recoverOrphan os) d).files := by
  induction orphans generalizing d with
  | nil => exact h.resolve_left List.not_mem_nil
  | cons o orphans ih =>
    refine ih ?_
    by_cases ho : o.1 = id
    · exact Or.inr (ho ▸ recoverOrphan_removes hos d o)
    · have hother : Within (fun p => p = .active o.1 ∨ p = .session o.1) d (recoverOrphan os d o) :=
        recoverOrphan_within o (Or.inl rfl) (Or.inr rfl) d
      rcases h with h | h
      · rcases List.mem_cons.mp h with h | h
        · exact absurd (congrArg Prod.fst h).symm ho
        · exact Or.inl h
      · exact Or.inr fun ha => h ((hother.mem_iff (by simp [Ne.symm ho])).mp ha)

/-- The start of a window takes every readable file out of `active/`. -/
theorem startUp_removes (hos : os.Works) (hlist : ∀ n, id ∈ os.names n) {c : List α} {b : Bool}
    (ha : d.files.get (.active id) = some c) (hp : codec.probe c = some b) :
    .active id ∉ (startUp os codec marker d).files := by
  obtain ⟨-, ha₂, hmem⟩ := startUp_listed codec marker hos hlist ha
  exact recovery_removes hos (Or.inl (probeOrphans_works hos hmem ha₂ hp))

theorem loadSessionFor_within (P : FilePath → Prop) (d : Disk α) :
    Within P d (loadSessionFor os codec id d).1 := by
  unfold loadSessionFor loadFromPath
  split_ifs
  · exact (read_within P _ d).andThen fun _ d' => .refl P d'
  · exact .refl P d

/-- For no state that was saved unpinned and closed does undoing the close work:
the recovery deletes the file it restored. -/
theorem not_restoresClosed (hos : os.Works) (hlist : ∀ n, id ∈ os.names n)
    (hs : s.pinned = false) (ht : d.files.get (.trash id) = some (codec.encode s)) :
    ¬RestoresClosed os codec marker id s d := by
  intro h
  obtain ⟨c, hc⟩ := decode_of_load h.loads
  have htext := codec.isText_of_decode c s hc
  have hn := codec.nesting_of_decode c s hc
  have ha := restoreFromTrashToActive_works hos ht
  have hrestored : Within (fun _ => True) d (restoreFromTrashToActive os id d).1 :=
    restoreFromTrashToActive_within trivial trivial
  refine h.kept (.active id) rfl (hrestored.trans_unlinks (Unlinks.trans_within ?_
    (loadSessionFor_within (fun _ => True) _)))
  exact startUp_unlinks hos hlist htext hn hs ha

/-- The daemon looks in `sessions/` only: without a file there it starts afresh. -/
theorem restoreSession_none (hn : FilePath.session id ∉ (startUp os codec marker
    (restoreFromTrashToActive os id d).1).files) :
    (restoreSession os codec marker id d).2 = .ok none := by
  simp only [restoreSession, loadSessionFor, loadFromPath, if_neg hn]

end Recovery

/-! A session that was saved, closed, and is to be brought back. -/

/-- A system where every call works and directories hold session 7 at most. -/
def oneSession : Os Uuid where
  answer _ := .works
  names _ := [⟨7⟩]

/-- The disk after the daemon of session 7 saved a new, unpinned state and left. -/
def closedDisk : Disk WorkspaceState :=
  pinnedAwareExitMove oneSession ⟨7⟩ WorkspaceState.new.pinned
    (moveToActive oneSession .doubled ⟨7⟩ WorkspaceState.new ⟨.empty, 0, []⟩).1

theorem not_restoresClosed_closedDisk :
    ¬RestoresClosed oneSession .doubled [] ⟨7⟩ WorkspaceState.new closedDisk :=
  not_restoresClosed (fun _ => rfl) (fun _ => List.mem_singleton_self _) rfl
    (exitMove_trash (fun _ => rfl) (by decide) rfl)

/-- There the daemon finds nothing, so not every closed state is restored. -/
theorem not_forall_restoresClosed :
    ¬∀ (s : WorkspaceState) (d : Disk WorkspaceState), s.pinned = false →
      d.files.get (.trash ⟨7⟩) = some (SessionCodec.doubled.encode s) →
        RestoresClosed oneSession .doubled [] ⟨7⟩ s d := by
  intro h
  have hclosed := h WorkspaceState.new closedDisk rfl
    (exitMove_trash (fun _ => rfl) (by decide) rfl)
  have hload := hclosed.loads
  rw [restoreSession_none (by decide)] at hload
  exact nomatch Except.ok.inj hload

end Forgetty
