import Forgetty.Session.Ended
import Forgetty.Lib.Sections

/-! The critical sections of the session manager. Most calls take the lock once. One that
makes a pane releases it before the byte log of the pane is made and its output is taken,
and duplicating a workspace spawns without the lock: what it read before may be stale when it
inserts the copy. -/

namespace Forgetty

open Lib

namespace SessionManager

/-! ### What a call does under the lock

The parts of the operations above that run before the lock is released. A bare pane is
spawned before the lock is taken, when nothing of the state is read. -/

def createPaneLocked (w : World) (size : PtySize) (cwd : Option PathBuf)
    (command : Option (List String)) (shell : Option String) (loginShell : Bool)
    (sm : SessionManager) : SessionManager × Except ForgettyError PaneId :=
  let id : PaneId := ⟨w.newV4 sm.minted⟩
  let sm := sm.mint
  match PtyBridge.spawn w sm.spawned size cwd command shell loginShell with
  | .error e => (sm.countSpawn, .error (.pty e))
  | .ok ptyBridge =>
    let initialCwd := cwd.getD w.homeDirFallback
    let sm := sm.countSpawn.registerPane (.spawned id ptyBridge initialCwd size)
    let tab := SessionTab.ofLeaf (w.newV4 sm.minted) id
    ((sm.mint.pushTab 0 tab).send (.paneCreated id), .ok id)

def createTabLocked (w : World) (workspaceIdx : ℕ) (cwd : Option PathBuf) (size : PtySize)
    (command : Option (List String)) (paneId : PaneId) (sm : SessionManager) :
    SessionManager × Except ForgettyError (PaneId × Uuid) :=
  if sm.layout.workspaces.length ≤ workspaceIdx then
    (sm, .error (outOfBounds workspaceIdx sm ""))
  else
    match PtyBridge.spawn w sm.spawned size cwd command none true with
    | .error e => (sm.countSpawn, .error (.pty e))
    | .ok ptyBridge =>
      let initialCwd := cwd.getD w.homeDirFallback
      let sm := sm.countSpawn.registerPane (.spawned paneId ptyBridge initialCwd size)
      let tabId := w.newV4 sm.minted
      let sm := sm.mint.pushTab workspaceIdx (.ofLeaf tabId paneId)
      ((sm.send (.paneCreated paneId)).send (.tabCreated workspaceIdx tabId paneId),
        .ok (paneId, tabId))

def splitLocked (w : World) (caller : String) (paneId : PaneId) (direction : String)
    (ratio : F32) (size : PtySize) (cwd : Option PathBuf) (newPaneId : PaneId)
    (sm : SessionManager) : SessionManager × Except ForgettyError PaneId :=
  match PtyBridge.spawn w sm.spawned size cwd none none true with
  | .error e => (sm.countSpawn, .error (.pty e))
  | .ok ptyBridge =>
    let initialCwd := cwd.getD w.homeDirFallback
    let sm := sm.countSpawn.registerPane (.spawned newPaneId ptyBridge initialCwd size)
    match replaceLeafInLayout paneId newPaneId direction ratio sm.layout.workspaces with
    | (_, none) =>
      ({ sm with
          panes := sm.panes.erase newPaneId
          paneOrder := sm.paneOrder.filter (· ≠ newPaneId) },
        .error (.pty s!"{caller}: pane {paneId} not found in any tab tree"))
    | (workspaces, some tabId) =>
      let sm := (sm.setWorkspaces workspaces).send (.paneCreated newPaneId)
      (sm.send (.paneSplit tabId paneId newPaneId direction), .ok newPaneId)

/-- The workspace is seeded under the lock; the drain task of the seed comes later. -/
def healLocked (w : World) (emptied : Option ℕ) (sm : SessionManager) :
    SessionManager × Option PaneId :=
  match emptied with
  | none => (sm, none)
  | some wsIdx =>
    if 1 < sm.layout.workspaces.length then
      match sm.autoSeedDefaultTab w wsIdx .default with
      | (sm, .ok (paneId, _)) => (sm, some paneId)
      | (sm, .error _) => (sm, none)
    else (sm, none)

def closeTabLocked (w : World) (tabId : Uuid) (sm : SessionManager) :
    SessionManager × Option PaneId :=
  match sm.findTab tabId with
  | none => (sm, none)
  | some (wsIdx, tabIdx) =>
    let tab := (sm.layout.workspaces[wsIdx]?).bind (·.tabs[tabIdx]?)
    let paneIds := (tab.map fun t => collectPaneIds t.paneTree []).getD []
    let sm := sm.modifyWorkspace wsIdx fun ws =>
      clampActiveTab { ws with tabs := ws.tabs.eraseIdx tabIdx }
    let sm := (paneIds.foldl closeTabPane sm).send (.tabClosed wsIdx tabId)
    let empty := (sm.layout.workspaces[wsIdx]?).any (·.tabs.isEmpty)
    sm.healLocked w (if empty then some wsIdx else none)

def closePaneLocked (w : World) (id : PaneId) (sm : SessionManager) :
    SessionManager × Option PaneId :=
  if id ∈ sm.panes then
    let sm := sm.unregister id
    let dropped := dropLeafTabs id sm.layout.workspaces
    let sm := (sm.setWorkspaces dropped.1).send (.paneClosed id)
    sm.healLocked w (dropped.2.getD none)
  else (sm, none)

/-- A call up to where it releases the lock, and the panes whose drain tasks it goes on to
spawn. The other calls are done then. -/
def locked (w : World) (sm : SessionManager) : Op → SessionManager × List PaneId
  | .createPane size cwd command shell loginShell =>
    (sm.createPaneLocked w size cwd command shell loginShell).map id (·.toOption.toList)
  | .createTab idx cwd size command =>
    (sm.mint.createTabLocked w idx cwd size command ⟨w.newV4 sm.minted⟩).map id
      fun r => (r.toOption.map (·.1)).toList
  | .splitPane p direction size cwd =>
    if p ∈ sm.panes then
      (sm.mint.splitLocked w "split_pane" p direction (1 / 2) size cwd ⟨w.newV4 sm.minted⟩).map id
        (·.toOption.toList)
    else (sm, [])
  | .splitPaneWithRatio p direction ratio size cwd =>
    if p ∈ sm.panes then
      (sm.mint.splitLocked w "split_pane_with_ratio" p direction ratio size cwd
        ⟨w.newV4 sm.minted⟩).map id (·.toOption.toList)
    else (sm.mint, [])
  | .closePane p => (sm.closePaneLocked w p).map id Option.toList
  | .closeTab tabId => (sm.closeTabLocked w tabId).map id Option.toList
  | op => (sm.apply w op, [])

end SessionManager

/-! ### Sections -/

/-- The manager, and the panes the process warned about because their logs could not be
opened. -/
structure Process where
  sm : SessionManager
  warned : List PaneId

/-- What a call has still to do after it released the lock. -/
inductive Todo where
  /-- To spawn a child for every tab of the source. -/
  | spawn (dupName : String) (insertAt : ℕ) (size : PtySize) (cwds : List (Option PathBuf))
  /-- To insert the copy. -/
  | commit (dupName : String) (insertAt : ℕ) (size : PtySize)
    (spawned : List (PaneId × PtyBridge × PathBuf))
  /-- To make the log of the pane, then to drain it, then to drain the others. -/
  | createLog (p : PaneId) (ps : List PaneId)
  /-- To take the output of the pane, then to drain the others. -/
  | takeOutput (p : PaneId) (ps : List PaneId)

/-- To spawn the drain tasks of panes, one after the other. -/
def Todo.drain : List PaneId → Option Todo
  | [] => none
  | p :: ps => some (.createLog p ps)

/-- The next section. Spawning takes no lock and is one of them. -/
def Todo.section (w : World) : Todo → Process → Process × Option Todo
  | .spawn dupName insertAt size cwds, s =>
    match SessionManager.duplicateSpawn w size cwds.length cwds [] s.sm with
    | (sm, .error _) => ({ s with sm := sm }, none)
    | (sm, .ok spawned) => ({ s with sm := sm }, some (.commit dupName insertAt size spawned))
  | .commit dupName insertAt size spawned, s =>
    let done := s.sm.duplicateCommit w size dupName insertAt spawned
    ({ s with sm := done.1 }, Todo.drain (done.2.2.2.map (·.paneId)))
  | .createLog p ps, s =>
    ({ sm := s.sm.createByteLogFor w p
       warned := match w.openLog s.sm.opened with
        | .error _ => s.warned ++ [p]
        | .ok _ => s.warned },
      some (.takeOutput p ps))
  | .takeOutput p ps, s => ({ s with sm := (s.sm.takePaneOutputRx p).1 }, Todo.drain ps)

/-- The first section of a call. Duplicating reads what it copies. -/
def Process.start (w : World) (op : Op) (s : Process) : Process × Option Todo :=
  match op with
  | .duplicateWorkspace sourceIdx newName size =>
    match s.sm.duplicateSnapshot sourceIdx newName with
    | .error _ => (s, none)
    | .ok (dupName, insertAt, cwds) => (s, some (.spawn dupName insertAt size cwds))
  | op => ({ s with sm := (s.sm.locked w op).1 }, Todo.drain (s.sm.locked w op).2)

/-- The calls of all clients and drain tasks, section by section. -/
def lockSections (w : World) : Sections Process Op Todo where
  start := Process.start w
  resume := Todo.section w

namespace SessionManager

section Whole

variable {w : World} {s : SessionManager}

/-- The drain tasks of some panes. -/
def spawnDrainTasks (w : World) (ps : List PaneId) (sm : SessionManager) : SessionManager :=
  ps.foldl (fun sm p => sm.spawnDrainTask w p) sm

/-- What a drain task leaves as it is, some of them do. -/
theorem spawnDrainTasks_same {α : Type*} {f : SessionManager → α}
    (h : ∀ sm p, f (sm.spawnDrainTask w p) = f sm) (ps : List PaneId) (sm : SessionManager) :
    f (spawnDrainTasks w ps sm) = f sm := by
  induction ps generalizing sm with
  | nil => rfl
  | cons p ps ih => exact (ih _).trans (h sm p)

theorem spawnDrainTasks_layout (ps : List PaneId) (sm : SessionManager) :
    (spawnDrainTasks w ps sm).layout = sm.layout :=
  spawnDrainTasks_same (fun sm p => spawnDrainTask_layout w p sm) ps sm

theorem spawnDrainTasks_minted (ps : List PaneId) (sm : SessionManager) :
    (spawnDrainTasks w ps sm).minted = sm.minted :=
  spawnDrainTasks_same (fun sm p => spawnDrainTask_minted w p sm) ps sm

theorem spawnDrainTasks_paneOrder (ps : List PaneId) (sm : SessionManager) :
    (spawnDrainTasks w ps sm).paneOrder = sm.paneOrder :=
  spawnDrainTasks_same (fun sm p => spawnDrainTask_paneOrder w p sm) ps sm

theorem spawnDrainTasks_mem_panes (ps : List PaneId) (q : PaneId) (sm : SessionManager) :
    q ∈ (spawnDrainTasks w ps sm).panes ↔ q ∈ sm.panes :=
  iff_of_eq (spawnDrainTasks_same (f := fun sm => q ∈ sm.panes)
    (fun sm p => propext (spawnDrainTask_mem_panes w p q sm)) ps sm)

theorem createPane_eq (size : PtySize) (cwd : Option PathBuf) (command : Option (List String))
    (shell : Option String) (loginShell : Bool) :
    (s.createPane w size cwd command shell loginShell).1 =
      spawnDrainTasks w (s.createPaneLocked w size cwd command shell loginShell).2.toOption.toList
        (s.createPaneLocked w size cwd command shell loginShell).1 := by
  unfold createPane createPaneLocked
  dsimp only
  generalize PtyBridge.spawn w _ size cwd command shell loginShell = r
  cases r <;> rfl

theorem createTabWithPaneId_eq (i : ℕ) (cwd : Option PathBuf) (size : PtySize)
    (command : Option (List String)) (p : PaneId) :
    (s.createTabWithPaneId w i cwd size command p).1 =
      spawnDrainTasks w ((s.createTabLocked w i cwd size command p).2.toOption.map (·.1)).toList
        (s.createTabLocked w i cwd size command p).1 := by
  unfold createTabWithPaneId createTabLocked
  split_ifs
  · rfl
  · generalize PtyBridge.spawn w _ size cwd command none true = r
    cases r <;> rfl

theorem splitAt_eq (caller : String) (p : PaneId) (direction : String) (ratio : F32)
    (size : PtySize) (cwd : Option PathBuf) (q : PaneId) :
    (s.splitAt w caller p direction ratio size cwd q).1 =
      spawnDrainTasks w (s.splitLocked w caller p direction ratio size cwd q).2.toOption.toList
        (s.splitLocked w caller p direction ratio size cwd q).1 := by
  unfold splitAt splitLocked
  generalize PtyBridge.spawn w _ size cwd none none true = r
  cases r with
  | error e => rfl
  | ok bridge =>
    dsimp only
    generalize replaceLeafInLayout p q direction ratio _ = replaced
    obtain ⟨wss, tabId⟩ := replaced
    cases tabId <;> rfl

theorem healEmptied_eq (emptied : Option ℕ) :
    s.healEmptied w emptied =
      spawnDrainTasks w (s.healLocked w emptied).2.toList (s.healLocked w emptied).1 := by
  unfold healEmptied healLocked
  cases emptied with
  | none => rfl
  | some i =>
    dsimp only
    split_ifs
    · generalize autoSeedDefaultTab w i .default s = seeded
      obtain ⟨t, r⟩ := seeded
      cases r <;> rfl
    · rfl

/-- A call is its section under the lock and the drain tasks it spawns then. -/
theorem apply_eq_locked {op : Op} (h : ∀ i name size, op ≠ .duplicateWorkspace i name size) :
    s.apply w op = spawnDrainTasks w (s.locked w op).2 (s.locked w op).1 := by
  cases op with
  | createPane size cwd command shell loginShell => exact createPane_eq size cwd command shell loginShell
  | createTab i cwd size command => exact createTabWithPaneId_eq i cwd size command _
  | splitPane p direction size cwd =>
    simp only [apply, Op.exec, splitPane, locked]
    split_ifs
    · exact splitAt_eq "split_pane" p direction _ size cwd _
    · rfl
  | splitPaneWithRatio p direction ratio size cwd =>
    by_cases hp : p ∈ s.panes
    · have hmint : p ∈ s.mint.panes := hp
      simp only [apply, Op.exec, splitPaneWithRatio, splitPaneWithRatioAndPaneId, locked,
        if_pos hmint, if_pos hp]
      exact splitAt_eq "split_pane_with_ratio" p direction ratio size cwd _
    · have hmint : p ∉ s.mint.panes := hp
      simp only [apply, Op.exec, splitPaneWithRatio, splitPaneWithRatioAndPaneId, locked,
        if_neg hmint, if_neg hp]
      rfl
  | closePane p =>
    simp only [apply, Op.exec, closePane, locked, closePaneLocked]
    split_ifs
    · exact healEmptied_eq _
    · rfl
  | closeTab tabId =>
    simp only [apply, Op.exec, closeTab, locked, closeTabLocked]
    generalize s.findTab tabId = found
    cases found with
    | none => rfl
    | some place => exact healEmptied_eq _
  | duplicateWorkspace i name size => exact absurd rfl (h i name size)
  | _ => rfl

/-- Draining that is not interrupted. -/
theorem completes_drain (ps : List PaneId) (p : Process) :
    ∃ warned, (lockSections w).Completes (Todo.drain ps) p ⟨spawnDrainTasks w ps p.sm, warned⟩ := by
  induction ps generalizing p with
  | nil => exact ⟨p.warned, .done p⟩
  | cons q ps ih =>
    obtain ⟨warned, h⟩ := ih _
    exact ⟨warned, .step (.step h)⟩

theorem completes_duplicate (i : ℕ) (name : Option String) (size : PtySize) (p : Process) :
    ∃ warned, (lockSections w).Completes (p.start w (.duplicateWorkspace i name size)).2
      (p.start w (.duplicateWorkspace i name size)).1
      ⟨(p.sm.duplicateWorkspace w i name size).1, warned⟩ := by
  rw [Process.start, duplicateWorkspace]
  cases p.sm.duplicateSnapshot i name with
  | error e => exact ⟨p.warned, .done p⟩
  | ok snapshot =>
    obtain ⟨dupName, insertAt, cwds⟩ := snapshot
    dsimp only
    cases hspawn : duplicateSpawn w size cwds.length cwds [] p.sm with
    | mk t r =>
      have hsection : (lockSections w).resume (.spawn dupName insertAt size cwds) p =
          match (t, r) with
          | (sm, .error _) => ({ p with sm := sm }, none)
          | (sm, .ok spawned) => ({ p with sm := sm }, some (.commit dupName insertAt size spawned)) := by
        simp only [lockSections, Todo.section, hspawn]
      cases r with
      | error e =>
        refine ⟨p.warned, .step ?_⟩
        rw [hsection]
        exact .done _
      | ok spawned =>
        obtain ⟨warned, h⟩ := completes_drain (w := w)
          ((t.duplicateCommit w size dupName insertAt spawned).2.2.2.map (·.paneId))
          ⟨(t.duplicateCommit w size dupName insertAt spawned).1, p.warned⟩
        rw [spawnDrainTasks, List.foldl_map] at h
        refine ⟨warned, .step ?_⟩
        rw [hsection]
        exact .step h

theorem start_of_ne {op : Op} (h : ∀ i name size, op ≠ .duplicateWorkspace i name size)
    (p : Process) :
    p.start w op = ({ p with sm := (p.sm.locked w op).1 }, Todo.drain (p.sm.locked w op).2) := by
  unfold Process.start
  split
  · exact absurd rfl (h _ _ _)
  · rfl

/-- A call duplicates a workspace or it does not. -/
theorem duplicates_or (op : Op) :
    (∃ i name size, op = .duplicateWorkspace i name size) ∨
      ∀ i name size, op ≠ .duplicateWorkspace i name size := by
  by_cases h : ∃ i name size, op = .duplicateWorkspace i name size
  · exact Or.inl h
  · exact Or.inr fun i name size heq => h ⟨i, name, size, heq⟩

/-- The first section of duplicating changes nothing; that of another call does what the call
does under the lock. -/
theorem start_cases (op : Op) (p : Process) :
    ((∃ i name size, op = .duplicateWorkspace i name size) ∧
      (p.start w op = (p, none) ∨ ∃ dupName insertAt size cwds,
        p.start w op = (p, some (.spawn dupName insertAt size cwds)))) ∨
    ((∀ i name size, op ≠ .duplicateWorkspace i name size) ∧
      p.start w op =
        ({ p with sm := (p.sm.locked w op).1 }, Todo.drain (p.sm.locked w op).2)) := by
  rcases duplicates_or op with ⟨i, name, size, rfl⟩ | h
  · refine Or.inl ⟨⟨i, name, size, rfl⟩, ?_⟩
    simp only [Process.start]
    split
    · exact Or.inl rfl
    · exact Or.inr ⟨_, _, _, _, rfl⟩
  · exact Or.inr ⟨h, start_of_ne h p⟩

/-- A call that is not interrupted does what it does as a whole. -/
theorem completes_start (op : Op) (p : Process) :
    ∃ warned, (lockSections w).Completes (p.start w op).2 (p.start w op).1
      ⟨p.sm.apply w op, warned⟩ := by
  rcases duplicates_or op with ⟨i, name, size, rfl⟩ | h
  · exact completes_duplicate i name size p
  · rw [start_of_ne h, apply_eq_locked h]
    exact completes_drain _ _

/-- The turns of a call that is left alone. -/
theorem turns_apply (op : Op) (p : Process) :
    ∃ n warned, run (lockSections w).turn ⟨p, []⟩ (.start op :: List.replicate n (.resume 0)) =
      ⟨⟨p.sm.apply w op, warned⟩, []⟩ := by
  obtain ⟨warned, h⟩ := completes_start (w := w) op p
  obtain ⟨n, hn⟩ := h.turns
  exact ⟨n, warned, hn⟩

end Whole

end SessionManager

end Forgetty
