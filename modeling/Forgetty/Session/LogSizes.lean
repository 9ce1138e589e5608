import Forgetty.Session.Registry

/-! The size of the rings. It is set before the first pane is made and no call changes it, so
that the ring of every pane has the size that the configuration names. -/

namespace Forgetty

open Lib

namespace SessionManager

/-- New rings and those that exist have the same size. -/
def LogSizes (ringKb : UInt32) (s : SessionManager) : Prop :=
  s.byteLogRingKb = ringKb ∧
    ∀ p log, s.byteLogs.get p = some log → log.ring.capacity = ringKb.toNat * 1024

variable {w : World} {ringKb : UInt32} {s : SessionManager}

namespace LogSizes

theorem erase (h : LogSizes ringKb s) (p : PaneId) : LogSizes ringKb (s.unregister p) := by
  refine ⟨h.1, fun q log hlog => ?_⟩
  by_cases hq : q = p
  · subst hq
    simp [unregister] at hlog
  · exact h.2 q log ((PMap.get_erase_of_ne hq).symm.trans hlog)

theorem createByteLogFor (h : LogSizes ringKb s) (p : PaneId) :
    LogSizes ringKb (s.createByteLogFor w p) := by
  unfold SessionManager.createByteLogFor
  split
  · exact h
  · refine ⟨h.1, fun q log hlog => ?_⟩
    by_cases hq : q = p
    · subst hq
      obtain rfl := Option.some.inj ((PMap.get_insert_self _ _ _).symm.trans hlog)
      exact congrArg (·.toNat * 1024) h.1
    · exact h.2 q log ((PMap.get_insert_of_ne hq).symm.trans hlog)

theorem takePaneOutputRx (h : LogSizes ringKb s) (p : PaneId) :
    LogSizes ringKb (s.takePaneOutputRx p).1 := by
  unfold SessionManager.takePaneOutputRx
  split <;> exact h

theorem spawnDrainTasks (h : LogSizes ringKb s) (ps : List PaneId) :
    LogSizes ringKb (spawnDrainTasks w ps s) := by
  induction ps generalizing s with
  | nil => exact h
  | cons p ps ih => exact ih ((h.createByteLogFor p).takePaneOutputRx p)

theorem foldl {α : Type*} {f : SessionManager → α → SessionManager}
    (hf : ∀ s a, LogSizes ringKb s → LogSizes ringKb (f s a)) (as : List α)
    (h : LogSizes ringKb s) : LogSizes ringKb (as.foldl f s) := by
  induction as generalizing s with
  | nil => exact h
  | cons a as ih => exact ih (hf s a h)

theorem arranged {t : SessionManager} (h : LogSizes ringKb s) (ht : Arranged s t) :
    LogSizes ringKb t := by
  rw [LogSizes, ht.byteLogs, ht.byteLogRingKb]
  exact h

theorem processPaneBytes (h : LogSizes ringKb s) (procCwd : ℕ → Option PathBuf) (alive : Bool)
    (p : PaneId) (bytes : Bytes) :
    LogSizes ringKb (s.processPaneBytes procCwd alive p bytes).1 := by
  by_cases hp : p ∈ s.panes
  · obtain ⟨-, hlogs, -⟩ := processPaneBytes_of_live procCwd alive bytes hp
    refine ⟨?_, fun q log hlog => ?_⟩
    · obtain ⟨pane, hpane⟩ := PMap.exists_get hp
      simp only [SessionManager.processPaneBytes, hpane]
      split <;> exact h.1
    · rw [hlogs, Option.map_eq_some_iff] at hlog
      obtain ⟨log', hlog', rfl⟩ := hlog
      have hcap := h.2 q log' hlog'
      split_ifs
      · rwa [ByteLog.append_ring, Lib.Ring.extend_capacity]
      · exact hcap
  · rw [processPaneBytes_of_gone hp]
    exact h

/-! ### The critical sections -/

theorem createPaneLocked (h : LogSizes ringKb s) (size : PtySize) (cwd : Option PathBuf)
    (command : Option (List String)) (shell : Option String) (loginShell : Bool) :
    LogSizes ringKb (s.createPaneLocked w size cwd command shell loginShell).1 := by
  unfold SessionManager.createPaneLocked
  dsimp only
  split <;> exact h

theorem createTabLocked (h : LogSizes ringKb s) (i : ℕ) (cwd : Option PathBuf) (size : PtySize)
    (command : Option (List String)) (p : PaneId) :
    LogSizes ringKb (s.createTabLocked w i cwd size command p).1 := by
  unfold SessionManager.createTabLocked
  split_ifs
  · exact h
  · split <;> exact h

theorem splitLocked (h : LogSizes ringKb s) (caller : String) (p : PaneId) (direction : String)
    (ratio : F32) (size : PtySize) (cwd : Option PathBuf) (q : PaneId) :
    LogSizes ringKb (s.splitLocked w caller p direction ratio size cwd q).1 := by
  unfold SessionManager.splitLocked
  split
  · exact h
  · dsimp only
    split <;> exact h

theorem autoSeedDefaultTab (h : LogSizes ringKb s) (i : ℕ) (size : PtySize) :
    LogSizes ringKb (s.autoSeedDefaultTab w i size).1 := by
  unfold SessionManager.autoSeedDefaultTab
  split_ifs
  · exact h
  · split <;> exact h

theorem healLocked (h : LogSizes ringKb s) (emptied : Option ℕ) :
    LogSizes ringKb (s.healLocked w emptied).1 := by
  unfold SessionManager.healLocked
  split
  · exact h
  · rename_i i
    have hseed := h.autoSeedDefaultTab (w := w) i .default
    split_ifs
    · rcases hr : s.autoSeedDefaultTab w i .default with ⟨t, r⟩
      rw [hr] at hseed
      cases r <;> exact hseed
    · exact h

theorem closeTabPane (h : LogSizes ringKb s) (p : PaneId) :
    LogSizes ringKb (closeTabPane s p) := by
  unfold SessionManager.closeTabPane
  split_ifs <;> exact h.erase p

theorem closeTabLocked (h : LogSizes ringKb s) (tabId : Uuid) :
    LogSizes ringKb (s.closeTabLocked w tabId).1 := by
  unfold SessionManager.closeTabLocked
  split
  · exact h
  · refine healLocked ?_ _
    refine foldl (fun _ p h => h.closeTabPane p) _ ?_
    exact h

theorem closePaneLocked (h : LogSizes ringKb s) (p : PaneId) :
    LogSizes ringKb (s.closePaneLocked w p).1 := by
  unfold SessionManager.closePaneLocked
  split_ifs
  · refine healLocked ?_ _
    exact h.erase p
  · exact h

theorem deleteWorkspace (h : LogSizes ringKb s) (i : ℕ) :
    LogSizes ringKb (s.deleteWorkspace i).1 := by
  unfold SessionManager.deleteWorkspace
  split
  · exact h
  · rename_i ws _
    split_ifs
    · exact h
    · have hpanes := foldl (f := deletePane) (fun _ p h => h.erase p)
        (ws.tabs.foldl (fun out tab => collectPaneIds tab.paneTree out) []) h
      exact hpanes

/-- A call up to where it releases the lock. -/
theorem locked (h : LogSizes ringKb s) {op : Op}
    (hdup : ∀ i name size, op ≠ .duplicateWorkspace i name size) :
    LogSizes ringKb (s.locked w op).1 := by
  cases op with
  | createPane size cwd command shell loginShell =>
    exact h.createPaneLocked size cwd command shell loginShell
  | createTab i cwd size command => exact createTabLocked (s := s.mint) h i cwd size command _
  | splitPane p direction size cwd =>
    simp only [SessionManager.locked]
    split_ifs
    · exact splitLocked (s := s.mint) h _ p direction _ size cwd _
    · exact h
  | splitPaneWithRatio p direction ratio size cwd =>
    simp only [SessionManager.locked]
    split_ifs
    · exact splitLocked (s := s.mint) h _ p direction ratio size cwd _
    · exact h
  | closePane p => exact h.closePaneLocked p
  | closeTab tabId => exact h.closeTabLocked tabId
  | deleteWorkspace i => exact h.deleteWorkspace i
  | duplicateWorkspace i name size => exact absurd rfl (hdup i name size)
  | processPaneBytes procCwd alive p bytes => exact h.processPaneBytes procCwd alive p bytes
  | _ => exact h.arranged (arranged_apply trivial)

theorem duplicateSpawn (h : LogSizes ringKb s) (size : PtySize) (total : ℕ)
    (cwds : List (Option PathBuf)) (acc : List (PaneId × PtyBridge × PathBuf)) :
    LogSizes ringKb (duplicateSpawn w size total cwds acc s).1 := by
  induction cwds generalizing acc s with
  | nil => exact h
  | cons cwd cwds ih =>
    rw [SessionManager.duplicateSpawn]
    dsimp only
    split
    · refine ih ?_ _
      exact h
    · exact h

theorem duplicateTabs (h : LogSizes ringKb s) (size : PtySize)
    (spawned : List (PaneId × PtyBridge × PathBuf)) :
    LogSizes ringKb (duplicateTabs w size spawned s).1 := by
  induction spawned generalizing s with
  | nil => exact h
  | cons x spawned ih => exact ih h

theorem duplicateWorkspace (h : LogSizes ringKb s) (i : ℕ) (name : Option String)
    (size : PtySize) : LogSizes ringKb (s.duplicateWorkspace w i name size).1 := by
  unfold SessionManager.duplicateWorkspace
  split
  · exact h
  · rename_i dupName insertAt cwds _
    have hspawn := h.duplicateSpawn (w := w) size cwds.length cwds []
    split
    · rename_i heq
      rwa [heq] at hspawn
    · rename_i t spawned heq
      rw [heq] at hspawn
      have hcommit : LogSizes ringKb (t.duplicateCommit w size dupName insertAt spawned).1 :=
        duplicateTabs (s := t.mint) hspawn size spawned
      have hdone := hcommit.spawnDrainTasks (w := w)
        ((t.duplicateCommit w size dupName insertAt spawned).2.2.2.map (·.paneId))
      rwa [SessionManager.spawnDrainTasks, List.foldl_map] at hdone

/-! ### Whole calls -/

theorem apply (h : LogSizes ringKb s) (op : Op) : LogSizes ringKb (s.apply w op) := by
  rcases duplicates_or op with ⟨i, name, size, rfl⟩ | hdup
  · exact h.duplicateWorkspace i name size
  · rw [apply_eq_locked hdup]
    exact (h.locked hdup).spawnDrainTasks _

theorem invoke (h : LogSizes ringKb s) (call : Call) : LogSizes ringKb (s.invoke w call) := by
  match call with
  | .op op => exact h.apply op
  | .createTabWithPaneId i cwd size command p =>
    have hcall : s.invoke w (.createTabWithPaneId i cwd size command p) =
        (s.createTabWithPaneId w i cwd size command p).1 := rfl
    rw [hcall, createTabWithPaneId_eq]
    exact (h.createTabLocked i cwd size command p).spawnDrainTasks _
  | .splitPaneWithRatioAndPaneId p direction ratio size cwd q =>
    have hcall : s.invoke w (.splitPaneWithRatioAndPaneId p direction ratio size cwd q) =
        (s.splitPaneWithRatioAndPaneId w p direction ratio size cwd q).1 := rfl
    rw [hcall, splitPaneWithRatioAndPaneId]
    split_ifs
    · rw [splitAt_eq]
      exact (h.splitLocked _ p direction ratio size cwd q).spawnDrainTasks _
    · exact h

end LogSizes

end SessionManager

end Forgetty
