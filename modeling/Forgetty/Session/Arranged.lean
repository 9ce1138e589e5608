import Forgetty.Session.Effect

/-! Calls that arrange the layout or change the record of a pane. They leave the byte logs and
the size of the rings as they are, and no event of theirs tells of a pane. -/

namespace Forgetty

open Lib

namespace SessionManager

/-- Neither the byte logs nor what is told of panes differ. -/
structure Arranged (s t : SessionManager) : Prop where
  byteLogs : t.byteLogs = s.byteLogs
  byteLogRingKb : t.byteLogRingKb = s.byteLogRingKb
  events : ∃ es, t.eventTx = s.eventTx.sendAll es ∧ ∀ e ∈ es, e.word = none

namespace Arranged

variable {s t u : SessionManager}

theorem of_same (hlogs : t.byteLogs = s.byteLogs) (hring : t.byteLogRingKb = s.byteLogRingKb)
    (htx : t.eventTx = s.eventTx) : Arranged s t where
  byteLogs := hlogs
  byteLogRingKb := hring
  events := ⟨[], by rw [htx, Broadcast.sendAll_nil], by simp⟩

theorem refl (s : SessionManager) : Arranged s s := .of_same rfl rfl rfl

/-- A change of the layout is told. -/
theorem send {e : SessionEvent} (he : e.word = none) (hlogs : t.byteLogs = s.byteLogs)
    (hring : t.byteLogRingKb = s.byteLogRingKb) (htx : t.eventTx = s.eventTx) :
    Arranged s (t.send e) where
  byteLogs := hlogs
  byteLogRingKb := hring
  events := ⟨[e], by rw [← htx]; rfl, by simpa using he⟩

theorem moveTab (tabId : Uuid) (newIndex : ℕ) : Arranged s (s.moveTab tabId newIndex).1 := by
  unfold SessionManager.moveTab
  split
  · exact .refl s
  · split
    · exact .refl s
    · dsimp only
      split_ifs
      · exact .refl s
      · split
        · exact .refl s
        · exact .send rfl rfl rfl rfl

theorem moveWorkspace (i j : ℕ) : Arranged s (s.moveWorkspace i j).1 := by
  unfold SessionManager.moveWorkspace
  dsimp only
  split
  · exact .refl s
  · exact .refl s
  · split
    · exact .refl s
    · exact .send rfl rfl rfl rfl

theorem renameWorkspace (i : ℕ) (name : String) : Arranged s (s.renameWorkspace i name).1 := by
  unfold SessionManager.renameWorkspace
  split
  · exact .refl s
  · split_ifs
    · exact .refl s
    · exact .send rfl rfl rfl rfl

theorem setWorkspaceColor (i : ℕ) (color : Option String) :
    Arranged s (s.setWorkspaceColor i color).1 := by
  unfold SessionManager.setWorkspaceColor
  split
  · exact .refl s
  · split_ifs
    · exact .refl s
    · exact .send rfl rfl rfl rfl

theorem setActiveTab (i j : ℕ) : Arranged s (s.setActiveTab i j).1 := by
  unfold SessionManager.setActiveTab
  split
  · exact .refl s
  · split_ifs
    · exact .refl s
    · exact .send rfl rfl rfl rfl

theorem setActiveWorkspace (i : ℕ) : Arranged s (s.setActiveWorkspace i).1 := by
  unfold SessionManager.setActiveWorkspace
  split_ifs
  · exact .refl s
  · exact .refl s
  · exact .send rfl rfl rfl rfl

theorem setActivePane (i : ℕ) (tabId : Uuid) (p : Option PaneId) :
    Arranged s (s.setActivePane i tabId p).1 := by
  unfold SessionManager.setActivePane
  split
  · exact .refl s
  · split
    · exact .refl s
    · split
      · exact .refl s
      · split_ifs
        · exact .refl s
        · exact .send rfl rfl rfl rfl

theorem updateSplitRatios (updates : List (PaneId × F32)) :
    Arranged s (s.updateSplitRatios updates) := by
  induction updates generalizing s with
  | nil => exact .refl s
  | cons u updates ih => exact ⟨ih.byteLogs, ih.byteLogRingKb, ih.events⟩

theorem setPaneCwd (p : PaneId) (cwd : PathBuf) : Arranged s (s.setPaneCwd p cwd) := by
  unfold SessionManager.setPaneCwd
  split <;> exact .of_same rfl rfl rfl

theorem resizePane (resizeOk : Except String Unit) (p : PaneId) (size : PtySize) :
    Arranged s (s.resizePane resizeOk p size).1 := by
  unfold SessionManager.resizePane
  split
  · exact .refl s
  · split <;> exact .of_same rfl rfl rfl

end Arranged

theorem arranged_apply {w : World} {s : SessionManager} {op : Op} (h : Arranges op) :
    Arranged s (s.apply w op) := by
  cases op with
  | moveTab tabId newIndex => exact .moveTab tabId newIndex
  | createWorkspace name => exact .send rfl rfl rfl rfl
  | moveWorkspace i j => exact .moveWorkspace i j
  | renameWorkspace i name => exact .renameWorkspace i name
  | setWorkspaceColor i color => exact .setWorkspaceColor i color
  | setActiveTab i j => exact .setActiveTab i j
  | setActiveWorkspace i => exact .setActiveWorkspace i
  | setActivePane i tabId p => exact .setActivePane i tabId p
  | updateSplitRatios updates => exact .updateSplitRatios updates
  | setPaneCwd p cwd => exact .setPaneCwd p cwd
  | setPinned pinned => exact .of_same rfl rfl rfl
  | resizePane resizeOk p size => exact .resizePane resizeOk p size
  | _ => exact absurd h id

end SessionManager

end Forgetty
