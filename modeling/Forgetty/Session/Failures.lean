import Forgetty.Session.Calls

/-! A call that answers an error has changed nothing. Most calls check their arguments
before they touch anything. A duplication that fails half way has only spawned. A split
registers its new pane before it looks for the old one in the trees, but a pane that
is registered is always found there. -/

namespace Forgetty

open Lib

namespace SessionManager

/-- The session is the same and no event was sent. Ids that were taken, spawns that were
tried and children that were killed are not part of the session. -/
structure Untouched (s t : SessionManager) : Prop where
  layout : t.layout = s.layout
  panes : t.panes = s.panes
  paneOrder : t.paneOrder = s.paneOrder
  byteLogs : t.byteLogs = s.byteLogs
  pinned : t.pinned = s.pinned
  eventTx : t.eventTx = s.eventTx

/-- An error answer means that the session is the same. -/
def FailsClean {α : Type} (s : SessionManager) (made : SessionManager × Except ForgettyError α) :
    Prop := ∀ e, made.2 = .error e → Untouched s made.1

section Rules

variable {α β : Type} {w : World} {s t u : SessionManager} {x : α} {e : ForgettyError}

theorem Untouched.refl (s : SessionManager) : Untouched s s := ⟨rfl, rfl, rfl, rfl, rfl, rfl⟩

theorem untouched_mint (s : SessionManager) : Untouched s s.mint := ⟨rfl, rfl, rfl, rfl, rfl, rfl⟩

theorem untouched_countSpawn (s : SessionManager) : Untouched s s.countSpawn :=
  ⟨rfl, rfl, rfl, rfl, rfl, rfl⟩

theorem Untouched.trans (h : Untouched s t) (h' : Untouched t u) : Untouched s u where
  layout := h'.layout.trans h.layout
  panes := h'.panes.trans h.panes
  paneOrder := h'.paneOrder.trans h.paneOrder
  byteLogs := h'.byteLogs.trans h.byteLogs
  pinned := h'.pinned.trans h.pinned
  eventTx := h'.eventTx.trans h.eventTx

theorem failsClean_ok : FailsClean s (t, .ok x) := fun _ h => nomatch h

theorem Untouched.failsClean (h : Untouched s t) {r : Except ForgettyError α} :
    FailsClean s (t, r) := fun _ _ => h

/-- A call that failed clean fails clean behind steps that touch nothing. -/
theorem FailsClean.after {made : SessionManager × Except ForgettyError α} (h : FailsClean t made)
    (hs : Untouched s t) : FailsClean s made := fun e he => hs.trans (h e he)

/-- Only whether there was an error is read. -/
theorem FailsClean.map {made : SessionManager × Except ForgettyError α} (h : FailsClean s made)
    (f : α → β) : FailsClean s (made.map id (Except.map f)) := by
  intro e he
  obtain ⟨t, r⟩ := made
  cases r with
  | error e' => exact h e' rfl
  | ok x => exact nomatch he

end Rules

/-! ### The calls -/

section Calls

variable {w : World} {s : SessionManager}

theorem failsClean_createPane (size : PtySize) (cwd : Option PathBuf)
    (command : Option (List String)) (shell : Option String) (login : Bool) :
    FailsClean s (s.createPane w size cwd command shell login) := by
  unfold createPane
  dsimp only
  split
  · exact ((untouched_mint s).trans (untouched_countSpawn _)).failsClean
  · exact failsClean_ok

theorem failsClean_createTabWithPaneId (i : ℕ) (cwd : Option PathBuf) (size : PtySize)
    (command : Option (List String)) (p : PaneId) :
    FailsClean s (s.createTabWithPaneId w i cwd size command p) := by
  unfold createTabWithPaneId
  split_ifs
  · exact (Untouched.refl s).failsClean
  · split
    · exact (untouched_countSpawn s).failsClean
    · exact failsClean_ok

/-- The new pane is rolled back only when the old one is in no tree. -/
theorem failsClean_splitAt (h : LiveShown s) (caller : String) {p : PaneId} (hp : p ∈ s.panes)
    (direction : String) (ratio : F32) (size : PtySize) (cwd : Option PathBuf) (q : PaneId) :
    FailsClean s (s.splitAt w caller p direction ratio size cwd q) := by
  unfold splitAt
  split
  · exact (untouched_countSpawn s).failsClean
  · dsimp only
    split
    · rename_i heq
      exact absurd (h.leaf p hp) (replaceLeafInLayout_none (congrArg Prod.snd heq))
    · exact failsClean_ok

theorem failsClean_splitPaneWithRatioAndPaneId (h : LiveShown s) (p : PaneId) (direction : String)
    (ratio : F32) (size : PtySize) (cwd : Option PathBuf) (q : PaneId) :
    FailsClean s (s.splitPaneWithRatioAndPaneId w p direction ratio size cwd q) := by
  unfold splitPaneWithRatioAndPaneId
  split_ifs with hp
  · exact failsClean_splitAt h _ hp direction ratio size cwd q
  · exact (Untouched.refl s).failsClean

theorem failsClean_splitPane (h : LiveShown s) (p : PaneId) (direction : String) (size : PtySize)
    (cwd : Option PathBuf) : FailsClean s (s.splitPane w p direction size cwd) := by
  unfold splitPane
  split_ifs with hp
  · have hmint : LiveShown s.mint := ⟨h.leaf, h.workspaces⟩
    exact (failsClean_splitAt hmint _ hp direction _ size cwd _).after (untouched_mint s)
  · exact (Untouched.refl s).failsClean

theorem failsClean_closePane (p : PaneId) : FailsClean s (s.closePane w p) := by
  unfold closePane
  split_ifs <;> exact failsClean_ok

theorem failsClean_closeTab (tabId : Uuid) : FailsClean s (s.closeTab w tabId) := by
  unfold closeTab
  split
  · exact (Untouched.refl s).failsClean
  · exact failsClean_ok

theorem failsClean_moveTab (tabId : Uuid) (newIndex : ℕ) :
    FailsClean s (s.moveTab tabId newIndex) := by
  unfold moveTab
  split
  · exact (Untouched.refl s).failsClean
  · split
    · exact failsClean_ok
    · dsimp only
      split_ifs
      · exact failsClean_ok
      · split <;> exact failsClean_ok

theorem failsClean_deleteWorkspace (i : ℕ) : FailsClean s (s.deleteWorkspace i) := by
  unfold deleteWorkspace
  split
  · exact (Untouched.refl s).failsClean
  · split_ifs
    · exact (Untouched.refl s).failsClean
    · exact failsClean_ok

/-- Spawning touches nothing, whether it is carried through or not. -/
theorem untouched_duplicateSpawn (size : PtySize) (total : ℕ) (cwds : List (Option PathBuf))
    (spawned : List (PaneId × PtyBridge × PathBuf)) (s : SessionManager) :
    Untouched s (duplicateSpawn w size total cwds spawned s).1 := by
  induction cwds generalizing spawned s with
  | nil => exact .refl s
  | cons cwd cwds ih =>
    have hcount := (untouched_mint s).trans (untouched_countSpawn s.mint)
    rw [duplicateSpawn]
    dsimp only
    split
    · exact hcount.trans (ih _ _)
    · exact hcount.trans ⟨rfl, rfl, rfl, rfl, rfl, rfl⟩

theorem failsClean_duplicateWorkspace (i : ℕ) (name : Option String) (size : PtySize) :
    FailsClean s (s.duplicateWorkspace w i name size) := by
  unfold duplicateWorkspace
  split
  · exact (Untouched.refl s).failsClean
  · rename_i dupName insertAt cwds _
    have hspawn := @untouched_duplicateSpawn w size cwds.length cwds [] s
    split
    · rename_i heq
      rw [heq] at hspawn
      exact hspawn.failsClean
    · exact failsClean_ok

theorem failsClean_moveWorkspace (i j : ℕ) : FailsClean s (s.moveWorkspace i j) := by
  unfold moveWorkspace
  dsimp only
  split
  · exact (Untouched.refl s).failsClean
  · exact (Untouched.refl s).failsClean
  · split_ifs <;> exact failsClean_ok

theorem failsClean_renameWorkspace (i : ℕ) (name : String) :
    FailsClean s (s.renameWorkspace i name) := by
  unfold renameWorkspace
  split
  · exact (Untouched.refl s).failsClean
  · split_ifs <;> exact failsClean_ok

theorem failsClean_setWorkspaceColor (i : ℕ) (color : Option String) :
    FailsClean s (s.setWorkspaceColor i color) := by
  unfold setWorkspaceColor
  split
  · exact (Untouched.refl s).failsClean
  · split_ifs <;> exact failsClean_ok

theorem failsClean_setActiveTab (i j : ℕ) : FailsClean s (s.setActiveTab i j) := by
  unfold setActiveTab
  split
  · exact (Untouched.refl s).failsClean
  · split_ifs
    · exact (Untouched.refl s).failsClean
    · exact failsClean_ok

theorem failsClean_setActiveWorkspace (i : ℕ) : FailsClean s (s.setActiveWorkspace i) := by
  unfold setActiveWorkspace
  split_ifs
  · exact (Untouched.refl s).failsClean
  · exact failsClean_ok
  · exact failsClean_ok

theorem failsClean_setActivePane (i : ℕ) (tabId : Uuid) (p : Option PaneId) :
    FailsClean s (s.setActivePane i tabId p) := by
  unfold setActivePane
  split
  · exact (Untouched.refl s).failsClean
  · split
    · exact (Untouched.refl s).failsClean
    · split
      · exact (Untouched.refl s).failsClean
      · split_ifs <;> exact failsClean_ok

theorem failsClean_resizePane (resizeOk : Except String Unit) (p : PaneId) (size : PtySize) :
    FailsClean s (s.resizePane resizeOk p size) := by
  unfold resizePane
  split
  · exact (Untouched.refl s).failsClean
  · split
    · exact (Untouched.refl s).failsClean
    · exact failsClean_ok

theorem failsClean_processPaneBytes (procCwd : ℕ → Option PathBuf) (alive : Bool) (p : PaneId)
    (bytes : Bytes) : FailsClean s (s.processPaneBytes procCwd alive p bytes) := by
  unfold processPaneBytes
  split
  · exact (Untouched.refl s).failsClean
  · exact failsClean_ok

theorem failsClean_op (h : LiveShown s) (op : Op) : FailsClean s (op.exec w s) := by
  cases op with
  | createPane size cwd command shell login =>
    exact (failsClean_createPane size cwd command shell login).map _
  | createTab i cwd size command =>
    exact ((failsClean_createTabWithPaneId i cwd size command _).after (untouched_mint s)).map _
  | splitPane p direction size cwd => exact (failsClean_splitPane h p direction size cwd).map _
  | splitPaneWithRatio p direction ratio size cwd =>
    have hmint : LiveShown s.mint := ⟨h.leaf, h.workspaces⟩
    exact ((failsClean_splitPaneWithRatioAndPaneId hmint p direction ratio size cwd _).after
      (untouched_mint s)).map _
  | closePane p => exact failsClean_closePane p
  | closeTab tabId => exact failsClean_closeTab tabId
  | moveTab tabId newIndex => exact failsClean_moveTab tabId newIndex
  | createWorkspace name => exact failsClean_ok
  | deleteWorkspace i => exact failsClean_deleteWorkspace i
  | duplicateWorkspace i name size => exact (failsClean_duplicateWorkspace i name size).map _
  | moveWorkspace i j => exact failsClean_moveWorkspace i j
  | renameWorkspace i name => exact failsClean_renameWorkspace i name
  | setWorkspaceColor i color => exact failsClean_setWorkspaceColor i color
  | setActiveTab i j => exact failsClean_setActiveTab i j
  | setActiveWorkspace i => exact failsClean_setActiveWorkspace i
  | setActivePane i tabId p => exact failsClean_setActivePane i tabId p
  | updateSplitRatios updates => exact failsClean_ok
  | setPaneCwd p cwd => exact failsClean_ok
  | setPinned pinned => exact failsClean_ok
  | resizePane resizeOk p size => exact failsClean_resizePane resizeOk p size
  | processPaneBytes procCwd alive p bytes =>
    exact (failsClean_processPaneBytes procCwd alive p bytes).map _

end Calls

/-- In every state any calls lead to, a call that answers an error has changed nothing. -/
theorem failed_call_untouched (w : World) (hw : Function.Injective w.newV4) (s : SessionManager)
    (hs : Reached w s) (call : Call) (e : ForgettyError) (he : (call.exec w s).2 = .error e) :
    Untouched s (call.exec w s).1 := by
  have h := hs.liveShown hw
  have hclean : FailsClean s (call.exec w s) := by
    cases call with
    | op op => exact failsClean_op h op
    | createTabWithPaneId i cwd size command p =>
      exact (failsClean_createTabWithPaneId i cwd size command p).map _
    | splitPaneWithRatioAndPaneId p direction ratio size cwd q =>
      exact (failsClean_splitPaneWithRatioAndPaneId h p direction ratio size cwd q).map _
  exact hclean e he

/-- Two tabs, and every spawn but the third succeeds: the second child of a duplication
fails after the first was spawned. -/
def thirdSpawnFails : World :=
  { World.counting with
    ptySpawn := fun n _ _ _ _ => if n = 3 then .error "no more" else .ok { pid := some n } }

def twoTabsOnly : SessionManager :=
  run (invoke thirdSpawnFails) (fresh thirdSpawnFails .empty 1024 10)
    [.op (.createTab 0 none .default none), .op (.createTab 0 none .default none)]

theorem failed_duplicate_untouched :
    (∃ e, (Call.exec thirdSpawnFails twoTabsOnly (.op (.duplicateWorkspace 0 none .default))).2 =
        .error e) ∧
      Untouched twoTabsOnly
        (Call.exec thirdSpawnFails twoTabsOnly (.op (.duplicateWorkspace 0 none .default))).1 :=
  ⟨⟨_, rfl⟩, failed_call_untouched thirdSpawnFails World.counting_injective twoTabsOnly
    ⟨_, _, _, _, rfl⟩ (.op (.duplicateWorkspace 0 none .default)) _ rfl⟩

end SessionManager

end Forgetty
