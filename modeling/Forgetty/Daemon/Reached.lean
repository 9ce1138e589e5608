import Forgetty.Daemon.RestoredIds
import Forgetty.Session.Ended

/-! A cold start is a list of calls, so the states of a session are states that calls
lead to, whatever the session file holds. -/

namespace Forgetty

open Lib SessionManager

variable {w : World} {isDir : PathBuf → Bool} {s : SessionManager}

/-- Calls that end no pane lead from one state to the other. -/
def Builds (w : World) (s t : SessionManager) : Prop :=
  ∃ calls, (∀ call ∈ calls, ¬Ends call) ∧ t = run (invoke w) s calls

theorem Builds.refl (w : World) (s : SessionManager) : Builds w s s :=
  ⟨[], fun _ h => absurd h List.not_mem_nil, rfl⟩

theorem Builds.single (s : SessionManager) (call : Call) (h : ¬Ends call) :
    Builds w s (call.exec w s).1 :=
  ⟨[call], fun _ hc => List.mem_singleton.mp hc ▸ h, rfl⟩

theorem Builds.trans {t u : SessionManager} (h : Builds w s t) (h' : Builds w t u) :
    Builds w s u := by
  obtain ⟨calls, hcalls, rfl⟩ := h
  obtain ⟨calls', hcalls', rfl⟩ := h'
  refine ⟨calls ++ calls', fun call hc => ?_, (run_append s calls calls').symm⟩
  exact (List.mem_append.mp hc).elim (hcalls call) (hcalls' call)

theorem Builds.leads {t : SessionManager} (h : Builds w s t) : Leads w s t := by
  obtain ⟨calls, -, rfl⟩ := h
  exact ⟨calls, rfl⟩

/-- The invariant rule for calls that end no pane. -/
theorem Builds.invariant {P : SessionManager → Prop}
    (hs : ∀ t call, ¬Ends call → P t → P (invoke w t call)) {t : SessionManager}
    (h : Builds w s t) (h0 : P s) : P t := by
  obtain ⟨calls, hcalls, rfl⟩ := h
  induction calls generalizing s with
  | nil => exact h0
  | cons call calls ih =>
    exact ih (hs s call (hcalls call List.mem_cons_self) h0)
      fun c hc => hcalls c (List.mem_cons_of_mem call hc)

theorem builds_foldl {α : Type} {f : SessionManager → α → SessionManager}
    (h : ∀ t a, Builds w t (f t a)) (as : List α) (s : SessionManager) :
    Builds w s (as.foldl f s) := by
  induction as generalizing s with
  | nil => exact .refl w s
  | cons a as ih => exact (h s a).trans (ih (f s a))

/-- A subtree is rebuilt by changes of directories and splits. -/
theorem builds_restoreSubtree (size : PtySize) (t : PaneTreeState) (anchorId : PaneId)
    (s : SessionManager) : Builds w s (restoreSubtree w isDir size t anchorId s) := by
  induction t generalizing anchorId s with
  | leaf l =>
    rw [restoreSubtree]
    split_ifs
    · exact .single s (.op (.setPaneCwd anchorId l.cwd)) id
    · exact .refl w s
  | node label first second ihl ihr =>
    rw [restoreSubtree]
    cases firstLeafPaneId second with
    | some pid =>
      have hsplit : Builds w s (s.splitPaneWithRatioAndPaneId w anchorId label.direction label.ratio
          size (effectiveCwd isDir (firstLeafCwd second)) ⟨pid⟩).1 :=
        .single s (.splitPaneWithRatioAndPaneId anchorId label.direction label.ratio size _ ⟨pid⟩) id
      split <;> rename_i heq <;> dsimp only at heq <;> rw [heq] at hsplit
      · exact hsplit.trans ((ihl _ _).trans (ihr _ _))
      · exact hsplit
    | none =>
      have hsplit : Builds w s (s.splitPaneWithRatio w anchorId label.direction label.ratio size
          (effectiveCwd isDir (firstLeafCwd second))).1 :=
        .single s (.op (.splitPaneWithRatio anchorId label.direction label.ratio size _)) id
      split <;> rename_i heq <;> dsimp only at heq <;> rw [heq] at hsplit
      · exact hsplit.trans ((ihl _ _).trans (ihr _ _))
      · exact hsplit

theorem builds_restoreTab (size : PtySize) (wsIdx : ℕ) (s : SessionManager) (tab : TabState) :
    Builds w s (restoreTab w isDir size wsIdx s tab) := by
  rw [restoreTab]
  cases firstLeafPaneId tab.paneTree with
  | some pid =>
    have hroot : Builds w s (s.createTabWithPaneId w wsIdx
        (effectiveCwd isDir (firstLeafCwd tab.paneTree)) size none ⟨pid⟩).1 :=
      .single s (.createTabWithPaneId wsIdx _ size none ⟨pid⟩) id
    split <;> rename_i heq <;> dsimp only at heq <;> rw [heq] at hroot
    · exact hroot.trans (builds_restoreSubtree size _ _ _)
    · exact hroot
  | none =>
    have hroot : Builds w s (s.createTab w wsIdx
        (effectiveCwd isDir (firstLeafCwd tab.paneTree)) size none).1 :=
      .single s (.op (.createTab wsIdx _ size none)) id
    split <;> rename_i heq <;> dsimp only at heq <;> rw [heq] at hroot
    · exact hroot.trans (builds_restoreSubtree size _ _ _)
    · exact hroot

theorem builds_restoreWorkspace (size : PtySize) (wsIdx : ℕ) (workspace : Workspace)
    (s : SessionManager) : Builds w s (restoreWorkspace w isDir size wsIdx workspace s) := by
  have htabs : Builds w s (workspace.tabs.foldl (restoreTab w isDir size wsIdx) s) :=
    builds_foldl (fun t tab => builds_restoreTab size wsIdx t tab) _ s
  rw [restoreWorkspace]
  refine .trans ?_ (.single _ (.op (.setActiveTab wsIdx workspace.activeTab)) id)
  split_ifs
  · exact htabs.trans (.single _ (.op (.createTab wsIdx none size none)) id)
  · exact htabs

theorem builds_restoreWorkspaces (size : PtySize) (wsIdx : ℕ) (saved : List Workspace)
    (s : SessionManager) : Builds w s (restoreWorkspaces w isDir size wsIdx saved s) := by
  induction saved generalizing wsIdx s with
  | nil => exact .refl w s
  | cons workspace rest ih => exact (builds_restoreWorkspace size wsIdx workspace s).trans (ih _ _)

theorem builds_restoreSlots (wsIdx : ℕ) (saved : List Workspace) (s : SessionManager) :
    Builds w s (restoreSlots w wsIdx saved s) := by
  induction saved generalizing wsIdx s with
  | nil => exact .refl w s
  | cons savedWs rest ih =>
    refine .trans ?_ (ih _ _)
    have hslot : Builds w s (if wsIdx = 0 then (s.renameWorkspace 0 savedWs.name).1
        else (s.createWorkspace w savedWs.name).1) := by
      split_ifs
      · exact .single s (.op (.renameWorkspace 0 savedWs.name)) id
      · exact .single s (.op (.createWorkspace savedWs.name)) id
    rw [restoreSlot]
    split_ifs at hslot ⊢
    · exact hslot.trans (.single _ (.op (.setWorkspaceColor wsIdx savedWs.color)) id)
    · exact hslot.trans (.single _ (.op (.setWorkspaceColor wsIdx savedWs.color)) id)
    · exact hslot
    · exact hslot

theorem builds_coldStart (state : WorkspaceState) (s : SessionManager) :
    Builds w s (coldStart w isDir state s) := by
  have hfocus (targets : List (ℕ × Uuid × PaneId)) (t : SessionManager) :
      Builds w t (targets.foldl setFocus t) :=
    builds_foldl (fun t target =>
      .single t (.op (.setActivePane target.1 target.2.1 (some target.2.2))) id) targets t
  have hlayout (t : SessionManager) : Builds w t ((restoreWorkspaces w isDir .default 0
      state.workspaces (restoreSlots w 0 state.workspaces t)).setActiveWorkspace
        state.activeWorkspace).1 :=
    ((builds_restoreSlots 0 state.workspaces t).trans
      (builds_restoreWorkspaces .default 0 state.workspaces _)).trans
        (.single _ (.op (.setActiveWorkspace state.activeWorkspace)) id)
  unfold coldStart
  split_ifs
  · exact .refl w s
  · have hpinned : Builds w s (s.setPinned true) := .single s (.op (.setPinned true)) id
    exact (hpinned.trans (hlayout _)).trans (hfocus _ _)
  · exact (hlayout s).trans (hfocus _ _)

/-- However the daemon came up, calls led there. -/
theorem reached_daemonStart {α : Type} (os : Os Uuid) (codec : SessionCodec α) (sessionId : Uuid)
    (ringKb maxMb : UInt32) (d : Disk α) (logFiles : PMap Uuid Bytes) :
    Reached w (daemonStart w isDir os codec sessionId ringKb maxMb d logFiles) := by
  have hfresh : Reached w (fresh w logFiles ringKb maxMb) := ⟨_, _, _, [], rfl⟩
  rw [daemonStart]
  split
  · exact hfresh.leads (builds_coldStart _ _).leads
  · exact hfresh

theorem SessionState.reached (h : SessionState w s) : Reached w s := by
  obtain ⟨start, ops, hstart, rfl⟩ := h
  have hreached : Reached w start := by
    cases hstart with
    | empty logFiles ringKb maxMb => exact ⟨logFiles, ringKb, maxMb, [], rfl⟩
    | restored isDir state logFiles ringKb maxMb _ =>
      have hfresh : Reached w (fresh w logFiles ringKb maxMb) := ⟨_, _, _, [], rfl⟩
      exact hfresh.leads (builds_coldStart state _).leads
  refine hreached.leads ⟨ops.map .op, ?_⟩
  rw [run, List.foldl_map]
  rfl

end Forgetty
