import Forgetty.Daemon.Reached
import Forgetty.Daemon.Serving
import Forgetty.Session.LiveLogs

/-! From the start of the daemon on. The restore runs its calls one after the other, so its
logs are those of live panes. Then the clients come, and their calls are taken apart. -/

namespace Forgetty

open Lib SessionManager

/-- Every log file the process asks for can be opened. -/
def World.LogsOpen (w : World) : Prop := ∀ n, w.openLog n = .ok ()

namespace SessionManager

/-- No log belongs to a pane that is not live, and where every file can be opened no live
pane lacks its log. -/
structure Logged (w : World) (s : SessionManager) : Prop where
  live : ∀ p ∈ s.byteLogs, p ∈ s.panes
  made : w.LogsOpen → ∀ p ∈ s.panes, p ∈ s.byteLogs

section Logs

variable {w : World} {s t : SessionManager}

/-- Draining a pane leaves the other logs, and makes one if the file can be opened. -/
theorem mem_byteLogs_spawnDrainTask (p q : PaneId) :
    q ∈ (s.spawnDrainTask w p).byteLogs ↔
      q ∈ s.byteLogs ∨ (q = p ∧ w.openLog s.opened = .ok ()) := by
  rw [spawnDrainTask, takePaneOutputRx_byteLogs, createByteLogFor]
  cases hopen : w.openLog s.opened with
  | error e => simp
  | ok _ =>
    dsimp only
    rw [PMap.mem_insert]
    simp [or_comm]

theorem mem_byteLogs_spawnDrainTasks {ps : List PaneId} {q : PaneId}
    (h : q ∈ (spawnDrainTasks w ps s).byteLogs) : q ∈ s.byteLogs ∨ q ∈ ps := by
  induction ps generalizing s with
  | nil => exact Or.inl h
  | cons p ps ih =>
    rcases ih h with h | h
    · rcases (mem_byteLogs_spawnDrainTask p q).mp h with h | ⟨rfl, -⟩
      · exact Or.inl h
      · exact Or.inr List.mem_cons_self
    · exact Or.inr (List.mem_cons_of_mem p h)

theorem mem_byteLogs_of_logsOpen (hopen : w.LogsOpen) {ps : List PaneId} {q : PaneId}
    (h : q ∈ s.byteLogs ∨ q ∈ ps) : q ∈ (spawnDrainTasks w ps s).byteLogs := by
  induction ps generalizing s with
  | nil => exact h.resolve_right List.not_mem_nil
  | cons p ps ih =>
    refine ih ?_
    rw [mem_byteLogs_spawnDrainTask, List.mem_cons] at *
    rcases h with h | rfl | h
    · exact Or.inl (Or.inl h)
    · exact Or.inl (Or.inr ⟨rfl, hopen _⟩)
    · exact Or.inr h

/-- Panes are registered and drained at once. -/
theorem Logged.drained (h : Logged w s) {new : List PaneId} (hr : Registers [] new s t) :
    Logged w (spawnDrainTasks w new t) where
  live p hp := by
    rw [spawnDrainTasks_mem_panes, hr.panes]
    refine (mem_byteLogs_spawnDrainTasks hp).imp_left fun hp => ?_
    exact ⟨h.live p ((hr.byteLogs p).mp hp).1, List.not_mem_nil⟩
  made hopen p hp := by
    rw [spawnDrainTasks_mem_panes, hr.panes] at hp
    refine mem_byteLogs_of_logsOpen hopen (hp.imp_left fun hp => ?_)
    exact (hr.byteLogs p).mpr ⟨h.made hopen p hp.1, hp.2⟩

theorem Logged.duplicateWorkspace (hw : Function.Injective w.newV4) (h : Logged w s) (i : ℕ)
    (name : Option String) (size : PtySize) :
    Logged w (s.duplicateWorkspace w i name size).1 := by
  unfold SessionManager.duplicateWorkspace
  split
  · exact h
  · rename_i dupName insertAt cwds _
    have hspawn := (registers_duplicateSpawn (s := s) hw size cwds.length cwds []).1
    split
    · rename_i heq
      rw [heq] at hspawn
      exact h.drained hspawn
    · rename_i t spawned heq
      rw [heq] at hspawn
      obtain ⟨hcommit, hdrained⟩ :=
        registers_duplicateCommit (w := w) (s := t) size dupName insertAt spawned
      have hdone := h.drained (hspawn.then_new hcommit)
      rw [← hdrained, spawnDrainTasks, List.foldl_map] at hdone
      exact hdone

/-- A call that ends nothing. -/
theorem Logged.invoke (hw : Function.Injective w.newV4) (hshown : LiveShown s) (h : Logged w s)
    {call : Call} (hc : ¬Ends call) : Logged w (s.invoke w call) := by
  match call with
  | .createTabWithPaneId i cwd size command p =>
    have hcall : s.invoke w (.createTabWithPaneId i cwd size command p) =
        (s.createTabWithPaneId w i cwd size command p).1 := rfl
    rw [hcall, createTabWithPaneId_eq]
    exact h.drained (registers_createTabLocked i cwd size command p).1
  | .splitPaneWithRatioAndPaneId p direction ratio size cwd q =>
    have hcall : s.invoke w (.splitPaneWithRatioAndPaneId p direction ratio size cwd q) =
        (s.splitPaneWithRatioAndPaneId w p direction ratio size cwd q).1 := rfl
    rw [hcall, splitPaneWithRatioAndPaneId]
    split_ifs with hp
    · rw [splitAt_eq]
      exact h.drained (registers_splitLocked _ p direction ratio size cwd
        (Or.inl (hshown.leaf p hp))).1
    · exact h
  | .op op =>
    rcases duplicates_or op with ⟨i, name, size, rfl⟩ | hdup
    · exact h.duplicateWorkspace hw i name size
    · obtain ⟨gone, hgone, hr, -⟩ :=
        registers_locked (w := w) (s := s) (Or.inl hshown.leaf) hdup
      have hended : s.ended (.op op) = [] := by
        cases op <;> first | rfl | exact absurd trivial hc
      rw [hended, List.subset_nil] at hgone
      subst hgone
      have happly : s.invoke w (.op op) = s.apply w op := rfl
      rw [happly, apply_eq_locked hdup]
      exact h.drained hr

theorem logged_fresh (logFiles : PMap Uuid Bytes) (ringKb maxMb : UInt32) :
    Logged w (fresh w logFiles ringKb maxMb) where
  live p hp := absurd hp (PMap.not_mem_empty p)
  made _ p hp := absurd hp (PMap.not_mem_empty p)

end Logs

end SessionManager

variable {w : World} {s : SessionManager}

theorem Started.logged (hw : Function.Injective w.newV4) (h : Started w s) : Logged w s := by
  cases h with
  | empty logFiles ringKb maxMb => exact logged_fresh logFiles ringKb maxMb
  | restored isDir state logFiles ringKb maxMb _ =>
    have hfresh : LiveShown (fresh w logFiles ringKb maxMb) ∧
        Logged w (fresh w logFiles ringKb maxMb) :=
      ⟨liveShown_fresh logFiles ringKb maxMb, logged_fresh logFiles ringKb maxMb⟩
    refine ((builds_coldStart state _).invariant (P := fun t => LiveShown t ∧ Logged w t)
      (fun t call hc ht => ?_) hfresh).2
    exact ⟨liveShown_invoke hw ht.1 call, ht.2.invoke hw ht.1 hc⟩

/-- No call is between two of its sections: then the logs are those of the live panes, but
for the panes whose files could not be opened, and exactly those where every file can be. -/
def LogsSettled (w : World) (m : Shared Process Todo) : Prop :=
  m.pending = [] → m.state.LogsOfLive ∧
    (w.LogsOpen → ∀ p, p ∈ m.state.sm.byteLogs ↔ p ∈ m.state.sm.panes)

/-- Where every file can be opened the process warns about nothing. -/
theorem warned_turn (hopen : w.LogsOpen) {m : Shared Process Todo} (h : m.state.warned = [])
    (turn : Turn Op) : ((lockSections w).turn m turn).state.warned = [] := by
  cases turn with
  | start op =>
    change (Process.start w op m.state).1.warned = []
    unfold Process.start
    split
    · split <;> exact h
    · exact h
  | resume k =>
    rw [Sections.turn]
    split
    · exact h
    · rename_i todo _
      change (todo.section w m.state).1.warned = []
      cases todo with
      | spawn dupName insertAt size cwds =>
        rw [Todo.section]
        split <;> exact h
      | commit dupName insertAt size spawned => exact h
      | createLog p ps =>
        rw [Todo.section, hopen]
        exact h
      | takeOutput p ps => exact h

theorem Started.logging (hw : Function.Injective w.newV4) (h : Started w s) :
    Logging w (Process.started s) [] := by
  obtain ⟨ht, -⟩ := h.tracked_sound hw
  have hlogged := h.logged hw
  refine ⟨h.preparing hw, fun n hn hmem => ?_, fun p hp => absurd hp List.not_mem_nil,
    List.nodup_nil, fun p hp => absurd hp List.not_mem_nil, fun p => ?_⟩
  · exact ht.fresh_order hn (List.mem_of_mem_filter hmem)
  · simp only [Process.started, List.mem_filter, ht.order_live, decide_eq_true_eq,
      List.flatMap_nil]
    constructor
    · intro hp
      exact ⟨hlogged.live p hp, fun hmem => hmem.2 hp, List.not_mem_nil⟩
    · rintro ⟨hp, hnot, -⟩
      exact by_contra fun hlog => hnot ⟨hp, hlog⟩

theorem Started.warned (hw : Function.Injective w.newV4) (h : Started w s) (hopen : w.LogsOpen) :
    (Process.started s).warned = [] := by
  obtain ⟨ht, -⟩ := h.tracked_sound hw
  refine List.filter_eq_nil_iff.mpr fun p hp hnot => ?_
  exact of_decide_eq_true hnot ((h.logged hw).made hopen p ((ht.order_live p).mp hp))

/-- The byte logs belong to the live panes, however the sections of the calls interleave, if
no call ends a pane between the registration of the pane and the creation of its log. -/
theorem logsSettled_along (w : World) (hw : Function.Injective w.newV4) (s : SessionManager)
    (hs : Started w s) (turns : List (Turn Op))
    (h : Meets (lockSections w).turn SparesUnlogged ⟨Process.started s, []⟩ turns) :
    Along (lockSections w).turn (LogsSettled w) ⟨Process.started s, []⟩ turns := by
  refine along_of_invariant (I := fun m => Logging w m.state m.pending ∧
      (w.LogsOpen → m.state.warned = [])) ?_ ?_ ⟨hs.logging hw, hs.warned hw⟩ h
  · rintro m turn ⟨hm, hwarned⟩ hspares
    exact ⟨hm.turn hw hspares, fun hopen => warned_turn hopen (hwarned hopen) turn⟩
  · rintro ⟨p, todo⟩ ⟨hm, hwarned⟩ rfl
    refine ⟨hm.settled, fun hopen q => ?_⟩
    rw [hm.settled q, hwarned hopen]
    simp

/-- A world where no log file can be opened. -/
def World.logless : World := { World.counting with openLog := fun _ => .error "read-only" }

/-- A log file cannot be opened, or a tab is created and another client closes its pane before
the log is made. -/
theorem not_logs_of_live :
    (Started .logless (emptyStart .logless) ∧ Started .counting (emptyStart .counting)) ∧
    (∃ turns : List (Turn Op), ∃ m, m = run (lockSections .logless).turn
        ⟨Process.started (emptyStart .logless), []⟩ turns ∧ m.pending = [] ∧
      ∃ p, p ∈ m.state.sm.panes ∧ p ∉ m.state.sm.byteLogs) ∧
    ∃ turns : List (Turn Op), ∃ m, m = run (lockSections .counting).turn
        ⟨Process.started (emptyStart .counting), []⟩ turns ∧ m.pending = [] ∧
      ∃ p, p ∈ m.state.sm.byteLogs ∧ p ∉ m.state.sm.panes := by
  refine ⟨⟨started_emptyStart .logless, started_emptyStart .counting⟩, ⟨[.start (.createTab 0 none .default none),
    .resume 0, .resume 0], _, rfl, rfl, ⟨⟨1⟩⟩, by decide, by decide⟩, ?_⟩
  exact ⟨[.start (.createTab 0 none .default none), .start (.closePane ⟨⟨1⟩⟩), .resume 0,
    .resume 0], _, rfl, rfl, ⟨⟨1⟩⟩, by decide, by decide⟩

/-- Two clients create tabs, section by section, and a third closes the pane that has a log. -/
theorem logsSettled_interleaved :
    Along (lockSections .counting).turn (LogsSettled .counting)
      ⟨Process.started (emptyStart .counting), []⟩
      [.start (.createTab 0 none .default none), .start (.createTab 0 none .default none),
        .resume 0, .start (.closePane ⟨⟨1⟩⟩), .resume 0, .resume 1, .resume 0, .resume 0] := by
  refine logsSettled_along .counting World.counting_injective (emptyStart .counting)
    (started_emptyStart .counting) _ ?_
  simp only [Meets, SparesUnlogged]
  decide

end Forgetty
