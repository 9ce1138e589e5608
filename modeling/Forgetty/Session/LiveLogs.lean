import Forgetty.Session.BetweenSections

/-! Byte logs and live panes, section by section. A log is made in a section of its own after
the pane was registered, and nothing looks there whether the pane is still registered. As
long as no pane is dropped in between, the panes with a log are the live ones whose log could
be opened and is not still to be made. -/

namespace Forgetty

open Lib SessionManager

/-- The panes whose logs are still to be made. -/
def Todo.unlogged : Todo → List PaneId
  | .createLog p ps => p :: ps
  | .takeOutput _ ps => ps
  | _ => []

@[simp] theorem Todo.unlogged_drain (ps : List PaneId) :
    (drain ps).toList.flatMap unlogged = ps := by
  cases ps with
  | nil => rfl
  | cons p ps => exact List.append_nil (p :: ps)

/-- The panes with a log are the live ones whose log could be opened. -/
def Process.LogsOfLive (s : Process) : Prop :=
  ∀ p, p ∈ s.sm.byteLogs ↔ p ∈ s.sm.panes ∧ p ∉ s.warned

/-- No call ends a pane whose log is still to be made. -/
def SparesUnlogged (m : Shared Process Todo) : Turn Op → Prop
  | .start op => ∀ p ∈ m.pending.flatMap Todo.unlogged, p ∉ m.state.sm.ended (.op op)
  | .resume _ => True

/-- The invariant: the logs that are missing are those that are still to be made or could not
be opened, and no warning is about a pane that is still to come. -/
structure Logging (w : World) (s : Process) (todo : List Todo) : Prop
    extends Preparing w s.sm todo where
  warned_fresh : ∀ n, s.sm.minted ≤ n → ⟨w.newV4 n⟩ ∉ s.warned
  warned_new : ∀ p ∈ todo.flatMap Todo.prepared, p ∉ s.warned
  unlogged_nodup : (todo.flatMap Todo.unlogged).Nodup
  unlogged_live : ∀ p ∈ todo.flatMap Todo.unlogged, p ∈ s.sm.panes ∧ p ∉ s.warned
  logs : ∀ p, p ∈ s.sm.byteLogs ↔
    p ∈ s.sm.panes ∧ p ∉ s.warned ∧ p ∉ todo.flatMap Todo.unlogged

namespace Logging

variable {w : World} {s : Process} {todo todo' : List Todo}

theorem congr (h : Logging w s todo)
    (hprepared : (todo'.flatMap Todo.prepared).Perm (todo.flatMap Todo.prepared))
    (hunlogged : (todo'.flatMap Todo.unlogged).Perm (todo.flatMap Todo.unlogged)) :
    Logging w s todo' where
  toPreparing := h.toPreparing.congr hprepared
  warned_fresh := h.warned_fresh
  warned_new p hp := h.warned_new p (hprepared.mem_iff.mp hp)
  unlogged_nodup := hunlogged.nodup_iff.mpr h.unlogged_nodup
  unlogged_live p hp := h.unlogged_live p (hunlogged.mem_iff.mp hp)
  logs p := by
    rw [hunlogged.mem_iff]
    exact h.logs p

theorem perm (h : Logging w s todo) (hp : todo.Perm todo') : Logging w s todo' :=
  h.congr (hp.symm.flatMap_right _) (hp.symm.flatMap_right _)

/-- When nothing is pending the logs are those of the live panes. -/
theorem settled (h : Logging w s []) : s.LogsOfLive := by
  intro p
  rw [h.logs]
  simp

/-- What is prepared is forgotten. -/
theorem forget {t : Todo} (h : Logging w s (t :: todo)) (ht : t.unlogged = []) :
    Logging w s todo where
  toPreparing := by
    refine ⟨fun n hn => ?_, ?_, fun p hp => h.new p (List.mem_append_right _ hp)⟩
    · obtain ⟨hpanes, hnot⟩ := h.fresh n hn
      exact ⟨hpanes, fun hmem => hnot (List.mem_append_right _ hmem)⟩
    · exact (List.nodup_append.mp h.nodup).2.1
  warned_fresh := h.warned_fresh
  warned_new p hp := h.warned_new p (List.mem_append_right _ hp)
  unlogged_nodup := (List.nodup_append.mp h.unlogged_nodup).2.1
  unlogged_live p hp := h.unlogged_live p (List.mem_append_right _ hp)
  logs p := by
    rw [h.logs, List.flatMap_cons, ht, List.nil_append]

/-- A section that drops panes whose logs are made, and registers new panes whose logs are
still to be made. -/
theorem registers (h : Logging w s todo) {gone new : List PaneId} {t : SessionManager}
    (hr : Registers gone new s.sm t) (hspares : ∀ p ∈ todo.flatMap Todo.unlogged, p ∉ gone)
    (hnodup : new.Nodup)
    (hnew : ∀ p ∈ new, p ∉ s.sm.panes ∧ p ∉ s.warned ∧ p ∉ todo.flatMap Todo.prepared)
    (hold : ∀ p ∈ new, ∀ n, t.minted ≤ n → p ≠ ⟨w.newV4 n⟩) :
    Logging w { s with sm := t } ((Todo.drain new).toList ++ todo) where
  toPreparing := (h.toPreparing.registers hr (fun p hp => (hnew p hp).2.2) hold).drained new
  warned_fresh n hn := h.warned_fresh n (hr.minted.trans hn)
  warned_new p hp := by
    rw [List.flatMap_append, Todo.prepared_drain, List.nil_append] at hp
    exact h.warned_new p hp
  unlogged_nodup := by
    rw [List.flatMap_append, Todo.unlogged_drain, List.nodup_append]
    refine ⟨hnodup, h.unlogged_nodup, fun p hp q hq heq => ?_⟩
    exact (hnew p hp).1 (heq ▸ (h.unlogged_live q hq).1)
  unlogged_live p hp := by
    rw [List.flatMap_append, Todo.unlogged_drain, List.mem_append] at hp
    rcases hp with hp | hp
    · exact ⟨(hr.panes p).mpr (Or.inr hp), (hnew p hp).2.1⟩
    · obtain ⟨hlive, hwarned⟩ := h.unlogged_live p hp
      exact ⟨(hr.panes p).mpr (Or.inl ⟨hlive, hspares p hp⟩), hwarned⟩
  logs p := by
    rw [List.flatMap_append, Todo.unlogged_drain, hr.byteLogs, hr.panes, h.logs, List.mem_append,
      not_or]
    constructor
    · rintro ⟨⟨hlive, hwarned, hlogged⟩, hgone⟩
      exact ⟨Or.inl ⟨hlive, hgone⟩, hwarned, fun hmem => (hnew p hmem).1 hlive, hlogged⟩
    · rintro ⟨⟨hlive, hgone⟩ | hmem, hwarned, hnot, hlogged⟩
      · exact ⟨⟨hlive, hwarned, hlogged⟩, hgone⟩
      · exact absurd hmem hnot

/-- The log of a live pane is made, or its file cannot be opened. -/
theorem createLog {p : PaneId} {ps : List PaneId} (h : Logging w s (.createLog p ps :: todo)) :
    Logging w (Todo.section w (.createLog p ps) s).1
      ((Todo.section w (.createLog p ps) s).2.toList ++ todo) := by
  obtain ⟨hlive, hwarned⟩ := h.unlogged_live p List.mem_cons_self
  have hnodup := h.unlogged_nodup
  rw [List.flatMap_cons, Todo.unlogged, List.cons_append, List.nodup_cons] at hnodup
  have hprepared := h.toPreparing.createLog
  simp only [Todo.section, createByteLogFor] at hprepared ⊢
  generalize w.openLog s.sm.opened = opened at hprepared ⊢
  cases opened with
  | error e =>
    -- The pane is live, so a warning about it is not about one that is still to come.
    have hwarned {q : PaneId} (hq : q ∉ s.warned) (hne : q ≠ p) : q ∉ s.warned ++ [p] := by
      simp [hq, hne]
    refine ⟨hprepared, fun n hn => ?_, fun q hq => ?_, hnodup.2, fun q hq => ?_, fun q => ?_⟩
    · exact hwarned (h.warned_fresh n hn) fun heq => (h.fresh n hn).1 (heq ▸ hlive)
    · exact hwarned (h.warned_new q hq) fun heq => h.new q hq (heq ▸ hlive)
    · obtain ⟨hq', hnot⟩ := h.unlogged_live q (List.mem_cons_of_mem p hq)
      exact ⟨hq', hwarned hnot fun heq => hnodup.1 (heq ▸ hq)⟩
    · refine (h.logs q).trans ?_
      simp only [List.flatMap_cons, Todo.unlogged, List.cons_append, List.mem_cons,
        List.mem_append, not_or, Option.toList, List.nil_append]
      tauto
  | ok _ =>
    refine ⟨hprepared, h.warned_fresh, h.warned_new, hnodup.2, fun q hq => ?_, fun q => ?_⟩
    · exact h.unlogged_live q (List.mem_cons_of_mem p hq)
    · have hlogs := h.logs q
      simp only [List.flatMap_cons, Todo.unlogged, List.cons_append, List.mem_cons, not_or,
        Option.toList, List.nil_append] at hlogs ⊢
      rw [PMap.mem_insert, hlogs]
      constructor
      · rintro (rfl | ⟨hq, hnot, -, hlogged⟩)
        · exact ⟨hlive, hwarned, hnodup.1⟩
        · exact ⟨hq, hnot, hlogged⟩
      · rintro ⟨hq, hnot, hlogged⟩
        by_cases hqp : q = p
        · exact Or.inl hqp
        · exact Or.inr ⟨hq, hnot, hqp, hlogged⟩

/-- Children are spawned, and their ids are taken. -/
theorem spawn (hw : Function.Injective w.newV4) {dupName : String} {insertAt : ℕ} {size : PtySize}
    {cwds : List (Option PathBuf)}
    (h : Logging w s (.spawn dupName insertAt size cwds :: todo)) :
    Logging w (Todo.section w (.spawn dupName insertAt size cwds) s).1
      ((Todo.section w (.spawn dupName insertAt size cwds) s).2.toList ++ todo) := by
  have hprepared := h.toPreparing.spawn hw
  have h : Logging w s todo := h.forget rfl
  obtain ⟨hr, hmade⟩ := registers_duplicateSpawn (s := s.sm) hw size cwds.length cwds []
  simp only [Todo.section] at hprepared ⊢
  generalize duplicateSpawn w size cwds.length cwds [] s.sm = r at hr hmade hprepared ⊢
  obtain ⟨t, r⟩ := r
  have ht := h.registers hr (fun _ _ => List.not_mem_nil) List.nodup_nil
    (fun _ hp => absurd hp List.not_mem_nil) (fun _ hp => absurd hp List.not_mem_nil)
  cases r with
  | error e => exact ht
  | ok spawned =>
    refine ⟨hprepared, ht.warned_fresh, fun p hp => ?_, ht.unlogged_nodup, ht.unlogged_live, ht.logs⟩
    rcases List.mem_append.mp hp with hp | hp
    · obtain ⟨made, rfl, hm⟩ := hmade spawned rfl
      obtain ⟨k, hk, -, rfl⟩ := hm.2 p hp
      exact h.warned_fresh k hk
    · exact ht.warned_new p hp

/-- The copy is inserted, and its panes are drained next. -/
theorem commit {dupName : String} {insertAt : ℕ} {size : PtySize}
    {spawned : List (PaneId × PtyBridge × PathBuf)}
    (h : Logging w s (.commit dupName insertAt size spawned :: todo)) :
    Logging w (Todo.section w (.commit dupName insertAt size spawned) s).1
      ((Todo.section w (.commit dupName insertAt size spawned) s).2.toList ++ todo) := by
  obtain ⟨-, hnodup, hnew, hold⟩ := h.toPreparing.forget
  obtain ⟨hr, hpanes⟩ := registers_duplicateCommit (w := w) (s := s.sm) size dupName insertAt spawned
  simp only [Todo.section, hpanes]
  refine (h.forget rfl).registers hr (fun _ _ => List.not_mem_nil) hnodup (fun p hp => ?_)
    fun p hp n hn => hold p hp n (hr.minted.trans hn)
  exact ⟨(hnew p hp).1, h.warned_new p (List.mem_append_left _ hp), (hnew p hp).2⟩

theorem takeOutput {p : PaneId} {ps : List PaneId} (h : Logging w s (.takeOutput p ps :: todo)) :
    Logging w (Todo.section w (.takeOutput p ps) s).1
      ((Todo.section w (.takeOutput p ps) s).2.toList ++ todo) := by
  have hprepared := h.toPreparing.takeOutput
  have h : Logging w s ((Todo.drain ps).toList ++ todo) := by
    refine h.congr (List.Perm.of_eq ?_) (List.Perm.of_eq ?_)
    · rw [List.flatMap_append, Todo.prepared_drain]
      rfl
    · rw [List.flatMap_append, Todo.unlogged_drain]
      rfl
  refine ⟨hprepared, fun n hn => ?_, h.warned_new, h.unlogged_nodup, fun q hq => ?_, fun q => ?_⟩
  · simp only [Todo.section, takePaneOutputRx_minted] at hn ⊢
    exact h.warned_fresh n hn
  · simp only [Todo.section, takePaneOutputRx_mem_panes]
    exact h.unlogged_live q hq
  · simp only [Todo.section, takePaneOutputRx_mem_panes, takePaneOutputRx_byteLogs]
    exact h.logs q

/-- The first section of a call that spares the panes whose logs are still to be made. -/
theorem start (hw : Function.Injective w.newV4) (h : Logging w s todo) (op : Op)
    (hspares : ∀ p ∈ todo.flatMap Todo.unlogged, p ∉ s.sm.ended (.op op)) :
    Logging w (s.start w op).1 ((s.start w op).2.toList ++ todo) := by
  rcases start_cases op s with ⟨-, heq | ⟨_, _, _, _, heq⟩⟩ | ⟨hdup, heq⟩ <;> rw [heq]
  · exact h
  · exact h.congr (List.Perm.refl _) (List.Perm.refl _)
  · obtain ⟨gone, hgone, hr, hm⟩ := registers_locked (Or.inr (h.fresh _ le_rfl).1) hdup
    obtain ⟨hnew, hold⟩ := h.toPreparing.minted hw hm
    refine h.registers hr (fun p hp hmem => hspares p hp (hgone hmem)) hm.1 (fun p hp => ?_) hold
    obtain ⟨k, hk, -, rfl⟩ := hm.2 p hp
    exact ⟨(hnew _ hp).1, h.warned_fresh k hk, (hnew _ hp).2⟩

/-- The invariant is kept by every turn that spares the panes whose logs are still to be
made. -/
theorem turn (hw : Function.Injective w.newV4) {m : Shared Process Todo}
    (h : Logging w m.state m.pending) {turn : Turn Op} (hspares : SparesUnlogged m turn) :
    Logging w ((lockSections w).turn m turn).state ((lockSections w).turn m turn).pending := by
  refine Sections.turn_invariant (P := Logging w) (fun s ts ts' hp h => h.perm hp) turn ?_ ?_ h
  · rintro op rfl h
    exact h.start hw op hspares
  · rintro k t rest rfl - - h
    cases t with
    | spawn dupName insertAt size cwds => exact h.spawn hw
    | commit dupName insertAt size spawned => exact h.commit
    | createLog p ps => exact h.createLog
    | takeOutput p ps => exact h.takeOutput

end Logging

end Forgetty
