import Forgetty.Session.BetweenSections
import Forgetty.Session.Heard

/-! The closing of a pane, over the sections of all calls in any order: those of clients, of
drain tasks and of a cold start, which brings pane ids along. A pane that leaves the registry
is told to be closed, once, and puts nothing out after that, exactly as long as a workspace is
deleted only while all its leaves are live. A leaf of a split outlives its pane. -/

namespace Forgetty

open Lib SessionManager

/-! ### The sections of all calls -/

/-- The first section of a call that may bring the id of the new pane along. -/
def Process.startCall (w : World) (call : Call) (s : Process) : Process × Option Todo :=
  match call with
  | .op op => s.start w op
  | .createTabWithPaneId i cwd size command p =>
    let made := s.sm.createTabLocked w i cwd size command p
    ({ s with sm := made.1 }, Todo.drain (made.2.toOption.map (·.1)).toList)
  | .splitPaneWithRatioAndPaneId p direction ratio size cwd q =>
    if p ∈ s.sm.panes then
      let made := s.sm.splitLocked w "split_pane_with_ratio" p direction ratio size cwd q
      ({ s with sm := made.1 }, Todo.drain made.2.toOption.toList)
    else (s, none)

/-- The calls of a cold start, of all clients and of drain tasks, section by section. -/
def callSections (w : World) : Sections Process Call Todo where
  start := Process.startCall w
  resume := Todo.section w

/-- A daemon that comes up, before its first call. -/
def launched (w : World) (logFiles : PMap Uuid Bytes) (ringKb maxMb : UInt32) : Shared Process Todo :=
  ⟨⟨fresh w logFiles ringKb maxMb, []⟩, []⟩

/-! ### Closed once -/

/-- A pane is told to be closed at most once, and no output of it is told after that. -/
def ClosedOnce (sent : List SessionEvent) (p : PaneId) : Prop :=
  sent.count (.paneClosed p) ≤ 1 ∧
    ∀ before after, sent = before ++ .paneClosed p :: after → ∀ data, .ptyOutput p data ∉ after

/-- In every state of a run the panes are closed once, exactly once if they were registered
before and are not any more. -/
def ClosesOnce (w : World) (m : Shared Process Todo) (turns : List (Turn Call)) : Prop :=
  ∀ k n, k ≤ n → ∀ p,
    ClosedOnce (run (callSections w).turn m (turns.take n)).state.sm.eventTx.sent p ∧
      (p ∈ (run (callSections w).turn m (turns.take k)).state.sm.panes →
        p ∉ (run (callSections w).turn m (turns.take n)).state.sm.panes →
        (run (callSections w).turn m (turns.take n)).state.sm.eventTx.sent.count (.paneClosed p) = 1)

section Words

theorem word_eq_ended {e : SessionEvent} {p : PaneId} :
    e.word = some (.ended p) ↔ e = .paneClosed p := by
  cases e <;> simp [SessionEvent.word]

theorem word_eq_said {e : SessionEvent} {p : PaneId} :
    e.word = some (.said p) ↔ ∃ data, e = .ptyOutput p data := by
  cases e <;> simp [SessionEvent.word]

theorem count_ended (sent : List SessionEvent) (p : PaneId) :
    (sent.filterMap SessionEvent.word).count (.ended p) = sent.count (.paneClosed p) := by
  induction sent with
  | nil => rfl
  | cons e sent ih =>
    by_cases he : e = .paneClosed p
    · rw [List.filterMap_cons_some (word_eq_ended.mpr he), List.count_cons_self, ih, he,
        List.count_cons_self]
    · rw [List.count_cons_of_ne he]
      cases hword : e.word with
      | none => rw [List.filterMap_cons_none hword, ih]
      | some word =>
        rw [List.filterMap_cons_some hword, List.count_cons_of_ne, ih]
        rintro rfl
        exact he (word_eq_ended.mp hword)

theorem mem_ended {sent : List SessionEvent} {p : PaneId} :
    .ended p ∈ sent.filterMap SessionEvent.word ↔ .paneClosed p ∈ sent := by
  simp [List.mem_filterMap, word_eq_ended]

/-- What is heard is final exactly if every pane is closed once. -/
theorem final_iff_closedOnce (sent : List SessionEvent) :
    Final (sent.filterMap SessionEvent.word) ↔ ∀ p, ClosedOnce sent p := by
  rw [final_iff]
  refine forall_congr' fun p => and_congr (by rw [count_ended]) ⟨fun h => ?_, fun h => ?_⟩
  · rintro before after rfl data hmem
    refine h (before.filterMap SessionEvent.word) (after.filterMap SessionEvent.word) ?_ ?_
    · rw [List.filterMap_append, List.filterMap_cons_some (word_eq_ended.mpr rfl)]
    · exact List.mem_filterMap.mpr ⟨_, hmem, rfl⟩
  · intro before after heq hmem
    obtain ⟨sent₁, sent₂, rfl, -, hrest⟩ := List.filterMap_eq_append_iff.mp heq
    obtain ⟨quiet, e, sent₃, rfl, -, he, rfl⟩ := List.filterMap_eq_cons_iff.mp hrest
    obtain ⟨e', he', hword⟩ := List.mem_filterMap.mp hmem
    obtain ⟨data, rfl⟩ := word_eq_said.mp hword
    obtain rfl := word_eq_ended.mp he
    exact h (sent₁ ++ quiet) sent₃ (by simp) data he'

end Words

/-! ### What holds between two sections -/

/-- The pane is registered or was closed. -/
def Used (s : SessionManager) (p : PaneId) : Prop := p ∈ s.panes ∨ .ended p ∈ s.heard

/-- No UUID still to be handed out and no pane that is prepared was ever used. -/
def Reserved (w : World) (s : SessionManager) (todo : List Todo) : Prop :=
  Reserve w.paneId s.minted (Used s) (todo.flatMap Todo.prepared)

/-- The invariant: what is heard is final and no live pane has ended, while every leaf that
is not live has. -/
structure Settled (w : World) (s : SessionManager) (todo : List Todo) : Prop where
  tracked : Tracked w s
  registry : Registry (· ∈ s.panes) s.heard
  leaves : ∀ p ∈ s.layout.leaves, Used s p
  reserved : Reserved w s todo

/-- What a section leads to: panes come that were never used and are not prepared. -/
structure Advances (w : World) (todo : List Todo) (new : List PaneId) (es : List (Word PaneId))
    (s t : SessionManager) : Prop where
  passes : Passes new es s t
  tracked : Tracked w t
  unused : ∀ p ∈ new, ¬Used s p ∧
    Free w.paneId t.minted (todo.flatMap Todo.prepared) p

/-- A pane that was used stays used. -/
theorem SessionManager.Passes.used {new : List PaneId} {es : List (Word PaneId)}
    {s t : SessionManager} (h : Passes new es s t) {p : PaneId} (hp : Used s p) : Used t p := by
  rw [Used, h.panes, h.heard, List.mem_append]
  unfold Used at hp
  tauto

namespace Settled

variable {w : World} {s t : SessionManager} {todo todo' : List Todo} {new : List PaneId}
  {es : List (Word PaneId)}

theorem congr (h : Settled w s todo)
    (hp : (todo'.flatMap Todo.prepared).Perm (todo.flatMap Todo.prepared)) : Settled w s todo' where
  tracked := h.tracked
  registry := h.registry
  leaves := h.leaves
  reserved := h.reserved.perm hp

/-- What is heard in a section is about panes that are live or have ended. -/
theorem known (h : Settled w s todo) (hp : Passes new es s t) :
    ∀ e ∈ es, e.key ∈ s.panes ∨ .ended e.key ∈ s.heard :=
  fun e he => h.leaves _ (hp.known e he)

/-- A section that tells of live panes only. -/
theorem advances (h : Settled w s todo) (ha : Advances w todo new es s t)
    (hlive : ∀ e ∈ es, e.key ∈ s.panes) : Settled w t todo := by
  obtain ⟨hp, htracked, hunused⟩ := ha
  have hended (p : PaneId) : .ended p ∈ t.heard ↔ .ended p ∈ s.heard ∨ .ended p ∈ es := by
    rw [hp.heard, List.mem_append]
  refine ⟨htracked, ?_, fun p hleaf => ?_, ?_⟩
  · rw [hp.heard]
    refine h.registry.step hp.final hlive fun p hpt => ?_
    refine ((hp.panes p).mp hpt).imp_right fun hnew => ?_
    exact not_or.mp (hunused p hnew).1
  · rcases hp.leaves p hleaf with hold | hnew
    · exact hp.used (h.leaves p hold)
    · exact Or.inl ((hp.panes p).mpr (Or.inr hnew))
  · refine h.reserved.use hp.minted (fun p hused => ?_) fun p hnew => (hunused p hnew).2
    rw [Used, hended, hp.panes] at hused
    have hheard : .ended p ∈ es → p ∈ s.panes := fun he => hlive _ he
    unfold Used
    tauto

/-- The events of a section keep every pane closed once exactly if they are about live panes. -/
theorem closedOnce_iff (h : Settled w s todo) (hp : Passes new es s t) :
    (∀ p, ClosedOnce t.eventTx.sent p) ↔ ∀ e ∈ es, e.key ∈ s.panes := by
  rw [← final_iff_closedOnce, ← h.registry.final_append_iff hp.final (h.known hp), ← hp.heard]
  rfl

theorem closedOnce (h : Settled w s todo) (p : PaneId) : ClosedOnce s.eventTx.sent p :=
  (final_iff_closedOnce _).mp h.registry.final p

end Settled

/-! ### The sections -/

/-- The id is of no pane: of none that is or was registered, of none that is prepared, and no
UUID still to be handed out is the same. -/
structure NewId (w : World) (p : PaneId) (m : Shared Process Todo) : Prop where
  not_live : p ∉ m.state.sm.panes
  not_closed : .paneClosed p ∉ m.state.sm.eventTx.sent
  not_prepared : p ∉ m.pending.flatMap Todo.prepared
  not_minted : ∀ n, m.state.sm.minted ≤ n → p ≠ ⟨w.newV4 n⟩

/-- An id that a call brings along for a pane is new. -/
def BringsNew (w : World) (m : Shared Process Todo) : Turn Call → Prop
  | .start (.createTabWithPaneId _ _ _ _ p) => NewId w p m
  | .start (.splitPaneWithRatioAndPaneId _ _ _ _ _ q) => NewId w q m
  | _ => True

/-- A workspace is deleted only while the panes of all its leaves are live. -/
def DeletesLive (m : Shared Process Todo) : Turn Call → Prop
  | .start (.op op) => EndsLive m.state.sm op
  | _ => True

section Start

variable {w : World} {s : SessionManager} {todo : List Todo}

theorem SessionManager.Tracked.of_drained {ps : List PaneId} (h : Tracked w (spawnDrainTasks w ps s)) :
    Tracked w s where
  leaves_nodup := by
    have := h.leaves_nodup
    rwa [spawnDrainTasks_layout] at this
  live_leaf p hp := by
    have := h.live_leaf p ((spawnDrainTasks_mem_panes ps p s).mpr hp)
    rwa [spawnDrainTasks_layout] at this
  order_nodup := by
    have := h.order_nodup
    rwa [spawnDrainTasks_paneOrder] at this
  order_live p := by
    have := h.order_live p
    rwa [spawnDrainTasks_paneOrder, spawnDrainTasks_mem_panes] at this
  fresh n hn := by
    have := h.fresh n
    rw [spawnDrainTasks_minted, spawnDrainTasks_layout] at this
    exact this hn
  workspaces := by
    have := h.workspaces
    rwa [spawnDrainTasks_layout] at this

theorem Advances.of_drained {new : List PaneId} {es : List (Word PaneId)} {t : SessionManager}
    {ps : List PaneId} (h : Advances w todo new es s (spawnDrainTasks w ps t)) :
    Advances w todo new es s t where
  passes := h.passes.of_drained
  tracked := h.tracked.of_drained
  unused p hp := by
    have := h.unused p hp
    rwa [spawnDrainTasks_minted] at this

/-- Ids that were handed out in between are new. -/
theorem Settled.advances_of_minted (hw : Function.Injective w.newV4) (h : Settled w s todo)
    {new : List PaneId} {es : List (Word PaneId)} {t : SessionManager} (hp : Passes new es s t)
    (ht : Tracked w t) (hm : Minted w new s t) : Advances w todo new es s t where
  passes := hp
  tracked := ht
  unused := h.reserved.free_of_handedOut (World.paneId_injective hw) hm

theorem Settled.locked (hw : Function.Injective w.newV4) (h : Settled w s todo) {op : Op}
    (hdup : ∀ i name size, op ≠ .duplicateWorkspace i name size) :
    ∃ new es, Advances w todo new es s (s.locked w op).1 ∧
      ((∀ e ∈ es, e.key ∈ s.panes) ↔ EndsLive s op) := by
  obtain ⟨new, es, hp, hm, hiff⟩ := passes_apply hw h.tracked hdup
  have hwhole := h.advances_of_minted hw hp (h.tracked.apply hw op) hm
  rw [apply_eq_locked hdup] at hwhole
  exact ⟨new, es, hwhole.of_drained, hiff⟩

/-- At most the pane whose id the caller brings along comes. -/
theorem Settled.advances_of_brought (h : Settled w s todo) {p : PaneId} {new : List PaneId}
    {t : SessionManager} (hsub : new = [] ∨ new = [p]) (hheard : t.heard = s.heard)
    (he : Effect [] new s t) (hunused : ¬Used s p)
    (hfree : Free w.paneId s.minted (todo.flatMap Todo.prepared) p) :
    Advances w todo new [] s t := by
  have hp : ∀ q ∈ new, q = p := by
    rcases hsub with rfl | rfl <;> simp
  have hd : new.Nodup := by
    rcases hsub with rfl | rfl <;> simp
  refine ⟨he.passes_silent hheard, h.tracked.effect_of_new he hd (fun q hq hleaf => ?_)
    fun q hq n hn => ?_, fun q hq => ?_⟩
  · obtain rfl := hp q hq
    exact hunused (h.leaves q hleaf)
  · obtain rfl := hp q hq
    exact (hfree.mono he.minted).past n hn
  · obtain rfl := hp q hq
    exact ⟨hunused, hfree.mono he.minted⟩

theorem Settled.createTabLocked (h : Settled w s todo) (i : ℕ) (cwd : Option PathBuf)
    (size : PtySize) (command : Option (List String)) {p : PaneId} (hunused : ¬Used s p)
    (hfree : Free w.paneId s.minted (todo.flatMap Todo.prepared) p) :
    ∃ new, Advances w todo new [] s (s.createTabLocked w i cwd size command p).1 := by
  obtain ⟨new, hsub, he⟩ := effect_createTabWithPaneId w i cwd size command p s
  have hheard := @heard_createTabWithPaneId w s i cwd size command p
  have hwhole := h.advances_of_brought hsub hheard he hunused hfree
  rw [createTabWithPaneId_eq] at hwhole
  exact ⟨new, hwhole.of_drained⟩

theorem Settled.splitLocked (h : Settled w s todo) (caller : String) (p : PaneId)
    (direction : String) (ratio : F32) (size : PtySize) (cwd : Option PathBuf) {q : PaneId}
    (hunused : ¬Used s q)
    (hfree : Free w.paneId s.minted (todo.flatMap Todo.prepared) q) :
    ∃ new, Advances w todo new [] s (s.splitLocked w caller p direction ratio size cwd q).1 := by
  have hq : q ∉ s.panes := fun hq => hunused (Or.inl hq)
  have ho : q ∉ s.paneOrder := fun ho => hq ((h.tracked.order_live q).mp ho)
  obtain ⟨new, hsub, he⟩ := effect_splitAt w caller p direction ratio size cwd hq ho
  have hheard := @heard_splitAt w s caller p direction ratio size cwd q
  have hwhole := h.advances_of_brought hsub hheard he hunused hfree
  rw [splitAt_eq] at hwhole
  exact ⟨new, hwhole.of_drained⟩

/-- The first section of a call. -/
theorem Settled.start (hw : Function.Injective w.newV4) {m : Shared Process Todo}
    (h : Settled w m.state.sm m.pending) {call : Call} (hnew : BringsNew w m (.start call)) :
    (∃ new es, Advances w m.pending new es m.state.sm (m.state.startCall w call).1.sm ∧
      ((∀ e ∈ es, e.key ∈ m.state.sm.panes) ↔ DeletesLive m (.start call))) ∧
    (m.state.startCall w call).2.toList.flatMap Todo.prepared = [] := by
  have hsame : Advances w m.pending [] [] m.state.sm m.state.sm :=
    ⟨passes_refl _, h.tracked, by simp⟩
  have hbrings {p : PaneId} (hp : NewId w p m) : ¬Used m.state.sm p ∧
      Free w.paneId m.state.sm.minted
        (m.pending.flatMap Todo.prepared) p := by
    refine ⟨?_, hp.not_prepared, hp.not_minted⟩
    rintro (hlive | hended)
    · exact hp.not_live hlive
    · exact hp.not_closed (mem_ended.mp hended)
  match call with
  | .createTabWithPaneId i cwd size command p =>
    obtain ⟨hunused, hfree⟩ := hbrings hnew
    obtain ⟨new, hp⟩ := h.createTabLocked i cwd size command hunused hfree
    exact ⟨⟨new, [], hp, by simp [DeletesLive]⟩, Todo.prepared_drain _⟩
  | .splitPaneWithRatioAndPaneId p direction ratio size cwd q =>
    simp only [Process.startCall]
    split_ifs
    · obtain ⟨hunused, hfree⟩ := hbrings hnew
      obtain ⟨new, hp⟩ := h.splitLocked "split_pane_with_ratio" p direction ratio size cwd hunused hfree
      exact ⟨⟨new, [], hp, by simp [DeletesLive]⟩, Todo.prepared_drain _⟩
    · exact ⟨⟨[], [], hsame, by simp [DeletesLive]⟩, rfl⟩
  | .op op =>
    rw [Process.startCall]
    rcases start_cases op m.state with ⟨⟨i, name, size, rfl⟩, heq | ⟨_, _, _, _, heq⟩⟩ | ⟨hdup, heq⟩
    · rw [heq]
      exact ⟨⟨[], [], hsame, by simp [DeletesLive, EndsLive]⟩, rfl⟩
    · rw [heq]
      exact ⟨⟨[], [], hsame, by simp [DeletesLive, EndsLive]⟩, rfl⟩
    · rw [heq]
      exact ⟨h.locked hw hdup, Todo.prepared_drain _⟩

end Start

section Resume

variable {w : World} {todo : List Todo}

/-- A section of a call that was started before registers what the call has prepared. -/
theorem effect_section (hw : Function.Injective w.newV4) (t : Todo) (s : Process) :
    Effect [] t.prepared s.sm (t.section w s).1.sm := by
  cases t with
  | spawn dupName insertAt size cwds =>
    have h := (duplicateSpawn_spec hw size cwds.length cwds [] s.sm).1
    simp only [Todo.section]
    generalize duplicateSpawn w size cwds.length cwds [] s.sm = r at h
    obtain ⟨t, r⟩ := r
    cases r <;> exact h
  | commit dupName insertAt size spawned =>
    exact effect_duplicateCommit w size dupName insertAt spawned s.sm
  | createLog p ps =>
    simp only [Todo.section]
    exact .of_same (by simp) (by simp) (by simp) (by simp) (by simp)
  | takeOutput p ps =>
    simp only [Todo.section]
    unfold takePaneOutputRx
    split
    · exact .refl s.sm
    · exact effect_setPane (by assumption)

/-- It tells nothing of panes. -/
theorem heard_section (t : Todo) (s : Process) : (t.section w s).1.sm.heard = s.sm.heard := by
  cases t with
  | spawn dupName insertAt size cwds =>
    have h := @heard_duplicateSpawn w s.sm size cwds.length cwds []
    simp only [Todo.section]
    generalize duplicateSpawn w size cwds.length cwds [] s.sm = r at h
    obtain ⟨t, r⟩ := r
    cases r <;> exact h
  | commit dupName insertAt size spawned => exact heard_duplicateCommit size dupName insertAt spawned
  | createLog p ps => exact heard_createByteLogFor p
  | takeOutput p ps => exact heard_takePaneOutputRx p

/-- What is prepared may be registered, and then it is not prepared any more. -/
theorem Settled.register (hw : Function.Injective w.newV4) {s : Process} {t : Todo}
    (h : Settled w s.sm (t :: todo)) : Settled w (t.section w s).1.sm todo := by
  obtain ⟨hreserved, hd, hfree⟩ := h.reserved.release
  have he := effect_section hw t s
  have ht : Tracked w (t.section w s).1.sm := by
    refine h.tracked.effect_of_new he hd (fun p hp hleaf => ?_) fun p hp n hn => ?_
    · exact (hfree p hp).1 (h.leaves p hleaf)
    · exact ((hfree p hp).2.mono he.minted).past n hn
  have hbefore : Settled w s.sm todo := ⟨h.tracked, h.registry, h.leaves, hreserved⟩
  refine hbefore.advances ⟨he.passes_silent (heard_section t s), ht, fun p hp => ?_⟩ (by simp)
  exact ⟨(hfree p hp).1, (hfree p hp).2.mono he.minted⟩

/-- The children that are spawned for a copy are prepared. -/
theorem Settled.spawn (hw : Function.Injective w.newV4) {s : Process} {dupName : String}
    {insertAt : ℕ} {size : PtySize} {cwds : List (Option PathBuf)}
    (h : Settled w s.sm (.spawn dupName insertAt size cwds :: todo)) :
    Settled w (Todo.section w (.spawn dupName insertAt size cwds) s).1.sm
      ((Todo.section w (.spawn dupName insertAt size cwds) s).2.toList ++ todo) := by
  have he := effect_section hw (.spawn dupName insertAt size cwds) s
  have hheard := @heard_section w (.spawn dupName insertAt size cwds) s
  have ht := h.register hw
  have hreserved : Reserved w s.sm todo := h.reserved
  obtain ⟨-, hok⟩ := duplicateSpawn_spec hw size cwds.length cwds [] s.sm
  simp only [Todo.section] at he hheard ht ⊢
  generalize duplicateSpawn w size cwds.length cwds [] s.sm = r at he hok hheard ht
  obtain ⟨t, r⟩ := r
  cases r with
  | error e => exact ht
  | ok spawned =>
    obtain ⟨made, rfl, hm⟩ := hok spawned rfl
    refine ⟨ht.tracked, ht.registry, ht.leaves, ?_⟩
    have hheld := hreserved.hold (World.paneId_injective hw) he.minted hm
    refine hheld.keep le_rfl fun p hused => ?_
    rcases hused with hlive | hended
    · exact Or.inl (by simpa [Todo.prepared] using (he.keys p).mp hlive)
    · exact Or.inr (hheard ▸ hended)

/-- A section of a call that was started before. -/
theorem Settled.resume (hw : Function.Injective w.newV4) {s : Process} {t : Todo}
    (h : Settled w s.sm (t :: todo)) :
    Settled w (t.section w s).1.sm ((t.section w s).2.toList ++ todo) := by
  cases t with
  | spawn dupName insertAt size cwds => exact h.spawn hw
  | commit dupName insertAt size spawned =>
    refine (h.register hw).congr (List.Perm.of_eq ?_)
    simp only [Todo.section, List.flatMap_append, Todo.prepared_drain, List.nil_append]
  | createLog p ps => exact (h.register hw).congr (List.Perm.refl _)
  | takeOutput p ps =>
    refine (h.register hw).congr (List.Perm.of_eq ?_)
    simp only [Todo.section, List.flatMap_append, Todo.prepared_drain, List.nil_append]

end Resume

/-! ### Runs -/

section Runs

variable {w : World}

/-- A turn that finds live what it deletes keeps the invariant. -/
theorem Settled.turn (hw : Function.Injective w.newV4) {m : Shared Process Todo}
    (h : Settled w m.state.sm m.pending) {turn : Turn Call} (hnew : BringsNew w m turn)
    (hlive : DeletesLive m turn) :
    Settled w ((callSections w).turn m turn).state.sm ((callSections w).turn m turn).pending := by
  refine Sections.turn_invariant (P := fun (s : Process) todo => Settled w s.sm todo)
    (fun s ts ts' hp h => h.congr (hp.symm.flatMap_right _)) turn ?_ ?_ h
  · rintro call rfl h
    obtain ⟨⟨new, es, hadv, hiff⟩, hrest⟩ := h.start hw hnew
    refine (h.advances hadv (hiff.mpr hlive)).congr (List.Perm.of_eq ?_)
    rw [List.flatMap_append]
    simp only [callSections]
    rw [hrest, List.nil_append]
  · rintro k t rest rfl - - h
    exact h.resume hw

/-- A turn keeps every pane closed once exactly if it finds live what it deletes. -/
theorem Settled.closedOnce_turn_iff (hw : Function.Injective w.newV4) {m : Shared Process Todo}
    (h : Settled w m.state.sm m.pending) {turn : Turn Call} (hnew : BringsNew w m turn) :
    (∀ p, ClosedOnce ((callSections w).turn m turn).state.sm.eventTx.sent p) ↔
      DeletesLive m turn := by
  cases turn with
  | start call =>
    obtain ⟨⟨new, es, hadv, hiff⟩, -⟩ := h.start hw hnew
    exact (h.closedOnce_iff hadv.passes).trans hiff
  | resume k =>
    have hlive : DeletesLive m (.resume k) := trivial
    exact iff_of_true (h.turn hw hnew hlive).closedOnce hlive

/-- A pane that was used stays used. -/
theorem used_turn (hw : Function.Injective w.newV4) {m : Shared Process Todo}
    (h : Settled w m.state.sm m.pending) {turn : Turn Call} (hnew : BringsNew w m turn) {p : PaneId}
    (hp : Used m.state.sm p) : Used ((callSections w).turn m turn).state.sm p := by
  cases turn with
  | start call =>
    obtain ⟨⟨new, es, hadv, -⟩, -⟩ := h.start hw hnew
    exact hadv.passes.used hp
  | resume k =>
    rw [Sections.turn]
    split
    · exact hp
    · rename_i t _
      exact ((effect_section hw t m.state).passes_silent (heard_section t m.state)).used hp

theorem settled_launched (w : World) (logFiles : PMap Uuid Bytes)
    (ringKb maxMb : UInt32) :
    Settled w (launched w logFiles ringKb maxMb).state.sm
      (launched w logFiles ringKb maxMb).pending := by
  have ht := tracked_new w logFiles
  have hunused : ∀ p, ¬Used (fresh w logFiles ringKb maxMb) p := by
    rintro p (hlive | hended)
    · exact PMap.not_mem_empty p hlive
    · exact List.not_mem_nil hended
  refine ⟨⟨ht.1, ht.2, ht.3, ht.4, ht.5, ht.6⟩, .empty fun p hp => hunused p (Or.inl hp), ?_, ?_⟩
  · intro p hp
    exact absurd hp List.not_mem_nil
  · exact ⟨fun k _ => ⟨hunused _, List.not_mem_nil⟩, List.nodup_nil, fun p _ => hunused p⟩

theorem Settled.along_settled (hw : Function.Injective w.newV4) {m : Shared Process Todo}
    (h : Settled w m.state.sm m.pending) {turns : List (Turn Call)}
    (hnew : Meets (callSections w).turn (BringsNew w) m turns)
    (hlive : Meets (callSections w).turn DeletesLive m turns) :
    Along (callSections w).turn (fun m => Settled w m.state.sm m.pending) m turns :=
  along_of_invariant (I := fun m => Settled w m.state.sm m.pending)
    (J := fun m turn => BringsNew w m turn ∧ DeletesLive m turn)
    (fun _ _ h hturn => h.turn hw hturn.1 hturn.2) (fun _ h => h) h (meets_and.mpr ⟨hnew, hlive⟩)

/-- In a run that finds live what it deletes a pane that was used stays used. -/
theorem Settled.along_used (hw : Function.Injective w.newV4) {m : Shared Process Todo}
    (h : Settled w m.state.sm m.pending) {turns : List (Turn Call)}
    (hnew : Meets (callSections w).turn (BringsNew w) m turns)
    (hlive : Meets (callSections w).turn DeletesLive m turns) {p : PaneId} (hp : Used m.state.sm p) :
    Along (callSections w).turn
      (fun m => Settled w m.state.sm m.pending ∧ Used m.state.sm p) m turns := by
  refine along_of_invariant (I := fun m => Settled w m.state.sm m.pending ∧ Used m.state.sm p)
    (J := fun m turn => BringsNew w m turn ∧ DeletesLive m turn) ?_ (fun _ h => h) ⟨h, hp⟩
    (meets_and.mpr ⟨hnew, hlive⟩)
  rintro m turn ⟨h, hp⟩ ⟨hnew, hlive⟩
  exact ⟨h.turn hw hnew hlive, used_turn hw h hnew hp⟩

/-- In a run whose calls bring new ids along, panes are closed once exactly as long as every
workspace that is deleted has its leaves live. -/
theorem closesOnce_iff (w : World) (hw : Function.Injective w.newV4) (logFiles : PMap Uuid Bytes)
    (ringKb maxMb : UInt32) (turns : List (Turn Call))
    (hnew : Meets (callSections w).turn (BringsNew w) (launched w logFiles ringKb maxMb) turns) :
    ClosesOnce w (launched w logFiles ringKb maxMb) turns ↔
      Meets (callSections w).turn DeletesLive (launched w logFiles ringKb maxMb) turns := by
  have hstart := settled_launched w logFiles ringKb maxMb
  generalize launched w logFiles ringKb maxMb = m at hnew hstart ⊢
  have hiff : Along (callSections w).turn
      (fun m => ∀ p, ClosedOnce m.state.sm.eventTx.sent p) m turns ↔
        Meets (callSections w).turn DeletesLive m turns :=
    along_iff_meets_of (I := fun m => Settled w m.state.sm m.pending)
      (fun _ _ h _ hnew hlive => h.turn hw hnew hlive)
      (fun _ _ h _ hnew => h.closedOnce_turn_iff hw hnew) hstart hstart.closedOnce hnew
  rw [← hiff]
  constructor
  · intro h
    exact along_iff.mpr fun n p => (h n n le_rfl p).1
  · intro halong k n hkn p
    have hlive := hiff.mp halong
    refine ⟨along_iff.mp halong n p, fun hk hgone => ?_⟩
    obtain ⟨j, rfl⟩ := Nat.exists_eq_add_of_le hkn
    have hsettled := along_iff.mp (hstart.along_settled hw hnew hlive) k
    rw [← List.take_append_drop k turns, meets_append] at hnew hlive
    have hlast := along_iff.mp (hsettled.along_used hw hnew.2 hlive.2 (Or.inl hk)) j
    rw [← run_append, ← List.take_add] at hlast
    obtain ⟨hfinal, hused⟩ := hlast
    have hcount := hfinal.registry.final.count_ended_of_mem (hused.resolve_left hgone)
    rwa [heard, count_ended] at hcount

end Runs

/-- A tab the cold start brings along, a second workspace, and the first is deleted. -/
def restoredThenDeleted : List (Turn Call) :=
  [.start (.createTabWithPaneId 0 none .default none ⟨⟨0⟩⟩), .resume 0, .resume 0,
    .start (.op (.createWorkspace "work")), .start (.op (.deleteWorkspace 0))]

theorem closesOnce_restoredThenDeleted :
    ClosesOnce .counting (launched .counting .empty 1024 10) restoredThenDeleted := by
  have hid : NewId .counting ⟨⟨0⟩⟩ (launched .counting .empty 1024 10) := by
    refine ⟨by decide, by decide, by decide, fun n hn heq => ?_⟩
    have hzero : 0 = n := congrArg (fun p : PaneId => p.uuid.bits) heq
    exact absurd hn (by rw [← hzero]; decide)
  refine (closesOnce_iff .counting World.counting_injective .empty 1024 10 _ ?_).mpr ?_
  · exact ⟨hid, trivial, trivial, trivial, trivial, trivial⟩
  · refine ⟨trivial, trivial, trivial, trivial, ?_, trivial⟩
    change ∀ p ∈ SessionManager.ended _ _, p ∈ SessionManager.panes _
    decide

/-- A split whose second pane is closed, and then its workspace is deleted. -/
def splitThenDeleted : List (Turn Call) :=
  [.start (.op (.createTab 0 none .default none)), .resume 0, .resume 0,
    .start (.op (.splitPane ⟨⟨1⟩⟩ "horizontal" .default none)), .resume 0, .resume 0,
    .start (.op (.closePane ⟨⟨3⟩⟩)), .start (.op (.createWorkspace "work")),
    .start (.op (.deleteWorkspace 0))]

/-- The leaf that stayed is told to be closed again. -/
theorem not_closesOnce_splitThenDeleted :
    ¬ClosesOnce .counting (launched .counting .empty 1024 10) splitThenDeleted := by
  intro h
  have hcount := (h 9 9 le_rfl ⟨⟨3⟩⟩).1.1
  revert hcount
  decide

end Forgetty
