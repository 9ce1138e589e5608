import Forgetty.Session.Registry
import Forgetty.Lib.Reserve

/-! What holds between any two sections, however the calls interleave: no id comes back, and
the panes that a duplication has spawned are new until it registers them. -/

namespace Forgetty

open Lib SessionManager

/-- The panes that are spawned and not registered yet. -/
def Todo.prepared : Todo → List PaneId
  | .commit _ _ _ spawned => spawned.map (·.1)
  | _ => []

@[simp] theorem Todo.prepared_drain (ps : List PaneId) :
    (drain ps).toList.flatMap prepared = [] := by
  cases ps <;> rfl

/-- No UUID still to be handed out is in use, and what is prepared is new. -/
structure Preparing (w : World) (s : SessionManager) (todo : List Todo) : Prop where
  fresh : ∀ n, s.minted ≤ n → ⟨w.newV4 n⟩ ∉ s.panes ∧ ⟨w.newV4 n⟩ ∉ todo.flatMap Todo.prepared
  nodup : (todo.flatMap Todo.prepared).Nodup
  new : ∀ p ∈ todo.flatMap Todo.prepared, p ∉ s.panes

/-- The pane ids in the order they are handed out. -/
abbrev World.paneId (w : World) (n : ℕ) : PaneId := ⟨w.newV4 n⟩

theorem World.paneId_injective {w : World} (hw : Function.Injective w.newV4) :
    Function.Injective w.paneId := fun _ _ h => hw (PaneId.mk.inj h)

namespace Preparing

variable {w : World} {s t : SessionManager} {todo todo' : List Todo}

/-- The live panes are in use, and what is prepared is set aside. -/
theorem iff_reserve : Preparing w s todo ↔
    Reserve w.paneId s.minted (· ∈ s.panes) (todo.flatMap Todo.prepared) :=
  ⟨fun h => ⟨h.fresh, h.nodup, h.new⟩, fun h => ⟨h.fresh, h.nodup, h.apart⟩⟩

theorem congr (h : Preparing w s todo)
    (hp : (todo'.flatMap Todo.prepared).Perm (todo.flatMap Todo.prepared)) :
    Preparing w s todo' :=
  iff_reserve.mpr ((iff_reserve.mp h).perm hp)

theorem perm (h : Preparing w s todo) (hp : todo.Perm todo') : Preparing w s todo' :=
  h.congr (hp.symm.flatMap_right _)

/-- What is prepared may be registered: it is new, and in no other hands. -/
theorem forget {spawned : List (PaneId × PtyBridge × PathBuf)} {dupName : String} {insertAt : ℕ}
    {size : PtySize} (h : Preparing w s (.commit dupName insertAt size spawned :: todo)) :
    Preparing w s todo ∧ (spawned.map (·.1)).Nodup ∧
      (∀ p ∈ spawned.map (·.1), p ∉ s.panes ∧ p ∉ todo.flatMap Todo.prepared) ∧
      ∀ p ∈ spawned.map (·.1), ∀ n, s.minted ≤ n → p ≠ ⟨w.newV4 n⟩ := by
  obtain ⟨hrest, hmade, hfree⟩ := (iff_reserve.mp h).release
  refine ⟨iff_reserve.mpr hrest, hmade, fun p hp => ?_, fun p hp => (hfree p hp).2.past⟩
  exact ⟨(hfree p hp).1, (hfree p hp).2.not_aside⟩

/-- A section that registers panes which are neither prepared nor still to be made. -/
theorem registers (h : Preparing w s todo) {gone new : List PaneId} (hr : Registers gone new s t)
    (hnew : ∀ p ∈ new, p ∉ todo.flatMap Todo.prepared)
    (hold : ∀ p ∈ new, ∀ n, t.minted ≤ n → p ≠ ⟨w.newV4 n⟩) : Preparing w t todo := by
  have hfree : ∀ p ∈ new, Free w.paneId t.minted (todo.flatMap Todo.prepared) p :=
    fun p hp => ⟨hnew p hp, hold p hp⟩
  refine iff_reserve.mpr ((iff_reserve.mp h).use hr.minted (fun p hp => ?_) hfree)
  exact ((hr.panes p).mp hp).imp_left And.left

/-- A section that registers nothing. -/
theorem keeps (h : Preparing w s todo) {gone : List PaneId} (hr : Registers gone [] s t) :
    Preparing w t todo :=
  h.registers hr (fun _ hp => absurd hp List.not_mem_nil) fun _ hp => absurd hp List.not_mem_nil

/-- The drain tasks that come next have prepared nothing. -/
theorem drained (h : Preparing w s todo) (ps : List PaneId) :
    Preparing w s ((Todo.drain ps).toList ++ todo) :=
  h.congr (List.Perm.of_eq (by rw [List.flatMap_append, Todo.prepared_drain, List.nil_append]))

/-- Ids handed out by a section go to nothing that is prepared. -/
theorem minted (hw : Function.Injective w.newV4) (h : Preparing w s todo) {new : List PaneId}
    (hm : Minted w new s t) :
    (∀ p ∈ new, p ∉ s.panes ∧ p ∉ todo.flatMap Todo.prepared) ∧
      ∀ p ∈ new, ∀ n, t.minted ≤ n → p ≠ ⟨w.newV4 n⟩ := by
  have hfree := (iff_reserve.mp h).free_of_handedOut (World.paneId_injective hw) hm
  refine ⟨fun p hp => ?_, fun p hp => (hfree p hp).2.past⟩
  exact ⟨(hfree p hp).1, (hfree p hp).2.not_aside⟩

/-- More children are spawned, and their ids are prepared. -/
theorem spawned (hw : Function.Injective w.newV4) {size : PtySize} {total : ℕ}
    {cwds : List (Option PathBuf)} {acc spawned : List (PaneId × PtyBridge × PathBuf)}
    {dupName : String} {insertAt : ℕ} (h : Preparing w s (.commit dupName insertAt size acc :: todo))
    (hok : (duplicateSpawn w size total cwds acc s).2 = .ok spawned) :
    Preparing w (duplicateSpawn w size total cwds acc s).1
      (.commit dupName insertAt size spawned :: todo) := by
  obtain ⟨hr, hmade⟩ := registers_duplicateSpawn (s := s) hw size total cwds acc
  obtain ⟨made, rfl, hm⟩ := hmade spawned hok
  have hheld := (iff_reserve.mp h).hold (World.paneId_injective hw) hr.minted hm
  have hp : ((Todo.commit dupName insertAt size (acc ++ made) :: todo).flatMap Todo.prepared).Perm
      (made.map (·.1) ++ (Todo.commit dupName insertAt size acc :: todo).flatMap Todo.prepared) := by
    simp only [List.flatMap_cons, Todo.prepared, List.map_append, ← List.append_assoc]
    exact List.perm_append_comm.append_right _
  refine iff_reserve.mpr ((hheld.perm hp).keep le_rfl fun p hlive => ?_)
  simpa using (hr.panes p).mp hlive

theorem spawn (hw : Function.Injective w.newV4) {s : Process} {dupName : String} {insertAt : ℕ}
    {size : PtySize} {cwds : List (Option PathBuf)}
    (h : Preparing w s.sm (.spawn dupName insertAt size cwds :: todo)) :
    Preparing w (Todo.section w (.spawn dupName insertAt size cwds) s).1.sm
      ((Todo.section w (.spawn dupName insertAt size cwds) s).2.toList ++ todo) := by
  have hr := (registers_duplicateSpawn (s := s.sm) hw size cwds.length cwds []).1
  have hnone : Preparing w s.sm (.commit dupName insertAt size [] :: todo) :=
    h.congr (List.Perm.refl _)
  have hspawned (spawned : List (PaneId × PtyBridge × PathBuf))
      (hok : (duplicateSpawn w size cwds.length cwds [] s.sm).2 = .ok spawned) :=
    hnone.spawned hw hok
  have h : Preparing w s.sm todo := h.congr (List.Perm.refl _)
  simp only [Todo.section]
  generalize duplicateSpawn w size cwds.length cwds [] s.sm = r at hr hspawned
  obtain ⟨t, r⟩ := r
  cases r with
  | error e => exact h.keeps hr
  | ok spawned => exact hspawned spawned rfl

/-- The copy is inserted, and its panes are drained next. -/
theorem commit {s : Process} {dupName : String} {insertAt : ℕ} {size : PtySize}
    {spawned : List (PaneId × PtyBridge × PathBuf)}
    (h : Preparing w s.sm (.commit dupName insertAt size spawned :: todo)) :
    Preparing w (Todo.section w (.commit dupName insertAt size spawned) s).1.sm
      ((Todo.section w (.commit dupName insertAt size spawned) s).2.toList ++ todo) := by
  obtain ⟨h, -, hnew, hold⟩ := h.forget
  obtain ⟨hr, -⟩ := registers_duplicateCommit (w := w) (s := s.sm) size dupName insertAt spawned
  refine (h.registers hr (fun p hp => (hnew p hp).2) fun p hp n hn => ?_).drained _
  exact hold p hp n (hr.minted.trans hn)

theorem createLog {s : Process} {p : PaneId} {ps : List PaneId}
    (h : Preparing w s.sm (.createLog p ps :: todo)) :
    Preparing w (Todo.section w (.createLog p ps) s).1.sm
      ((Todo.section w (.createLog p ps) s).2.toList ++ todo) := by
  refine ⟨fun n hn => ?_, h.nodup, fun q hq => ?_⟩
  · simp only [Todo.section, createByteLogFor_panes, createByteLogFor_minted] at hn ⊢
    exact h.fresh n hn
  · simp only [Todo.section, createByteLogFor_panes]
    exact h.new q hq

theorem takeOutput {s : Process} {p : PaneId} {ps : List PaneId}
    (h : Preparing w s.sm (.takeOutput p ps :: todo)) :
    Preparing w (Todo.section w (.takeOutput p ps) s).1.sm
      ((Todo.section w (.takeOutput p ps) s).2.toList ++ todo) := by
  have h : Preparing w s.sm todo := h.congr (List.Perm.refl _)
  have h := h.drained ps
  refine ⟨fun n hn => ?_, h.nodup, fun q hq => ?_⟩
  · simp only [Todo.section, takePaneOutputRx_mem_panes, takePaneOutputRx_minted] at hn ⊢
    exact h.fresh n hn
  · simp only [Todo.section, takePaneOutputRx_mem_panes]
    exact h.new q hq

/-- The first section of a call. -/
theorem start (hw : Function.Injective w.newV4) {s : Process} (h : Preparing w s.sm todo)
    (op : Op) : Preparing w (s.start w op).1.sm ((s.start w op).2.toList ++ todo) := by
  rcases start_cases op s with ⟨-, heq | ⟨_, _, _, _, heq⟩⟩ | ⟨hdup, heq⟩ <;> rw [heq]
  · exact h
  · exact h.congr (List.Perm.refl _)
  · obtain ⟨gone, -, hr, hm⟩ := registers_locked (Or.inr (h.fresh _ le_rfl).1) hdup
    obtain ⟨hnew, hold⟩ := h.minted hw hm
    exact (h.registers hr (fun p hp => (hnew p hp).2) hold).drained _

/-- Every turn keeps it, with other work aside. -/
theorem turn (hw : Function.Injective w.newV4) {aside : List Todo} {m : Shared Process Todo}
    (h : Preparing w m.state.sm (m.pending ++ aside)) (turn : Turn Op) :
    Preparing w ((lockSections w).turn m turn).state.sm
      (((lockSections w).turn m turn).pending ++ aside) := by
  refine Sections.turn_invariant (P := fun (s : Process) todo => Preparing w s.sm (todo ++ aside))
    (fun s ts ts' hp h => h.perm (hp.append_right aside)) turn ?_ ?_ h
  · rintro op rfl h
    rw [List.append_assoc]
    exact h.start hw op
  · rintro k t rest rfl - - h
    rw [List.append_assoc]
    cases t with
    | spawn dupName insertAt size cwds => exact h.spawn hw
    | commit dupName insertAt size spawned => exact h.commit
    | createLog p ps => exact h.createLog
    | takeOutput p ps => exact h.takeOutput

theorem turns (hw : Function.Injective w.newV4) {aside : List Todo} {m : Shared Process Todo}
    (h : Preparing w m.state.sm (m.pending ++ aside)) (turns : List (Turn Op)) :
    Preparing w (run (lockSections w).turn m turns).state.sm
      ((run (lockSections w).turn m turns).pending ++ aside) :=
  (along_of_step (P := fun m : Shared Process Todo => Preparing w m.state.sm (m.pending ++ aside)) h
    fun _ turn h => h.turn hw turn).last

end Preparing

/-! ### Ids -/

section Ids

variable {w : World}

/-- A call has its ids before it releases the lock. -/
theorem inherits_locked {op : Op} (h : ∀ i name size, op ≠ .duplicateWorkspace i name size)
    (s : SessionManager) : Inherits w s (s.locked w op).1 := by
  have happly := inherits_apply w op s
  rw [apply_eq_locked h] at happly
  refine ⟨?_, ?_⟩
  · simpa only [spawnDrainTasks_minted] using happly.minted
  · simpa only [spawnDrainTasks_minted, spawnDrainTasks_layout] using happly.ids

theorem inherits_section (t : Todo) (s : Process) : Inherits w s.sm (t.section w s).1.sm := by
  cases t with
  | spawn dupName insertAt size cwds =>
    have h := @inherits_duplicateSpawn w size cwds.length cwds [] s.sm
    simp only [Todo.section]
    generalize duplicateSpawn w size cwds.length cwds [] s.sm = r at h
    obtain ⟨t, r⟩ := r
    cases r <;> exact h
  | commit dupName insertAt size spawned =>
    exact inherits_duplicateCommit size dupName insertAt spawned s.sm
  | createLog p ps => exact .of_layout (createByteLogFor_layout w p s.sm) (by simp [Todo.section])
  | takeOutput p ps =>
    refine .of_layout ?_ (by simp [Todo.section, takePaneOutputRx_minted])
    simp only [Todo.section]
    unfold takePaneOutputRx
    split <;> rfl

theorem inherits_turn (m : Shared Process Todo) (turn : Turn Op) :
    Inherits w m.state.sm ((lockSections w).turn m turn).state.sm := by
  cases turn with
  | start op =>
    change Inherits w m.state.sm (m.state.start w op).1.sm
    rcases start_cases op m.state with ⟨-, heq | ⟨_, _, _, _, heq⟩⟩ | ⟨hdup, heq⟩ <;> rw [heq]
    · exact .refl w _
    · exact .refl w _
    · exact inherits_locked hdup m.state.sm
  | resume k =>
    rw [Sections.turn]
    split
    · exact .refl w _
    · rename_i t _
      exact inherits_section t m.state

/-- No id comes back, whatever the sections. -/
theorem inherits_turns (m : Shared Process Todo) (turns : List (Turn Op)) :
    Inherits w m.state.sm (run (lockSections w).turn m turns).state.sm :=
  (along_of_step (P := fun m' : Shared Process Todo => Inherits w m.state.sm m'.state.sm) (.refl w _)
    fun m' turn h => h.trans (inherits_turn m' turn)).last

end Ids

end Forgetty
