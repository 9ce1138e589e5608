import Forgetty.Session.Subscribe

/-! The drain task of a pane. The reader thread puts the output of the child on a
channel chunk by chunk and ends it at end of file; the task processes the chunks
and closes the pane when the channel has ended, or as soon as the probe made with
a chunk finds the child dead. The second way loses whatever is still behind that
chunk, so the output is complete exactly if every such chunk is the last one. -/

namespace Forgetty

open Lib SessionManager
open Fanout (replayStart)

/-! ### Output in the event stream -/

/-- The chunk an event carries for a pane. -/
def SessionEvent.chunkOf (p : PaneId) : SessionEvent → Option Bytes
  | .ptyOutput q data => if q = p then some data else none
  | _ => none

/-- The chunks broadcast for a pane, in order. -/
def SessionManager.chunksOf (p : PaneId) (sm : SessionManager) : List Bytes :=
  sm.eventTx.sent.filterMap (SessionEvent.chunkOf p)

namespace SessionManager

variable {w : World} {p q : PaneId} {s : SessionManager}

theorem chunksOf_send {e : SessionEvent} (h : e.chunkOf p = none) :
    (s.send e).chunksOf p = s.chunksOf p := by
  simp [chunksOf, send, h]

theorem createByteLogFor_eventTx (w : World) (q : PaneId) (s : SessionManager) :
    (s.createByteLogFor w q).eventTx = s.eventTx := by
  unfold createByteLogFor; split <;> rfl

theorem spawnDrainTask_eventTx (w : World) (q : PaneId) (s : SessionManager) :
    (s.spawnDrainTask w q).eventTx = s.eventTx := by
  unfold spawnDrainTask takePaneOutputRx
  split
  · exact createByteLogFor_eventTx w q s
  · exact createByteLogFor_eventTx w q s

theorem chunksOf_autoSeedDefaultTab (i : ℕ) (size : PtySize) :
    (s.autoSeedDefaultTab w i size).1.chunksOf p = s.chunksOf p := by
  unfold autoSeedDefaultTab
  split_ifs
  · rfl
  · split
    · rfl
    · dsimp only
      rw [chunksOf_send rfl, chunksOf_send rfl]
      rfl

theorem chunksOf_healEmptied (emptied : Option ℕ) :
    (s.healEmptied w emptied).chunksOf p = s.chunksOf p := by
  unfold healEmptied
  split
  · rfl
  · rename_i i
    split_ifs
    · have h := chunksOf_autoSeedDefaultTab (w := w) (p := p) (s := s) i .default
      split <;> rename_i heq <;> rw [heq] at h
      · rw [← h, chunksOf, spawnDrainTask_eventTx, chunksOf]
      · exact h
    · rfl

/-- Closing a pane broadcasts no output. -/
theorem chunksOf_closePane : (s.closePane w q).1.chunksOf p = s.chunksOf p := by
  unfold closePane
  split_ifs
  · dsimp only
    rw [chunksOf_healEmptied, chunksOf_send rfl]
    rfl
  · rfl

end SessionManager

/-! ### The task and the reader -/

/-- Where the drain task is: in its loop, about to close the pane, or gone. -/
inductive DrainTask where
  | draining
  | closing
  | finished
  deriving DecidableEq, Repr

/-- The manager, the chunks the reader has not delivered yet, the channel, and the
child process. -/
structure DrainState where
  sm : SessionManager
  unread : List Bytes
  queue : List Bytes
  eof : Bool
  alive : Bool
  task : DrainTask

inductive DrainStep where
  /-- The reader delivers a chunk; without a receiver it stops. -/
  | read
  /-- The reader comes to the end of the output and drops the channel. -/
  | endOfFile
  /-- The child exits. -/
  | exit
  /-- The task goes on. -/
  | drain (procCwd : ℕ → Option PathBuf)

namespace DrainState

def read (d : DrainState) : DrainState :=
  match d.unread with
  | [] => d
  | c :: rest =>
    if d.task = .finished then { d with unread := [] }
    else { d with unread := rest, queue := d.queue ++ [c] }

def endOfFile (d : DrainState) : DrainState :=
  if d.unread = [] then { d with eof := true } else d

/-- One turn of `spawn_drain_task`'s loop, or the close behind it. -/
def drain (w : World) (p : PaneId) (procCwd : ℕ → Option PathBuf) (d : DrainState) : DrainState :=
  match d.task with
  | .draining =>
    match d.queue with
    | c :: queue =>
      match d.sm.processPaneBytes procCwd d.alive p c with
      | (sm, .ok result) =>
        { d with sm := sm, queue := queue, task := if result.ptyExited then .closing else .draining }
      | (sm, .error _) => { d with sm := sm, queue := queue }
    | [] => if d.eof then { d with task := .closing } else d
  | .closing => { d with sm := (d.sm.closePane w p).1, task := .finished }
  | .finished => d

def step (w : World) (p : PaneId) (d : DrainState) : DrainStep → DrainState
  | .read => d.read
  | .endOfFile => d.endOfFile
  | .exit => { d with alive := false }
  | .drain procCwd => d.drain w p procCwd

/-- A pane whose child will put out `output`. -/
def initial (sm : SessionManager) (output : List Bytes) : DrainState where
  sm := sm
  unread := output
  queue := []
  eof := false
  alive := true
  task := .draining

/-- Once the task has left its loop every chunk of the output was broadcast, in
order, and appended to the log. -/
structure Complete (start : SessionManager) (preloaded : Bytes) (output : List Bytes) (p : PaneId)
    (d : DrainState) : Prop where
  broadcast : d.task ≠ .draining → d.sm.chunksOf p = start.chunksOf p ++ output
  logged : d.task = .closing →
    ∃ log, d.sm.byteLogs.get p = some log ∧ log.Holds (preloaded ++ output.flatten)

/-- The task does not go on with a dead child while chunks are left behind the next one. -/
def LastWhenDead (d : DrainState) (i : DrainStep) : Prop :=
  ∀ procCwd, i = .drain procCwd → d.task = .draining → d.alive = false →
    ∀ c queue, d.queue = c :: queue → queue = [] ∧ d.unread = []

/-- What was processed, what is queued and what is still to be read are the output. -/
structure Inv (start : SessionManager) (preloaded : Bytes) (output : List Bytes) (p : PaneId)
    (d : DrainState) : Prop where
  ended : d.eof = true → d.unread = []
  split : d.task ≠ .finished → ∃ processed, d.sm.chunksOf p = start.chunksOf p ++ processed ∧
    processed ++ d.queue ++ d.unread = output ∧ p ∈ d.sm.panes ∧
    ∃ log, d.sm.byteLogs.get p = some log ∧ log.Holds (preloaded ++ processed.flatten)

section Steps

variable {w : World} {start : SessionManager} {preloaded : Bytes} {output : List Bytes}
  {p : PaneId} {d : DrainState}

/-- A chunk is processed: it moves from the channel to the log and the broadcast. -/
theorem drain_cons (procCwd : ℕ → Option PathBuf) {c : Bytes} {queue : List Bytes}
    (ht : d.task = .draining) (hq : d.queue = c :: queue) (hp : p ∈ d.sm.panes) :
    ∃ sm, d.drain w p procCwd =
        { d with sm := sm, queue := queue, task := if d.alive then .draining else .closing } ∧
      sm.chunksOf p = d.sm.chunksOf p ++ [c] ∧ p ∈ sm.panes ∧
      ∀ log, d.sm.byteLogs.get p = some log → sm.byteLogs.get p = some (log.append c) := by
  obtain ⟨htx, hlogs, hok⟩ := processPaneBytes_of_live procCwd d.alive c hp
  have hlive : p ∈ (d.sm.processPaneBytes procCwd d.alive p c).1.panes := by
    obtain ⟨pane, hget⟩ := PMap.exists_get hp
    simp only [processPaneBytes, hget]
    split <;> simp
  refine ⟨(d.sm.processPaneBytes procCwd d.alive p c).1, ?_, ?_, hlive, fun log hlog => ?_⟩
  · simp only [drain, ht, hq]
    split
    · rename_i sm r heq
      rw [heq] at hok ⊢
      simp only [Except.ok.injEq] at hok
      subst hok
      cases d.alive <;> rfl
    · rename_i sm e heq
      rw [heq] at hok
      simp at hok
  · simp [chunksOf, htx, SessionEvent.chunkOf]
  · rw [hlogs, hlog]
    simp

theorem Inv.read (h : Inv start preloaded output p d) :
    Inv start preloaded output p d.read := by
  unfold DrainState.read
  split
  · exact h
  · rename_i c rest hr
    split_ifs with hf
    · exact ⟨fun _ => rfl, fun hne => absurd hf hne⟩
    · refine ⟨fun he => absurd (h.ended he) (by simp [hr]), fun _ => ?_⟩
      obtain ⟨processed, hch, hsplit, hrest⟩ := h.split hf
      exact ⟨processed, hch, by simp [← hsplit, hr], hrest⟩

theorem Inv.endOfFile (h : Inv start preloaded output p d) :
    Inv start preloaded output p d.endOfFile := by
  unfold DrainState.endOfFile
  split_ifs with hr
  · exact ⟨fun _ => hr, h.split⟩
  · exact h

theorem Inv.drain (h : Inv start preloaded output p d) (procCwd : ℕ → Option PathBuf) :
    Inv start preloaded output p (d.drain w p procCwd) := by
  cases ht : d.task with
  | draining =>
    obtain ⟨processed, hch, hsplit, hp, log, hlog, hholds⟩ := h.split (by simp [ht])
    cases hq : d.queue with
    | nil =>
      simp only [DrainState.drain, ht, hq]
      split_ifs
      · exact ⟨h.ended, fun _ => ⟨processed, hch, hq ▸ hsplit, hp, log, hlog, hholds⟩⟩
      · exact h
    | cons c queue =>
      obtain ⟨sm, hd, hch', hp', hlogs⟩ := drain_cons (w := w) procCwd ht hq hp
      rw [hd]
      refine ⟨h.ended, fun _ => ⟨processed ++ [c], ?_, ?_, hp', log.append c, hlogs log hlog, ?_⟩⟩
      · rw [hch', hch, List.append_assoc]
      · simp [← hsplit, hq]
      · have := hholds.append c
        rwa [List.append_assoc, ← List.flatten_concat] at this
  | closing =>
    simp only [DrainState.drain, ht]
    exact ⟨h.ended, fun hne => absurd rfl hne⟩
  | finished =>
    simp only [DrainState.drain, ht]
    exact h

theorem Inv.step (h : Inv start preloaded output p d) (i : DrainStep) :
    Inv start preloaded output p (d.step w p i) := by
  cases i with
  | read => exact h.read
  | endOfFile => exact h.endOfFile
  | exit => exact ⟨h.ended, h.split⟩
  | drain procCwd => exact h.drain procCwd

/-- Steps of the reader and the child leave the manager and the task alone. -/
theorem read_same (d : DrainState) : d.read.sm = d.sm ∧ d.read.task = d.task := by
  unfold DrainState.read
  split
  · exact ⟨rfl, rfl⟩
  · split_ifs <;> exact ⟨rfl, rfl⟩

theorem endOfFile_same (d : DrainState) : d.endOfFile.sm = d.sm ∧ d.endOfFile.task = d.task := by
  unfold DrainState.endOfFile
  split_ifs <;> exact ⟨rfl, rfl⟩

theorem Complete.of_same {d' : DrainState} (h : Complete start preloaded output p d)
    (hsm : d'.sm = d.sm) (ht : d'.task = d.task) : Complete start preloaded output p d' where
  broadcast := by rw [hsm, ht]; exact h.broadcast
  logged := by rw [hsm, ht]; exact h.logged

theorem complete_drain_iff (h : Inv start preloaded output p d)
    (hc : Complete start preloaded output p d) (procCwd : ℕ → Option PathBuf) :
    Complete start preloaded output p (d.drain w p procCwd) ↔ LastWhenDead d (.drain procCwd) := by
  cases ht : d.task with
  | draining =>
    obtain ⟨processed, hch, hsplit, hp, log, hlog, hholds⟩ := h.split (by simp [ht])
    cases hq : d.queue with
    | nil =>
      refine iff_of_true ?_ fun _ _ _ _ c queue hcq => by simp [hq] at hcq
      simp only [DrainState.drain, ht, hq]
      split_ifs with he
      · have hall : processed = output := by simpa [hq, h.ended he] using hsplit
        exact ⟨fun _ => hall ▸ hch, fun _ => ⟨log, hlog, hall ▸ hholds⟩⟩
      · exact hc
    | cons c queue =>
      obtain ⟨sm, hd, hch', hp', hlogs⟩ := drain_cons (w := w) procCwd ht hq hp
      rw [hd]
      cases ha : d.alive with
      | true =>
        refine iff_of_true ⟨fun hne => absurd rfl hne, fun hcl => ?_⟩ fun _ _ _ hdead => ?_
        · simp at hcl
        · simp [ha] at hdead
      | false =>
        constructor
        · rintro hcomp _ - - - c' queue' hcq
          obtain ⟨rfl, rfl⟩ := List.cons.inj (hq.symm.trans hcq)
          have hb := hcomp.broadcast (by simp)
          rw [hch', hch, List.append_assoc, List.append_right_inj, ← hsplit, hq] at hb
          simpa using hb
        · intro hlast
          obtain ⟨rfl, hr⟩ := hlast procCwd rfl ht ha c queue hq
          have hall : processed ++ [c] = output := by simpa [hq, hr] using hsplit
          refine ⟨fun _ => by rw [hch', hch, List.append_assoc, hall], fun _ => ?_⟩
          refine ⟨log.append c, hlogs log hlog, ?_⟩
          have := hholds.append c
          rwa [List.append_assoc, ← List.flatten_concat, hall] at this
  | closing =>
    refine iff_of_true ?_ fun _ _ htd => by simp [ht] at htd
    simp only [DrainState.drain, ht]
    refine ⟨fun _ => ?_, fun hcl => by simp at hcl⟩
    rw [chunksOf_closePane]
    exact hc.broadcast (by simp [ht])
  | finished =>
    refine iff_of_true ?_ fun _ _ htd => by simp [ht] at htd
    simp only [DrainState.drain, ht]
    exact hc

theorem complete_step_iff (h : Inv start preloaded output p d)
    (hc : Complete start preloaded output p d) (i : DrainStep) :
    Complete start preloaded output p (d.step w p i) ↔ LastWhenDead d i := by
  cases i with
  | read => exact iff_of_true (hc.of_same (read_same d).1 (read_same d).2) nofun
  | endOfFile => exact iff_of_true (hc.of_same (endOfFile_same d).1 (endOfFile_same d).2) nofun
  | exit => exact iff_of_true (hc.of_same rfl rfl) nofun
  | drain procCwd => exact complete_drain_iff h hc procCwd

end Steps

/-- In a run of the reader, the child and the drain task of a live pane with a byte
log, the output is complete whenever the task has left its loop, exactly if no
chunk but the last of the output is processed after the child's death. -/
theorem complete_along_iff (w : World) (start : SessionManager) (p : PaneId)
    (hp : p ∈ start.panes) (log : ByteLog) (hlog : start.byteLogs.get p = some log)
    (preloaded : Bytes) (hholds : log.Holds preloaded) (output : List Bytes)
    (steps : List DrainStep) :
    Along (step w p) (Complete start preloaded output p) (initial start output) steps ↔
      Meets (step w p) LastWhenDead (initial start output) steps := by
  refine along_iff_meets (I := Inv start preloaded output p) (fun _ i h _ _ => h.step i)
    (fun _ i h hc => complete_step_iff h hc i) ⟨nofun, fun _ => ⟨[], ?_⟩⟩
    ⟨fun hne => absurd rfl hne, nofun⟩
  exact ⟨by simp [initial], by simp [initial], hp, log, hlog, by simpa using hholds⟩

/-- Two chunks, the child dead before the first of them is processed. -/
def exitBehindChunks : List DrainStep :=
  [.read, .read, .exit, .drain fun _ => none, .drain fun _ => none]

/-- The same, the child dead once only the last chunk is left. -/
def exitAtLastChunk : List DrainStep :=
  [.read, .read, .drain fun _ => none, .exit, .drain fun _ => none, .drain fun _ => none]

theorem replayStart_log : replayStart.byteLogs.get ⟨⟨1⟩⟩ =
    some (ByteLog.new [10, 11, 12] (1024 * 1024) (10 * (1024 * 1024))) := rfl

theorem complete_along_exitAtLastChunk :
    Along (step .counting ⟨⟨1⟩⟩) (Complete replayStart [10, 11, 12] [[13], [14]] ⟨⟨1⟩⟩)
      (initial replayStart [[13], [14]]) exitAtLastChunk := by
  refine (complete_along_iff .counting replayStart ⟨⟨1⟩⟩ (by decide) _ replayStart_log [10, 11, 12]
    (ByteLog.holds_new _ _ _) [[13], [14]] exitAtLastChunk).mpr
    ⟨nofun, nofun, fun _ _ _ hdead => ?_, nofun, fun _ _ _ _ c queue hq => ?_,
      fun _ _ ht => ?_, trivial⟩
  · exact absurd hdead (by decide)
  · exact ⟨(List.cons.inj (hq.symm.trans (show _ = [[14]] from rfl))).2, rfl⟩
  · exact absurd ht (by decide)

theorem not_complete_exitBehindChunks :
    ¬Complete replayStart [10, 11, 12] [[13], [14]] ⟨⟨1⟩⟩
      (run (step .counting ⟨⟨1⟩⟩) (initial replayStart [[13], [14]]) exitBehindChunks) :=
  fun h => absurd (h.broadcast (by decide)) (by decide)

end DrainState

end Forgetty
