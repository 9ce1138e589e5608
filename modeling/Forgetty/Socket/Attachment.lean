import Forgetty.Lib.Run
import Forgetty.Socket.Protocol

/-! Who is attached to a daemon. A connection is open from its acceptance to the end of its
task, and the task holds a guard from its first step on, so the count of the guards is short of
the connections whose task has not started. A probe is a connection of its own, so the count it
is answered from has the other probes in it too. -/

namespace Forgetty

open Lib

namespace Methods

def isAttached : String := "is_attached"
def subscribeOutput : String := "subscribe_output"
def subscribeLayout : String := "subscribe_layout"

end Methods

namespace Request

/-- Nothing is read from the connection after such a request. -/
def streams (req : Request) : Bool :=
  req.method == Methods.subscribeOutput || req.method == Methods.subscribeLayout

def isProbe (req : Request) : Bool := req.method == Methods.isAttached

end Request

/-- The task of an accepted connection: not started, at its next line, behind a subscription,
or ended. -/
inductive ConnectionPhase where
  | accepted
  | reading
  | streaming
  | ended
  deriving DecidableEq, Repr

/-- A connection, with all the lines its client ever sends. A line without a request is
blank, or answered with an error. -/
structure Connection where
  lines : List (Option Request)
  read : ℕ
  phase : ConnectionPhase

namespace Connection

/-- The task holds its guard. -/
def isGuarded (c : Connection) : Bool := c.phase == .reading || c.phase == .streaming

/-- Accepted, and its task has not ended. -/
def isOpen (c : Connection) : Bool := c.phase != .ended

/-- The client sends `is_attached` and nothing else. -/
def isProbe (c : Connection) : Bool :=
  !c.lines.isEmpty && c.lines.all fun line => line.any Request.isProbe

/-- What `read_line` and `Request::parse` make of the next line. -/
def nextRequest (c : Connection) : Option Request := (c.lines[c.read]?).join

end Connection

/-- The connections accepted since the server came up, and the counter of the guards. -/
structure SocketServer where
  connections : List Connection
  connCounter : ℤ

namespace SocketServer

/-- What happens to the connections. A run ends where the process does. -/
inductive Step where
  | accept (lines : List (Option Request))
  /-- The task's first step. -/
  | spawned (n : ℕ)
  | nextLine (n : ℕ)
  /-- An error, the end of a stream, or a panic. -/
  | finish (n : ℕ)

def initial : SocketServer := { connections := [], connCounter := 0 }

def setConnection (n : ℕ) (c : Connection) (s : SocketServer) : SocketServer :=
  { s with connections := s.connections.set n c }

/-- `ConnGuard::new`. -/
def newGuard (s : SocketServer) : SocketServer := { s with connCounter := s.connCounter + 1 }

/-- The `Drop` of a `ConnGuard`. -/
def dropGuard (s : SocketServer) : SocketServer := { s with connCounter := s.connCounter - 1 }

def accept (lines : List (Option Request)) (s : SocketServer) : SocketServer :=
  { s with connections := s.connections ++ [{ lines := lines, read := 0, phase := .accepted }] }

def spawned (n : ℕ) (s : SocketServer) : SocketServer :=
  match s.connections[n]? with
  | none => s
  | some c =>
    if c.phase = .accepted then (s.setConnection n { c with phase := .reading }).newGuard else s

def finish (n : ℕ) (s : SocketServer) : SocketServer :=
  match s.connections[n]? with
  | none => s
  | some c =>
    if c.isGuarded then (s.setConnection n { c with phase := .ended }).dropGuard else s

/-- Without a further line the client has closed its half, and the task ends. -/
def nextLine (n : ℕ) (s : SocketServer) : SocketServer :=
  match s.connections[n]? with
  | none => s
  | some c =>
    if c.phase = .reading then
      match c.lines[c.read]? with
      | none => s.finish n
      | some line =>
        let phase := if line.any Request.streams then .streaming else .reading
        s.setConnection n { c with read := c.read + 1, phase := phase }
    else s

def step (s : SocketServer) : Step → SocketServer
  | .accept lines => s.accept lines
  | .spawned n => s.spawned n
  | .nextLine n => s.nextLine n
  | .finish n => s.finish n

/-- `{ "attached": attached }`. -/
def attachedReply (req : Request) (attached : Bool) : Response :=
  .success req.id (.obj [("attached", .bool attached)])

/-- The reply to an `is_attached` request. -/
def isAttached (req : Request) (s : SocketServer) : Response :=
  let total := s.connCounter
  attachedReply req (decide (1 < total))

/-- The connection and its request, where the step answers an `is_attached`. -/
def probed (s : SocketServer) : Step → Option (Connection × Request)
  | .nextLine n => do
    let c ← s.connections[n]?
    let req ← c.nextRequest
    if c.phase = .reading ∧ req.isProbe then some (c, req) else none
  | _ => none

/-! ### What is to hold -/

def openCount (s : SocketServer) : ℕ := s.connections.countP (·.isOpen)

/-- The counter is the number of open connections. -/
def Counted (s : SocketServer) : Prop := s.connCounter = s.openCount

/-- Somebody uses the daemon. -/
def InUse (s : SocketServer) : Prop := ∃ c ∈ s.connections, c.isOpen = true ∧ c.isProbe = false

instance (s : SocketServer) : Decidable s.InUse :=
  inferInstanceAs (Decidable (∃ c ∈ s.connections, c.isOpen = true ∧ c.isProbe = false))

/-- A probe is told whether somebody uses the daemon. -/
def AnswersRight (s : SocketServer) (i : Step) : Prop :=
  ∀ c req, s.probed i = some (c, req) → s.isAttached req = attachedReply req (decide s.InUse)

/-! ### When it holds -/

/-- No connection waits for the first step of its task. -/
def AllStarted (s : SocketServer) : Prop := ∀ c ∈ s.connections, c.phase ≠ .accepted

def guardCount (s : SocketServer) : ℕ := s.connections.countP (·.isGuarded)

/-- Where the task that answers is the only one, it serves a probe and only probes wait for
their task. A second task means that somebody uses the daemon. -/
def Telling (s : SocketServer) (i : Step) : Prop :=
  ∀ c req, s.probed i = some (c, req) →
    if s.guardCount = 1 then
      c.isProbe = true ∧ ∀ d ∈ s.connections, d.phase = .accepted → d.isProbe = true
    else s.InUse

/-! ### The counter -/

/-- Replacing a connection changes the count by what it did there. -/
theorem countP_set_cast (p : Connection → Bool) {l : List Connection} {n : ℕ} {c : Connection}
    (h : l[n]? = some c) (d : Connection) :
    ((l.set n d).countP p : ℤ) =
      l.countP p - (if p c then 1 else 0) + (if p d then 1 else 0) := by
  obtain ⟨hn, rfl⟩ := List.getElem?_eq_some_iff.mp h
  have hle : (if p l[n] then 1 else 0) ≤ l.countP p := by
    split_ifs with hp
    · exact List.countP_pos_iff.mpr ⟨l[n], List.getElem_mem hn, hp⟩
    · exact Nat.zero_le _
  rw [List.countP_set hn]
  push_cast [hle]
  rfl

/-- The counter is the number of guards. -/
def Guarded (s : SocketServer) : Prop := s.connCounter = s.guardCount

theorem Guarded.spawned {s : SocketServer} (h : s.Guarded) (n : ℕ) : (s.spawned n).Guarded := by
  unfold SocketServer.spawned
  split
  · exact h
  · next c hc =>
    split_ifs with ha
    · have hset := countP_set_cast (·.isGuarded) hc { c with phase := .reading }
      have hguard : c.isGuarded = false := by simp [Connection.isGuarded, ha]
      rw [hguard] at hset
      simp only [Guarded, newGuard, setConnection, guardCount] at h ⊢
      rw [hset, h]
      simp [Connection.isGuarded]
    · exact h

theorem Guarded.finish {s : SocketServer} (h : s.Guarded) (n : ℕ) : (s.finish n).Guarded := by
  unfold SocketServer.finish
  split
  · exact h
  · next c hc =>
    split_ifs with ho
    · have hset := countP_set_cast (·.isGuarded) hc { c with phase := .ended }
      rw [ho] at hset
      simp only [Guarded, dropGuard, setConnection, guardCount] at h ⊢
      rw [hset, h]
      simp [Connection.isGuarded]
    · exact h

theorem Guarded.nextLine {s : SocketServer} (h : s.Guarded) (n : ℕ) : (s.nextLine n).Guarded := by
  unfold SocketServer.nextLine
  split
  · exact h
  · next c hc =>
    split_ifs with hr
    · split
      · exact h.finish n
      · next line hline =>
        have hset := countP_set_cast (·.isGuarded) hc { c with
          read := c.read + 1, phase := if line.any Request.streams then .streaming else .reading }
        have hguard : c.isGuarded = true := by simp [Connection.isGuarded, hr]
        rw [hguard] at hset
        simp only [Guarded, setConnection, guardCount] at h ⊢
        rw [hset, h]
        cases line.any Request.streams <;> simp [Connection.isGuarded]
    · exact h

theorem Guarded.step {s : SocketServer} (h : s.Guarded) (i : Step) : (s.step i).Guarded := by
  cases i with
  | accept lines =>
    simp only [Guarded, SocketServer.step, SocketServer.accept, guardCount] at h ⊢
    simp [h, Connection.isGuarded]
  | spawned n => exact h.spawned n
  | nextLine n => exact h.nextLine n
  | finish n => exact h.finish n

theorem guarded_initial : initial.Guarded := rfl

theorem isOpen_iff (c : Connection) : c.isOpen = (c.isGuarded || c.phase == .accepted) := by
  unfold Connection.isOpen Connection.isGuarded
  cases c.phase <;> rfl

/-- The guards are those of the open connections exactly if every task has started. -/
theorem guardCount_eq_openCount_iff (s : SocketServer) :
    s.guardCount = s.openCount ↔ s.AllStarted := by
  unfold guardCount openCount AllStarted
  induction s.connections with
  | nil => simp
  | cons c l ih =>
    have hle : l.countP (·.isGuarded) ≤ l.countP (·.isOpen) :=
      List.countP_mono_left fun d _ hd => by simp [isOpen_iff, hd]
    rw [List.countP_cons, List.countP_cons, List.forall_mem_cons, ← ih, isOpen_iff]
    by_cases ha : c.phase = .accepted
    · have hg : c.isGuarded = false := by simp [Connection.isGuarded, ha]
      simp [hg, ha]
      omega
    · simp [ha]

theorem counted_iff {s : SocketServer} (hs : s.Guarded) : s.Counted ↔ s.AllStarted := by
  rw [Counted, hs, Nat.cast_inj, guardCount_eq_openCount_iff]

/-! ### The answers -/

theorem attachedReply_inj {req : Request} {a b : Bool} :
    attachedReply req a = attachedReply req b ↔ a = b := by
  simp [attachedReply, Response.success]

/-- The connection that asks has a guard. -/
theorem probed_mem {s : SocketServer} {i : Step} {c : Connection} {req : Request}
    (h : s.probed i = some (c, req)) : c ∈ s.connections ∧ c.isGuarded = true := by
  cases i with
  | nextLine n =>
    simp only [probed, Option.bind_eq_bind, Option.bind_eq_some_iff] at h
    obtain ⟨d, hd, req', -, hif⟩ := h
    split_ifs at hif with hp
    simp only [Option.some.injEq, Prod.mk.injEq] at hif
    obtain ⟨rfl, -⟩ := hif
    exact ⟨List.mem_of_getElem? hd, by simp [Connection.isGuarded, hp.1]⟩
  | accept lines => simp [probed] at h
  | spawned n => simp [probed] at h
  | finish n => simp [probed] at h

/-- With one guard the open connections are the one that has it and those that wait. -/
theorem not_inUse_of_guardCount_eq_one {s : SocketServer} {c : Connection}
    (hc : c ∈ s.connections) (hg : c.isGuarded = true) (h1 : s.guardCount = 1) :
    ¬ s.InUse ↔
      c.isProbe = true ∧ ∀ d ∈ s.connections, d.phase = .accepted → d.isProbe = true := by
  rw [guardCount, List.countP_eq_length_filter, List.length_eq_one_iff] at h1
  obtain ⟨d, hd⟩ := h1
  have only : ∀ e ∈ s.connections, e.isGuarded = true → e = d := fun e he hge => by
    simpa [hd] using List.mem_filter.mpr ⟨he, hge⟩
  simp only [InUse, not_exists, not_and, Bool.not_eq_false]
  constructor
  · refine fun h => ⟨h c hc (by simp [isOpen_iff, hg]), fun e he ha => h e he ?_⟩
    simp [isOpen_iff, ha]
  · rintro ⟨hp, hw⟩ e he ho
    rcases Bool.or_eq_true_iff.mp (isOpen_iff e ▸ ho) with hge | ha
    · rwa [only e he hge, ← only c hc hg]
    · exact hw e he (by simpa using ha)

theorem answersRight_iff {s : SocketServer} (hs : s.Guarded) (i : Step) :
    s.AnswersRight i ↔ s.Telling i := by
  refine forall_congr' fun c => forall_congr' fun req => imp_congr_right fun h => ?_
  obtain ⟨hc, hg⟩ := probed_mem h
  have hpos : 0 < s.guardCount := List.countP_pos_iff.mpr ⟨c, hc, hg⟩
  have hother : 1 < s.connCounter ↔ s.guardCount ≠ 1 := by rw [hs]; omega
  rw [isAttached, attachedReply_inj, decide_eq_decide, hother]
  split_ifs with h1
  · rw [← not_inUse_of_guardCount_eq_one hc hg h1]
    simp [h1]
  · simp [h1]

/-- The counter is right in exactly the states in which every accepted connection has taken
its first step. The answers of a run are right exactly if at each of them a second task means
that somebody uses the daemon, and a lone one that only probes are connected. -/
theorem attachment_run (is : List Step) :
    Along step (fun s => s.Counted ↔ s.AllStarted) initial is ∧
      (Meets step AnswersRight initial is ↔ Meets step Telling initial is) := by
  have hrun : Along step Guarded initial is :=
    along_of_step guarded_initial fun t i ht => ht.step i
  refine ⟨along_iff.mpr fun n => counted_iff (along_iff.mp hrun n), ?_, ?_⟩
  · exact meets_of_invariant (fun t i ht _ => ht.step i)
      (fun t i ht h => (answersRight_iff ht i).mp h) guarded_initial
  · exact meets_of_invariant (fun t i ht _ => ht.step i)
      (fun t i ht h => (answersRight_iff ht i).mpr h) guarded_initial

def probeLines : List (Option Request) :=
  [some { method := Methods.isAttached, params := .null, id := none }]

/-- Two launchers ask an orphaned daemon at once. -/
def twoProbes : List Step :=
  [.accept probeLines, .spawned 0, .accept probeLines, .spawned 1, .nextLine 0]

/-- A launcher is answered before the task of a window's connection has taken its first
step. -/
def besideWindow : List Step :=
  [.accept [some { method := Methods.subscribeLayout, params := .null, id := none }],
    .accept probeLines, .spawned 1, .nextLine 1]

/-- The counter is wrong as soon as a connection is accepted, and so are the answers to a probe
beside another one and to a probe beside a window. -/
theorem not_answersRight_twoProbes :
    (¬ ∀ is, Along step Counted initial is) ∧ (¬ ∀ is, Meets step AnswersRight initial is) ∧
      ¬ Meets step AnswersRight initial twoProbes ∧
      ¬ Meets step AnswersRight initial besideWindow := by
  have hprobes : ¬ Meets step AnswersRight initial twoProbes := by
    rintro ⟨-, -, -, -, hlast, -⟩
    have hright := hlast _ _ rfl
    rw [isAttached, attachedReply_inj] at hright
    exact absurd hright (by decide)
  have hwindow : ¬ Meets step AnswersRight initial besideWindow := by
    rintro ⟨-, -, -, hlast, -⟩
    have hright := hlast _ _ rfl
    rw [isAttached, attachedReply_inj] at hright
    exact absurd hright (by decide)
  refine ⟨fun h => ?_, fun h => hprobes (h _), hprobes, hwindow⟩
  have hlast : (0 : ℤ) = (1 : ℕ) := (h [.accept probeLines]).last
  exact absurd hlast (by decide)

end SocketServer

end Forgetty
