import Forgetty.Daemon.Reached
import Forgetty.Gtk.OutputReader
import Forgetty.Remote.PaneStream
import Forgetty.Session.LogSizes
import Forgetty.Socket.SubscribeOutput

/-! The replay on its two ways out. The socket sends the ring as one frame, which is refused
when the ring holds more than a frame may; the stream then ends behind its acknowledgment.
The remote transport sends it in pieces. The size of the ring is what the configuration
says, whatever that is. -/

namespace Forgetty

open Lib SessionManager

/-- What `subscribe_output` writes behind its acknowledgment, and whether it goes on to
forward live output. -/
def emitReplay (replayBytes : Bytes) : Bytes × Bool :=
  if replayBytes = [] then ([], true)
  else
    match writeFrame replayBytes with
    | .error _ => ([], false)
    | .ok frame => (frame, true)

/-- The replay is a frame, live output comes behind it, and the window reads it. The pieces
for the remote peer are no larger than they may be, and together they are the replay. -/
structure Deliverable (replayBytes : Bytes) : Prop where
  accepted : ∃ frame, writeFrame replayBytes = .ok frame
  live : (emitReplay replayBytes).2 = true
  received : ∀ r : Source UInt8, r.unread = (emitReplay replayBytes).1 → r.fails = false →
    EndsAfter ([replayBytes].filter (· ≠ [])) r
  pieces : ∀ c ∈ replayBytes.toChunks DaemonMsg.replayChunkSize,
    c.length ≤ DaemonMsg.replayChunkSize
  whole : (replayBytes.toChunks DaemonMsg.replayChunkSize).flatten = replayBytes

theorem deliverable_iff (replayBytes : Bytes) :
    Deliverable replayBytes ↔ replayBytes.length ≤ maxFrameSize := by
  constructor
  · rintro ⟨⟨frame, hframe⟩, -, -, -, -⟩
    exact (writeFrame_eq_ok.mp hframe).1
  · intro hle
    have hframe := writeFrame_eq_ok.mpr ⟨hle, rfl⟩
    refine ⟨⟨_, hframe⟩, ?_, fun r hr hend => ?_,
      length_le_of_mem_toChunks (by decide) replayBytes, flatten_toChunks _ replayBytes⟩
    · rw [emitReplay, hframe]
      split_ifs <;> rfl
    · rw [emitReplay, hframe] at hr
      by_cases hnil : replayBytes = []
      · subst hnil
        exact @EndsAfter.of_short [] [] r [] 0 rfl (Nat.zero_le _) (by simp) (by simpa using hr)
          hend
      · rw [if_neg hnil] at hr
        have hfilter : [replayBytes].filter (· ≠ []) = [replayBytes] := by simp [hnil]
        rw [hfilter]
        exact EndsAfter.of_short [] 0 (writeFrames_singleton hle) (Nat.zero_le _) (by simp)
          (by simpa using hr) hend

/-! ### The rings of a daemon -/

/-- The states of a session of a daemon with that setting. -/
def ConfiguredState (w : World) (ringKb : UInt32) (s : SessionManager) : Prop :=
  ∃ start ops, Started w start ∧ start.byteLogRingKb = ringKb ∧ s = start.runOps w ops

section Rings

variable {w : World} {ringKb : UInt32} {s : SessionManager}

theorem logSizes_fresh (w : World) (logFiles : PMap Uuid Bytes) (ringKb maxMb : UInt32) :
    LogSizes ringKb (fresh w logFiles ringKb maxMb) :=
  ⟨rfl, fun _ _ h => by simp [fresh, new, setByteLogConfig] at h⟩

theorem Started.logSizes (h : Started w s) : LogSizes s.byteLogRingKb s := by
  cases h with
  | empty logFiles ringKb maxMb => exact logSizes_fresh w logFiles ringKb maxMb
  | restored isDir state logFiles ringKb maxMb hids =>
    have h := (@builds_coldStart w isDir state (fresh w logFiles ringKb maxMb)).invariant
      (P := LogSizes ringKb)
      (fun _ call _ h => h.invoke call) (logSizes_fresh w logFiles ringKb maxMb)
    change LogSizes (coldStart w isDir state (fresh w logFiles ringKb maxMb)).byteLogRingKb _
    rw [h.1]
    exact h

theorem ConfiguredState.logSizes (h : ConfiguredState w ringKb s) : LogSizes ringKb s := by
  obtain ⟨start, ops, hstart, rfl, rfl⟩ := h
  exact (along_of_step (P := LogSizes start.byteLogRingKb) hstart.logSizes
    fun _ op h => h.apply op).last

/-- A replay is never longer than the ring is set to be. -/
theorem length_replay_le (h : ConfiguredState w ringKb s) (p : PaneId) :
    (OutputConn.subscribe p s).replay.length ≤ ringKb.toNat * 1024 := by
  simp only [OutputConn.subscribe, subscribeWithSnapshot, getRingSnapshot]
  cases hlog : s.byteLogs.get p with
  | none => simp
  | some log =>
    have hbound := log.ring.bounded
    rw [h.logSizes.2 p log hlog] at hbound
    simpa [ByteLog.ringSnapshot] using hbound

/-- `n` bytes of output, one at a time. -/
def zeros (p : PaneId) (n : ℕ) : List Op :=
  List.replicate n (.processPaneBytes (fun _ => none) true p [0])

/-- A live pane that puts them out stays live, and its log goes on. -/
theorem holds_zeros {p : PaneId} {stream : Bytes} (hp : p ∈ s.panes)
    (hlog : ∃ log, s.byteLogs.get p = some log ∧ log.Holds stream) (n : ℕ) :
    p ∈ (s.runOps w (zeros p n)).panes ∧
      ∃ log, (s.runOps w (zeros p n)).byteLogs.get p = some log ∧
        log.Holds (stream ++ List.replicate n 0) := by
  induction n generalizing s stream with
  | zero => exact ⟨hp, by simpa [runOps, zeros] using hlog⟩
  | succ n ih =>
    obtain ⟨log, hget, hholds⟩ := hlog
    obtain ⟨-, hlogs, -⟩ := processPaneBytes_of_live (fun _ => none) true [0] hp
    have hp' : p ∈ (s.apply w (.processPaneBytes (fun _ => none) true p [0])).panes :=
      ((effect_processPaneBytes (fun _ => none) true p [0] s).keys p).mpr (by simpa using hp)
    have hlog' : (s.apply w (.processPaneBytes (fun _ => none) true p [0])).byteLogs.get p =
        some (log.append [0]) := by
      refine (hlogs p).trans ?_
      rw [hget, Option.map_some, if_pos rfl]
    have h := ih hp' ⟨_, hlog', hholds.append [0]⟩
    rwa [List.append_assoc, List.singleton_append, ← List.replicate_succ] at h

end Rings

/-- With a ring that holds more than a frame, a pane that put out enough is replayed no
more. -/
theorem exists_undeliverable {ringKb : UInt32} (h : 4096 < ringKb.toNat) :
    ∃ s p, ConfiguredState .counting ringKb s ∧ p ∈ s.panes ∧
      ¬Deliverable (OutputConn.subscribe p s).replay := by
  obtain ⟨n, hn⟩ : ∃ n, n = maxFrameSize + 1 := ⟨_, rfl⟩
  set start := fresh .counting .empty ringKb 10 with hstart
  set tab := start.apply .counting (.createTab 0 none .default none) with htab
  have hp : (⟨⟨1⟩⟩ : PaneId) ∈ tab.panes := PMap.mem_of_get rfl
  have hlog : ∃ log, tab.byteLogs.get ⟨⟨1⟩⟩ = some log ∧ log.Holds [] :=
    ⟨_, rfl, ByteLog.holds_new [] _ _⟩
  obtain ⟨hlive, log, hget, hholds⟩ := holds_zeros (w := .counting) hp hlog n
  have hstate : ConfiguredState .counting ringKb
      (tab.runOps .counting (zeros ⟨⟨1⟩⟩ n)) :=
    ⟨start, .createTab 0 none .default none :: zeros ⟨⟨1⟩⟩ n,
      .empty .empty ringKb 10, rfl, rfl⟩
  refine ⟨_, ⟨⟨1⟩⟩, hstate, hlive, ?_⟩
  have hcap := hstate.logSizes.2 ⟨⟨1⟩⟩ log hget
  rw [deliverable_iff, not_le]
  simp only [OutputConn.subscribe, subscribeWithSnapshot, getRingSnapshot, hget, Option.map_some,
    Option.getD_some, ByteLog.ringSnapshot]
  rw [hholds, hcap, length_rtake, List.nil_append, List.length_replicate, hn]
  simp only [maxFrameSize]
  omega

/-- A replay is delivered exactly if it is no longer than a frame may be, and every replay
is exactly if the rings are not set to be larger. -/
theorem replay_deliverable_iff (ringKb : UInt32) :
    (∀ w s p, ConfiguredState w ringKb s → p ∈ s.panes →
      (Deliverable (OutputConn.subscribe p s).replay ↔
        (OutputConn.subscribe p s).replay.length ≤ maxFrameSize)) ∧
    ((∀ w s p, ConfiguredState w ringKb s → p ∈ s.panes →
      Deliverable (OutputConn.subscribe p s).replay) ↔ ringKb.toNat ≤ 4096) := by
  refine ⟨fun w s p _ _ => deliverable_iff _, fun hall => ?_, fun hle w s p hs _ => ?_⟩
  · by_contra hlt
    obtain ⟨s, p, hs, hp, hnot⟩ := exists_undeliverable (not_le.mp hlt)
    exact hnot (hall _ s p hs hp)
  · have hsize : ringKb.toNat * 1024 ≤ maxFrameSize := by
      simp only [maxFrameSize]
      omega
    exact (deliverable_iff _).mpr ((length_replay_le hs p).trans hsize)

/-- Rings of eight megabytes. -/
theorem not_replay_deliverable :
    ∃ s p, ConfiguredState .counting 8192 s ∧ p ∈ s.panes ∧
      ¬Deliverable (OutputConn.subscribe p s).replay :=
  exists_undeliverable (by decide)

end Forgetty
