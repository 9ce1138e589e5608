import Forgetty.Session.Events
import Forgetty.Lib.Run
import Forgetty.Lib.Ring
import Forgetty.Lib.Channel
import Forgetty.Lib.PartialMap

/-! The byte log of a pane: a ring of its last output and a bounded queue to the
task that appends to the log file. A new log starts with the end of the file an
earlier daemon left. -/

namespace Forgetty

open Lib

/-- What the task at the log file is sent. -/
inductive DiskMsg where
  | chunk (data : Bytes)
  | flush
  deriving DecidableEq, Repr

def diskChannelCap : ℕ := 64

def u64Max : ℕ := 2 ^ 64 - 1

structure ByteLog where
  ring : Lib.Ring UInt8
  totalBytesWritten : ℕ
  diskTx : BoundedQueue DiskMsg

namespace ByteLog

/-- Preload the end of the log file. With a disk bound of zero nothing receives
from the queue and it is closed at once. -/
def new (file : Bytes) (ringCapacity maxDiskBytes : ℕ) : ByteLog where
  ring := Lib.Ring.ofTail ringCapacity file
  totalBytesWritten := file.length
  diskTx := { capacity := diskChannelCap, queue := [], isOpen := decide (0 < maxDiskBytes) }

def append (log : ByteLog) (data : Bytes) : ByteLog :=
  if data = [] then log
  else
    { ring := if log.ring.capacity = 0 then log.ring.clear else log.ring.extend data
      totalBytesWritten := min (log.totalBytesWritten + data.length) u64Max
      diskTx := log.diskTx.trySend (.chunk data) }

def ringSnapshot (log : ByteLog) : Bytes × ℕ := (log.ring.items, log.totalBytesWritten)

theorem append_ring (log : ByteLog) (data : Bytes) :
    (log.append data).ring = log.ring.extend data := by
  rw [append]
  split_ifs with hd hc
  · rw [hd, Lib.Ring.extend_nil]
  · exact (Lib.Ring.extend_of_capacity_zero hc data).symm
  · rfl

/-- The ring holds the end of the stream. -/
def Holds (log : ByteLog) (stream : Bytes) : Prop :=
  log.ring.items = stream.rtake log.ring.capacity

theorem holds_new (file : Bytes) (cap disk : ℕ) : (new file cap disk).Holds file := rfl

theorem Holds.append {log : ByteLog} {stream : Bytes} (h : log.Holds stream) (data : Bytes) :
    (log.append data).Holds (stream ++ data) := by
  rw [Holds, append_ring]
  exact Lib.Ring.items_extend_of_tail h data

/-- What is read from the end of the log file before it is opened for appending. -/
def preload (file : Bytes) (ringCapacity : ℕ) : Bytes :=
  if 0 < ringCapacity ∧ 0 < file.length then
    let toRead := min file.length ringCapacity
    file.drop (file.length - toRead)
  else []

theorem new_ring_items (file : Bytes) (cap disk : ℕ) :
    (new file cap disk).ring.items = preload file cap := by
  show file.rtake cap = preload file cap
  rw [preload, List.rtake]
  split_ifs with h
  · dsimp only
    congr 1
    omega
  · exact List.drop_eq_nil_of_le (by omega)

@[simp] theorem append_capacity (log : ByteLog) (data : Bytes) :
    (log.append data).ring.capacity = log.ring.capacity := by
  rw [append_ring, Lib.Ring.extend_capacity]

theorem append_total (log : ByteLog) (data : Bytes)
    (h : log.totalBytesWritten + data.length ≤ u64Max) :
    (log.append data).totalBytesWritten = log.totalBytesWritten + data.length := by
  rw [append]
  by_cases hd : data = []
  · simp [hd]
  · rw [if_neg hd]
    exact Nat.min_eq_left h

/-- A log of which `stream` is everything so far, and which has counted it. -/
structure Follows (log : ByteLog) (stream : Bytes) : Prop where
  holds : log.Holds stream
  counted : log.totalBytesWritten = stream.length

theorem Follows.append {log : ByteLog} {stream : Bytes} (h : log.Follows stream) (data : Bytes)
    (hmax : (stream ++ data).length ≤ u64Max) : (log.append data).Follows (stream ++ data) where
  holds := h.holds.append data
  counted := by
    rw [List.length_append] at hmax ⊢
    rw [append_total log data (by rw [h.counted]; exact hmax), h.counted]

theorem Follows.appendAll {log : ByteLog} {stream : Bytes} (h : log.Follows stream) (chunks : List Bytes)
    (hmax : (stream ++ chunks.flatten).length ≤ u64Max) :
    (run ByteLog.append log chunks).Follows (stream ++ chunks.flatten) ∧
      (run ByteLog.append log chunks).ring.capacity = log.ring.capacity := by
  induction chunks generalizing log stream with
  | nil => simpa using h
  | cons data chunks ih =>
    rw [List.flatten_cons, ← List.append_assoc] at hmax ⊢
    have hle : (stream ++ data).length ≤ u64Max := by
      rw [List.length_append] at hmax
      omega
    obtain ⟨hfollows, hcap⟩ := ih (h.append data hle) hmax
    exact ⟨hfollows, hcap.trans (append_capacity log data)⟩

/-- The snapshot of the ring is the end of the stream that began with the file, as much of it
as fits, and the cursor is the position behind it. -/
theorem ringSnapshot_run (file : Bytes) (ringCapacity maxDiskBytes : ℕ) (chunks : List Bytes)
    (hmax : file.length + (chunks.map List.length).sum ≤ u64Max) :
    let stream := file ++ chunks.flatten
    let snapshot := (run append (new file ringCapacity maxDiskBytes) chunks).ringSnapshot
    snapshot.1 = stream.drop (stream.length - min ringCapacity stream.length) ∧
      snapshot.1.length = min ringCapacity stream.length ∧
      snapshot.2 = file.length + (chunks.map List.length).sum ∧
      stream.drop (snapshot.2 - snapshot.1.length) = snapshot.1 := by
  have hstart : (new file ringCapacity maxDiskBytes).Follows file := ⟨rfl, rfl⟩
  have hlen : (file ++ chunks.flatten).length = file.length + (chunks.map List.length).sum := by
    rw [List.length_append, List.length_flatten]
  obtain ⟨⟨hholds, hcount⟩, hcap⟩ := hstart.appendAll chunks (hlen.trans_le hmax)
  rw [Holds, hcap] at hholds
  have hsnap : (run append (new file ringCapacity maxDiskBytes) chunks).ring.items =
      (file ++ chunks.flatten).rtake ringCapacity := hholds
  have hsize := Lib.length_rtake (file ++ chunks.flatten) ringCapacity
  dsimp only [ringSnapshot]
  rw [hcount, hsnap, hsize, ← hlen, List.rtake]
  refine ⟨?_, rfl, rfl, ?_⟩ <;> congr 1 <;> omega

/-- A file of five bytes before a ring of four, then seven more. -/
theorem ringSnapshot_five_seven :
    (run append (new [1, 2, 3, 4, 5] 4 0) [[6, 7], [8, 9, 10, 11, 12]]).ringSnapshot =
      ([9, 10, 11, 12], 12) := by
  obtain ⟨hsnap, -, hcursor, -⟩ :=
    ringSnapshot_run [1, 2, 3, 4, 5] 4 0 [[6, 7], [8, 9, 10, 11, 12]] (by decide)
  exact Prod.ext hsnap hcursor

end ByteLog

end Forgetty
