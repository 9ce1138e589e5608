import Forgetty.Lib.Source
import Forgetty.Session.Events

/-! The frames of the socket. A frame is the length of its payload in four bytes, the highest
first, and the payload. -/

namespace Forgetty

open Lib

/-- Longer frames are not written. -/
def maxFrameSize : ℕ := 4 * 1024 * 1024

def toBeBytes (n : UInt32) : Bytes :=
  [UInt8.ofNat (n.toNat / 256 ^ 3), UInt8.ofNat (n.toNat / 256 ^ 2), UInt8.ofNat (n.toNat / 256),
    UInt8.ofNat n.toNat]

def fromBeBytes (bytes : Bytes) : ℕ := bytes.foldl (fun n b => n * 256 + b.toNat) 0

inductive FrameError where
  | invalidInput (message : String)
  | invalidData (message : String)
  | read (error : ReadError)
  deriving DecidableEq, Repr

/-- What is written, to a writer that takes it all. -/
def writeFrame (payload : Bytes) : Except FrameError Bytes :=
  if maxFrameSize < payload.length then
    .error (.invalidInput
      s!"frame payload {payload.length} exceeds MAX_FRAME_SIZE {maxFrameSize}")
  else
    let len := UInt32.ofNat payload.length
    .ok (toBeBytes len ++ payload)

def readFrame (r : Source UInt8) : Except FrameError Bytes × Source UInt8 :=
  match r.readExact 4 with
  | (.error e, r) => (.error (.read e), r)
  | (.ok lenBuf, r) =>
    let len := fromBeBytes lenBuf
    if maxFrameSize < len then
      (.error (.invalidData s!"frame length {len} exceeds MAX_FRAME_SIZE {maxFrameSize}"), r)
    else if 0 < len then
      match r.readExact len with
      | (.error e, r) => (.error (.read e), r)
      | (.ok buf, r) => (.ok buf, r)
    else (.ok [], r)

/-- One frame behind the other. -/
def writeFrames : List Bytes → Except FrameError Bytes
  | [] => .ok []
  | payload :: payloads => do
    let frame ← writeFrame payload
    let frames ← writeFrames payloads
    return frame ++ frames

/-! ### One frame -/

/-- The bytes of a frame. -/
def frameOf (payload : Bytes) : Bytes := toBeBytes (UInt32.ofNat payload.length) ++ payload

@[simp] theorem length_toBeBytes (n : UInt32) : (toBeBytes n).length = 4 := rfl

@[simp] theorem length_frameOf (payload : Bytes) : (frameOf payload).length = 4 + payload.length := by
  simp [frameOf]

theorem fromBeBytes_toBeBytes (n : UInt32) : fromBeBytes (toBeBytes n) = n.toNat := by
  have hn := n.toNat_lt
  simp only [fromBeBytes, toBeBytes, List.foldl_cons, List.foldl_nil, UInt8.toNat_ofNat']
  omega

theorem fromBeBytes_length {payload : Bytes} (h : payload.length ≤ maxFrameSize) :
    fromBeBytes (toBeBytes (UInt32.ofNat payload.length)) = payload.length := by
  rw [fromBeBytes_toBeBytes, UInt32.toNat_ofNat']
  simp only [maxFrameSize] at h
  omega

theorem writeFrame_eq_ok {payload frame : Bytes} :
    writeFrame payload = .ok frame ↔ payload.length ≤ maxFrameSize ∧ frame = frameOf payload := by
  unfold writeFrame
  split_ifs with h
  · simp; omega
  · simp [frameOf, eq_comm]; omega

theorem writeFrames_cons {payload encoded : Bytes} {payloads : List Bytes}
    (h : writeFrames (payload :: payloads) = .ok encoded) :
    payload.length ≤ maxFrameSize ∧
      ∃ rest, writeFrames payloads = .ok rest ∧ encoded = frameOf payload ++ rest := by
  rw [writeFrames] at h
  cases hp : writeFrame payload with
  | error e => simp [hp, bind, Except.bind] at h
  | ok frame =>
    cases hps : writeFrames payloads with
    | error e => simp [hp, hps, bind, Except.bind] at h
    | ok rest =>
      obtain ⟨hle, rfl⟩ := writeFrame_eq_ok.mp hp
      simp only [hp, hps, bind, Except.bind, pure, Except.pure, Except.ok.injEq] at h
      exact ⟨hle, rest, rfl, h.symm⟩

theorem writeFrames_cons_of_ok {payload rest : Bytes} {payloads : List Bytes}
    (hle : payload.length ≤ maxFrameSize) (h : writeFrames payloads = .ok rest) :
    writeFrames (payload :: payloads) = .ok (frameOf payload ++ rest) := by
  rw [writeFrames, writeFrame_eq_ok.mpr ⟨hle, rfl⟩, h]
  rfl

theorem writeFrames_singleton {payload : Bytes} (hle : payload.length ≤ maxFrameSize) :
    writeFrames [payload] = .ok (frameOf payload) := by
  rw [writeFrames_cons_of_ok hle rfl, List.append_nil]

/-! ### What a reader finds first

Either a whole frame, or the beginning of one and then the end, or the length of a frame
that is too long. -/

section Readers

variable {r : Source UInt8} {payload rest header : Bytes} {k : ℕ}

/-- The header of a frame that is whole. -/
theorem readExact_header (h : r.unread = frameOf payload ++ rest) :
    (r.readExact 4).1 = .ok (toBeBytes (UInt32.ofNat payload.length)) ∧
      (r.readExact 4).2.unread = payload ++ rest := by
  have hlen : (toBeBytes (UInt32.ofNat payload.length)).length = 4 := rfl
  constructor
  · rw [Source.readExact_fst, if_pos (by simp [h]; omega), h, frameOf, List.append_assoc,
      ← hlen, List.take_left]
  · rw [Source.unread_readExact, h, frameOf, List.append_assoc, ← hlen, List.drop_left]

/-- Its payload. -/
theorem readExact_payload (h : r.unread = payload ++ rest) :
    (r.readExact payload.length).1 = .ok payload ∧
      (r.readExact payload.length).2.unread = rest := by
  constructor
  · rw [Source.readExact_fst, if_pos (by simp [h]), h, List.take_left]
  · rw [Source.unread_readExact, h, List.drop_left]

/-- The stream ends inside the header. -/
theorem readExact_short_header (h : r.unread.length < 4) :
    (r.readExact 4).1 = .error r.endError ∧ (r.readExact 4).2.unread = [] := by
  rw [Source.readExact_of_lt h]
  exact ⟨rfl, by simp [Source.unread_readExact]; omega⟩

/-- The stream ends inside the payload. -/
theorem readExact_short_payload (hpart : r.unread = (frameOf payload).take k) (hk : 4 ≤ k)
    (hlt : k < (frameOf payload).length) :
    (r.readExact 4).1 = .ok (toBeBytes (UInt32.ofNat payload.length)) ∧
      ((r.readExact 4).2.readExact payload.length).1 = .error r.endError ∧
      ((r.readExact 4).2.readExact payload.length).2.unread = [] := by
  have hlen : (toBeBytes (UInt32.ofNat payload.length)).length = 4 := rfl
  have hr : r.unread = toBeBytes (UInt32.ofNat payload.length) ++ payload.take (k - 4) := by
    rw [hpart, frameOf, List.take_append, List.take_of_length_le (by omega), hlen]
  rw [length_frameOf] at hlt
  refine ⟨?_, ?_, ?_⟩
  · rw [Source.readExact_fst, if_pos (by simp [hr]), hr, ← hlen, List.take_left]
  · rw [Source.readExact_fst, if_neg, Source.endError_readExact]
    simp [hr]
    omega
  · rw [Source.unread_readExact, Source.unread_readExact, hr, ← hlen, List.drop_left]
    exact List.drop_eq_nil_of_le (List.length_take_le' _ _)

/-- The header of a frame that is too long. -/
theorem readExact_oversized (h : r.unread = header ++ rest) (hh : header.length = 4) :
    (r.readExact 4).1 = .ok header ∧ (r.readExact 4).2.unread = rest := by
  constructor
  · rw [Source.readExact_fst, if_pos (by simp [h]; omega), h, ← hh, List.take_left]
  · rw [Source.unread_readExact, h, ← hh, List.drop_left]

theorem readFrame_frame (h : r.unread = frameOf payload ++ rest)
    (hle : payload.length ≤ maxFrameSize) :
    (readFrame r).1 = .ok payload ∧ (readFrame r).2.unread = rest ∧
      (readFrame r).2.endError = r.endError := by
  obtain ⟨hheader, hafter⟩ := readExact_header h
  have heq : r.readExact 4 = (.ok (toBeBytes (UInt32.ofNat payload.length)), (r.readExact 4).2) :=
    Prod.ext hheader rfl
  rw [readFrame, heq]
  simp only [fromBeBytes_length hle, if_neg (not_lt.mpr hle)]
  split_ifs with hpos
  · obtain ⟨hpayload, hrest⟩ := readExact_payload hafter
    have heq' : (r.readExact 4).2.readExact payload.length =
        (.ok payload, ((r.readExact 4).2.readExact payload.length).2) := Prod.ext hpayload rfl
    rw [heq']
    exact ⟨rfl, hrest, rfl⟩
  · have hnil : payload = [] := List.length_eq_zero_iff.mp (by omega)
    subst hnil
    exact ⟨rfl, hafter, rfl⟩

theorem readFrame_short (hle : payload.length ≤ maxFrameSize)
    (h : r.unread = (frameOf payload).take k) (hlt : k < (frameOf payload).length) :
    (readFrame r).1 = .error (.read r.endError) ∧ (readFrame r).2.unread = [] := by
  by_cases hk : k < 4
  · obtain ⟨herror, hrest⟩ := readExact_short_header (r := r) (by simp [h]; omega)
    have heq : r.readExact 4 = (.error r.endError, (r.readExact 4).2) := Prod.ext herror rfl
    rw [readFrame, heq]
    exact ⟨rfl, hrest⟩
  · obtain ⟨hheader, herror, hrest⟩ := readExact_short_payload h (by omega) hlt
    have heq : r.readExact 4 =
        (.ok (toBeBytes (UInt32.ofNat payload.length)), (r.readExact 4).2) := Prod.ext hheader rfl
    have heq' : (r.readExact 4).2.readExact payload.length =
        (.error r.endError, ((r.readExact 4).2.readExact payload.length).2) := Prod.ext herror rfl
    rw [length_frameOf] at hlt
    rw [readFrame, heq]
    simp only [fromBeBytes_length hle, if_neg (not_lt.mpr hle), if_pos (show 0 < payload.length by omega)]
    rw [heq']
    exact ⟨rfl, hrest⟩

theorem readFrame_oversized (h : r.unread = header ++ rest) (hh : header.length = 4)
    (hlt : maxFrameSize < fromBeBytes header) :
    (readFrame r).1 = .error (.invalidData
        s!"frame length {fromBeBytes header} exceeds MAX_FRAME_SIZE {maxFrameSize}") ∧
      (readFrame r).2.unread = rest := by
  obtain ⟨hheader, hrest⟩ := readExact_oversized h hh
  have heq : r.readExact 4 = (.ok header, (r.readExact 4).2) := Prod.ext hheader rfl
  rw [readFrame, heq]
  simpa only [if_pos hlt, true_and] using hrest

/-- Whatever the reader finds, it has gone over the header. -/
theorem readFrame_unread (r : Source UInt8) :
    ∃ k, (readFrame r).2.unread = r.unread.drop (4 + k) := by
  unfold readFrame
  rcases hheader : r.readExact 4 with ⟨result, after⟩
  have hafter : after.unread = r.unread.drop 4 := by
    rw [← Source.unread_readExact, hheader]
  cases result with
  | error e => exact ⟨0, hafter⟩
  | ok lenBuf =>
    dsimp only
    split_ifs with hmax hpos
    · exact ⟨0, hafter⟩
    · refine ⟨fromBeBytes lenBuf, ?_⟩
      have hunread := Source.unread_readExact (fromBeBytes lenBuf) after
      rw [hafter, List.drop_drop] at hunread
      rcases hpayload : after.readExact (fromBeBytes lenBuf) with ⟨result, after'⟩
      rw [hpayload] at hunread
      cases result <;> exact hunread
    · exact ⟨0, hafter⟩

theorem readFrame_lt {after : Source UInt8} (h : readFrame r = (.ok payload, after)) :
    after.unread.length < r.unread.length := by
  obtain ⟨k, hk⟩ := readFrame_unread r
  have hheader : 4 ≤ r.unread.length := by
    by_contra hlt
    rw [readFrame, Source.readExact_of_lt (not_le.mp hlt)] at h
    simp at h
  rw [h] at hk
  rw [hk, List.length_drop]
  omega

end Readers

/-! ### Frame after frame -/

/-- What is read frame by frame until there is an error, that error, and what is left. -/
def readFrames (r : Source UInt8) : List Bytes × FrameError × Source UInt8 :=
  match h : readFrame r with
  | (.error e, after) => ([], e, after)
  | (.ok payload, after) =>
    have := readFrame_lt h
    let more := readFrames after
    (payload :: more.1, more.2)
termination_by r.unread.length

section Runs

variable {r : Source UInt8} {payload rest : Bytes}

theorem readFrames_of_ok (h : (readFrame r).1 = .ok payload) :
    readFrames r =
      (payload :: (readFrames (readFrame r).2).1, (readFrames (readFrame r).2).2) := by
  conv_lhs => rw [readFrames]
  split
  case h_1 e after heq => simp [heq] at h
  case h_2 payload' after heq =>
    obtain rfl : payload' = payload := by simpa [heq] using h
    simp [heq]

theorem readFrames_of_error {e : FrameError} (h : (readFrame r).1 = .error e) :
    readFrames r = ([], e, (readFrame r).2) := by
  rw [readFrames]
  split
  case h_1 e' after heq =>
    obtain rfl : e' = e := by simpa [heq] using h
    simp [heq]
  case h_2 payload after heq => simp [heq] at h

/-- The frames at the beginning of what is unread are read, and then what is behind them. -/
theorem readFrames_writeFrames {payloads : List Bytes} {encoded : Bytes}
    (h : writeFrames payloads = .ok encoded) (hr : r.unread = encoded ++ rest) :
    ∃ after : Source UInt8, after.unread = rest ∧ after.endError = r.endError ∧
      readFrames r = (payloads ++ (readFrames after).1, (readFrames after).2) := by
  induction payloads generalizing r encoded with
  | nil =>
    have hnil : encoded = [] := by simpa [writeFrames] using h.symm
    exact ⟨r, by simpa [hnil] using hr, rfl, rfl⟩
  | cons payload payloads ih =>
    obtain ⟨hle, encoded', henc, rfl⟩ := writeFrames_cons h
    rw [List.append_assoc] at hr
    obtain ⟨hok, hunread, hend⟩ := readFrame_frame hr hle
    obtain ⟨after, hrest, hend', hframes⟩ := ih henc hunread
    refine ⟨after, hrest, hend'.trans hend, ?_⟩
    rw [readFrames_of_ok hok, hframes]
    rfl

end Runs

/-- A beginning of the frames is some of them whole, and the beginning of the next. -/
theorem take_writeFrames {payloads : List Bytes} {encoded : Bytes}
    (h : writeFrames payloads = .ok encoded) {n : ℕ} (hn : n < encoded.length) :
    ∃ k payload whole next, writeFrames (payloads.take k) = .ok whole ∧
      writeFrames (payloads.take (k + 1)) = .ok next ∧ next = whole ++ frameOf payload ∧
      payload.length ≤ maxFrameSize ∧ whole.length ≤ n ∧ n < next.length ∧
      encoded.take n = whole ++ (frameOf payload).take (n - whole.length) := by
  induction payloads generalizing encoded n with
  | nil => simp_all [writeFrames]
  | cons payload payloads ih =>
    obtain ⟨hle, encoded', henc, rfl⟩ := writeFrames_cons h
    by_cases hfirst : n < (frameOf payload).length
    · refine ⟨0, payload, [], frameOf payload, rfl, ?_, rfl, hle, by simp, hfirst, ?_⟩
      · simpa using writeFrames_singleton hle
      · simp [List.take_append_of_le_length hfirst.le]
    · rw [not_lt] at hfirst
      rw [List.length_append] at hn
      obtain ⟨k, last, whole, next, hwhole, hnext, hlast, hmax, hk, hlt, htake⟩ :=
        ih henc (n := n - (frameOf payload).length) (by omega)
      refine ⟨k + 1, last, frameOf payload ++ whole, frameOf payload ++ next,
        writeFrames_cons_of_ok hle hwhole, writeFrames_cons_of_ok hle hnext, ?_, hmax, ?_, ?_, ?_⟩
      · rw [hlast, List.append_assoc]
      · rw [List.length_append]
        omega
      · rw [List.length_append]
        omega
      · rw [List.take_append, List.take_of_length_le hfirst, htake, List.length_append,
          List.append_assoc, Nat.sub_sub]

end Forgetty
