import Forgetty.Socket.Framing

/-! The reader of the window. It takes the frames apart on its own, with its own copy of the
limit, and hands on the payloads that are not empty. -/

namespace Forgetty

open Lib

namespace OutputReader

/-- The limit of the daemon, copied. -/
def maxFrameSize : ℕ := 4 * 1024 * 1024

inductive Error where
  | message (text : String)
  | read (error : ReadError)
  deriving DecidableEq, Repr

/-- How a reader ended: what it handed on, its result, and what is left unread. -/
structure Ended where
  sent : List Bytes
  result : Except Error Unit
  rest : Source UInt8

/-- How a read that finds too little ends the loop: a daemon that closed the stream is no
error, in the middle of a frame either. -/
def resultOf : ReadError → Except Error Unit
  | .unexpectedEof => .ok ()
  | .other => .error (.read .other)

/-- The loop behind the acknowledgment. `rx` says of each message whether the receiver is
still there for it. -/
def subscribeOutputLoop (rx : ℕ → Bool) (sent : List Bytes) (reader : Source UInt8) : Ended :=
  match h : reader.readExact 4 with
  | (.error e, rest) => ⟨sent, resultOf e, rest⟩
  | (.ok lenBuf, after) =>
    have hlt : after.unread.length < reader.unread.length := by
      obtain ⟨hle, hafter⟩ := Source.le_of_readExact h
      rw [hafter, List.length_drop]
      omega
    let len := fromBeBytes lenBuf
    if maxFrameSize < len then
      ⟨sent, .error (.message
        s!"subscribe_output: frame length {len} exceeds MAX_FRAME_SIZE {maxFrameSize}"), after⟩
    else if len = 0 then subscribeOutputLoop rx sent after
    else
      match h' : after.readExact len with
      | (.error e, rest) => ⟨sent, resultOf e, rest⟩
      | (.ok payload, rest) =>
        have hlt' : rest.unread.length < reader.unread.length := by
          rw [(Source.le_of_readExact h').2, List.length_drop]
          omega
        if rx sent.length then subscribeOutputLoop rx (sent ++ [payload]) rest
        else ⟨sent, .ok (), rest⟩
termination_by reader.unread.length

/-- The result for a header that is too large. -/
def oversized (header : Bytes) : Except Error Unit :=
  .error (.message
    s!"subscribe_output: frame length {fromBeBytes header} exceeds MAX_FRAME_SIZE {maxFrameSize}")

section Steps

variable {rx : ℕ → Bool} {sent : List Bytes} {reader : Source UInt8} {lenBuf payload : Bytes}
  {e : ReadError}

theorem loop_of_error (h : (reader.readExact 4).1 = .error e) :
    subscribeOutputLoop rx sent reader = ⟨sent, resultOf e, (reader.readExact 4).2⟩ := by
  rw [subscribeOutputLoop]
  split <;> simp_all

theorem loop_of_oversized (h : (reader.readExact 4).1 = .ok lenBuf)
    (hmax : maxFrameSize < fromBeBytes lenBuf) :
    subscribeOutputLoop rx sent reader =
      ⟨sent, oversized lenBuf, (reader.readExact 4).2⟩ := by
  rw [subscribeOutputLoop]
  split <;> simp_all [oversized]

theorem loop_of_empty (h : (reader.readExact 4).1 = .ok lenBuf) (hlen : fromBeBytes lenBuf = 0) :
    subscribeOutputLoop rx sent reader =
      subscribeOutputLoop rx sent (reader.readExact 4).2 := by
  conv_lhs => rw [subscribeOutputLoop]
  split <;> simp_all

section Payload

variable (h : (reader.readExact 4).1 = .ok lenBuf) (hmax : fromBeBytes lenBuf ≤ maxFrameSize)
  (hlen : fromBeBytes lenBuf ≠ 0)
include h hmax hlen

/-- Behind a header that is in order the loop reads a payload. -/
theorem loop_of_header : subscribeOutputLoop rx sent reader =
    match (reader.readExact 4).2.readExact (fromBeBytes lenBuf) with
    | (.error e, rest) => ⟨sent, resultOf e, rest⟩
    | (.ok payload, rest) =>
      if rx sent.length then subscribeOutputLoop rx (sent ++ [payload]) rest
      else ⟨sent, .ok (), rest⟩ := by
  conv_lhs => rw [subscribeOutputLoop]
  split
  case h_1 e' rest heq => simp [heq] at h
  case h_2 buf after heq =>
    obtain rfl : buf = lenBuf := by simpa [heq] using h
    simp only [heq]
    rw [if_neg (not_lt.mpr hmax), if_neg hlen]
    split <;> simp_all

theorem loop_of_short
    (hpayload : ((reader.readExact 4).2.readExact (fromBeBytes lenBuf)).1 = .error e) :
    subscribeOutputLoop rx sent reader =
      ⟨sent, resultOf e, ((reader.readExact 4).2.readExact (fromBeBytes lenBuf)).2⟩ := by
  rw [loop_of_header h hmax hlen]
  split
  case h_1 e' rest heq =>
    obtain rfl : e' = e := by simpa [heq] using hpayload
    rw [heq]
  case h_2 payload rest heq => simp [heq] at hpayload

theorem loop_of_payload
    (hpayload : ((reader.readExact 4).2.readExact (fromBeBytes lenBuf)).1 = .ok payload)
    (hrx : rx sent.length = true) :
    subscribeOutputLoop rx sent reader =
      subscribeOutputLoop rx (sent ++ [payload])
        ((reader.readExact 4).2.readExact (fromBeBytes lenBuf)).2 := by
  rw [loop_of_header h hmax hlen]
  split
  case h_1 e rest heq => simp [heq] at hpayload
  case h_2 payload' rest heq =>
    obtain rfl : payload' = payload := by simpa [heq] using hpayload
    rw [heq, if_pos hrx]

end Payload

end Steps

section Frames

variable {rx : ℕ → Bool} {sent : List Bytes} {reader : Source UInt8}
  {payload rest header : Bytes} {k : ℕ}

/-- A whole frame is handed on, unless it is empty. -/
theorem loop_frame (rx : ℕ → Bool) (sent : List Bytes) (h : reader.unread = frameOf payload ++ rest)
    (hle : payload.length ≤ Forgetty.maxFrameSize) (hrx : rx sent.length = true) :
    ∃ after : Source UInt8, after.unread = rest ∧ after.endError = reader.endError ∧
      subscribeOutputLoop rx sent reader =
        subscribeOutputLoop rx (sent ++ [payload].filter (· ≠ [])) after := by
  obtain ⟨hheader, hafter⟩ := readExact_header h
  have hlen := fromBeBytes_length hle
  by_cases hnil : payload = []
  · subst hnil
    refine ⟨(reader.readExact 4).2, hafter, rfl, ?_⟩
    simpa using loop_of_empty hheader hlen
  · obtain ⟨hpayload, hrest⟩ := readExact_payload hafter
    rw [← hlen] at hpayload hrest
    refine ⟨_, hrest, rfl, ?_⟩
    have hpos : payload.length ≠ 0 := by simpa using hnil
    rw [loop_of_payload hheader (hlen.trans_le hle) (by omega) hpayload hrx]
    simp [hnil]

/-- A stream that ends within a frame. -/
theorem loop_short (hle : payload.length ≤ Forgetty.maxFrameSize)
    (h : reader.unread = (frameOf payload).take k) (hlt : k < (frameOf payload).length) :
    (subscribeOutputLoop rx sent reader).sent = sent ∧
      (subscribeOutputLoop rx sent reader).result = resultOf reader.endError := by
  by_cases hk : k < 4
  · obtain ⟨herror, -⟩ := readExact_short_header (r := reader) (by simp [h]; omega)
    rw [loop_of_error herror]
    exact ⟨rfl, rfl⟩
  · obtain ⟨hheader, herror, -⟩ := readExact_short_payload h (by omega) hlt
    have hlen := fromBeBytes_length hle
    rw [length_frameOf] at hlt
    rw [← hlen] at herror
    rw [loop_of_short hheader (hlen.trans_le hle) (by omega) herror]
    exact ⟨rfl, rfl⟩

theorem loop_writeFrames (sent : List Bytes) {payloads : List Bytes} {encoded : Bytes}
    (h : writeFrames payloads = .ok encoded) (hr : reader.unread = encoded ++ rest) :
    ∃ after : Source UInt8, after.unread = rest ∧ after.endError = reader.endError ∧
      subscribeOutputLoop (fun _ => true) sent reader =
        subscribeOutputLoop (fun _ => true) (sent ++ payloads.filter (· ≠ [])) after := by
  induction payloads generalizing sent reader encoded with
  | nil =>
    have hnil : encoded = [] := by simpa [writeFrames] using h.symm
    exact ⟨reader, by simpa [hnil] using hr, rfl, by simp⟩
  | cons payload payloads ih =>
    obtain ⟨hle, encoded', henc, rfl⟩ := writeFrames_cons h
    rw [List.append_assoc] at hr
    obtain ⟨next, hnext, hend, hloop⟩ := loop_frame (fun _ => true) sent hr hle rfl
    obtain ⟨after, hrest, hend', hloop'⟩ := ih _ henc hnext
    refine ⟨after, hrest, hend'.trans hend, ?_⟩
    rw [hloop, hloop', List.append_assoc, ← List.filter_append, List.singleton_append]

end Frames

end OutputReader

open OutputReader

/-- Both readers have the payloads, the window those that are not empty, and then find the
end of the stream. -/
structure EndsAfter (payloads : List Bytes) (r : Source UInt8) : Prop where
  frames : (readFrames r).1 = payloads
  error : (readFrames r).2.1 = .read .unexpectedEof
  messages : (subscribeOutputLoop (fun _ => true) [] r).sent = payloads.filter (· ≠ [])
  result : (subscribeOutputLoop (fun _ => true) [] r).result = .ok ()

/-- Both have them, and then fail at a header that is too large, with everything behind the
header left unread. -/
structure FailsAfter (payloads : List Bytes) (header tail : Bytes) (r : Source UInt8) : Prop where
  frames : (readFrames r).1 = payloads
  error : (readFrames r).2.1 = .invalidData
    s!"frame length {fromBeBytes header} exceeds MAX_FRAME_SIZE {Forgetty.maxFrameSize}"
  unread : (readFrames r).2.2.unread = tail
  messages : (subscribeOutputLoop (fun _ => true) [] r).sent = payloads.filter (· ≠ [])
  result : (subscribeOutputLoop (fun _ => true) [] r).result = oversized header
  rest : (subscribeOutputLoop (fun _ => true) [] r).rest.unread = tail

/-- The stream ends behind some whole frames and within another. -/
theorem EndsAfter.of_short {payloads : List Bytes} {encoded : Bytes} {r : Source UInt8}
    (payload : Bytes) (k : ℕ) (h : writeFrames payloads = .ok encoded) (hle : payload.length ≤ Forgetty.maxFrameSize)
    (hk : k < (frameOf payload).length) (hr : r.unread = encoded ++ (frameOf payload).take k)
    (hend : r.fails = false) : EndsAfter payloads r := by
  have hend' : r.endError = .unexpectedEof := by simp [Source.endError, hend]
  obtain ⟨after, hunread, hafter, hframes⟩ := readFrames_writeFrames h hr
  obtain ⟨after', hunread', hafter', hloop⟩ := loop_writeFrames [] h hr
  rw [hend'] at hafter hafter'
  obtain ⟨herror, -⟩ := readFrame_short hle hunread hk
  have hshort := @loop_short (fun _ => true) ([] ++ payloads.filter (· ≠ [])) after' payload k hle
    hunread' hk
  rw [readFrames_of_error herror, hafter] at hframes
  rw [← hloop, hafter'] at hshort
  exact ⟨by simp [hframes], by simp [hframes], by simpa using hshort.1, hshort.2⟩

theorem frame_codec {payloads : List Bytes} {encoded : Bytes}
    (h : writeFrames payloads = .ok encoded) :
    (∀ r : Source UInt8, r.unread = encoded → r.fails = false → EndsAfter payloads r) ∧
    (∀ n < encoded.length, ∃ k whole next, writeFrames (payloads.take k) = .ok whole ∧
      writeFrames (payloads.take (k + 1)) = .ok next ∧ whole.length ≤ n ∧ n < next.length ∧
      ∀ r : Source UInt8, r.unread = encoded.take n → r.fails = false →
        EndsAfter (payloads.take k) r) ∧
    ∀ (header tail : Bytes) (r : Source UInt8), header.length = 4 →
      Forgetty.maxFrameSize < fromBeBytes header → r.unread = encoded ++ (header ++ tail) →
      FailsAfter payloads header tail r := by
  refine ⟨fun r hr hend => ?_, fun n hn => ?_, fun header tail r hheader hmax hr => ?_⟩
  · exact EndsAfter.of_short [] 0 h (Nat.zero_le _) (by simp) (by simpa using hr)
      hend
  · obtain ⟨k, payload, whole, next, hwhole, hnext, hlast, hle, hk, hlt, htake⟩ :=
      take_writeFrames h hn
    refine ⟨k, whole, next, hwhole, hnext, hk, hlt, fun r hr hend => ?_⟩
    have hlen : next.length = whole.length + (frameOf payload).length := by
      rw [hlast, List.length_append]
    exact EndsAfter.of_short payload (n - whole.length) hwhole hle (by omega) (hr.trans htake) hend
  · obtain ⟨after, hunread, -, hframes⟩ := readFrames_writeFrames h hr
    obtain ⟨after', hunread', -, hloop⟩ := loop_writeFrames [] h hr
    obtain ⟨herror, htail⟩ := readFrame_oversized hunread hheader hmax
    obtain ⟨hbuf, htail'⟩ := readExact_oversized hunread' hheader
    rw [readFrames_of_error herror] at hframes
    rw [loop_of_oversized hbuf hmax] at hloop
    exact ⟨by simp [hframes], by simp [hframes], by simpa [hframes] using htail,
      by simp [hloop], by simp [hloop], by simpa [hloop] using htail'⟩

/-- Two frames, the second empty. -/
theorem frame_codec_two :
    (∀ r : Source UInt8, r.unread = [0, 0, 0, 1, 7, 0, 0, 0, 0] → r.fails = false →
        EndsAfter [[7], []] r) ∧
      FailsAfter [[7], []] [1, 0, 0, 0] [9]
        ⟨[[0, 0], [0, 1, 7, 0, 0, 0], [0, 1, 0], [0, 0, 9]], false⟩ := by
  have h : writeFrames [[7], []] = .ok [0, 0, 0, 1, 7, 0, 0, 0, 0] := by decide
  exact ⟨(frame_codec h).1, (frame_codec h).2.2 [1, 0, 0, 0] [9] _ rfl (by decide) rfl⟩

end Forgetty
