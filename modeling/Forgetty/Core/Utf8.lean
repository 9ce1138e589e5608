import Mathlib.Data.List.Basic
import Mathlib.Data.String.Basic
import Mathlib.Tactic.Common

/-! Text in bytes. What is no text is read with losses: a replacement character stands for the
bytes that no character is read from. Nothing is lost of what was written as text. -/

namespace Forgetty

abbrev Bytes := List UInt8

namespace Utf8

def replacement : Char := '\uFFFD'

def isTail (b : UInt8) : Bool := 0x80 ≤ b && b ≤ 0xBF

/-- The second byte behind the first one of three. -/
def isSecond3 (b c : UInt8) : Bool :=
  if b = 0xE0 then 0xA0 ≤ c && c ≤ 0xBF
  else if b = 0xED then 0x80 ≤ c && c ≤ 0x9F
  else isTail c

/-- The second byte behind the first one of four. -/
def isSecond4 (b c : UInt8) : Bool :=
  if b = 0xF0 then 0x90 ≤ c && c ≤ 0xBF
  else if b = 0xF4 then 0x80 ≤ c && c ≤ 0x8F
  else isTail c

/-- The low six bits. -/
def low6 (b : UInt8) : ℕ := b.toNat % 64

/-- The first character and the bytes behind it. The longest start of a character that does
not go on is replaced as a whole. -/
def next (b : UInt8) (rest : Bytes) : Char × Bytes :=
  if b < 0x80 then (Char.ofNat b.toNat, rest)
  else if 0xC2 ≤ b && b ≤ 0xDF then
    match rest with
    | c :: rest => if isTail c then (Char.ofNat (b.toNat % 32 * 64 + low6 c), rest)
        else (replacement, c :: rest)
    | [] => (replacement, [])
  else if 0xE0 ≤ b && b ≤ 0xEF then
    match rest with
    | c :: d :: rest =>
      if isSecond3 b c then
        if isTail d then (Char.ofNat ((b.toNat % 16 * 64 + low6 c) * 64 + low6 d), rest)
        else (replacement, d :: rest)
      else (replacement, c :: d :: rest)
    | [c] => (replacement, if isSecond3 b c then [] else [c])
    | [] => (replacement, [])
  else if 0xF0 ≤ b && b ≤ 0xF4 then
    match rest with
    | c :: d :: e :: rest =>
      if isSecond4 b c then
        if isTail d then
          if isTail e then
            (Char.ofNat (((b.toNat % 8 * 64 + low6 c) * 64 + low6 d) * 64 + low6 e), rest)
          else (replacement, e :: rest)
        else (replacement, d :: e :: rest)
      else (replacement, c :: d :: e :: rest)
    | [c, d] =>
      (replacement, if isSecond4 b c then (if isTail d then [] else [d]) else [c, d])
    | [c] => (replacement, if isSecond4 b c then [] else [c])
    | [] => (replacement, [])
  else (replacement, rest)

def chars : ℕ → Bytes → List Char
  | 0, _ => []
  | _, [] => []
  | n + 1, b :: rest => (next b rest).1 :: chars n (next b rest).2

/-- `String::from_utf8_lossy`. Every character takes a byte at least. -/
def decodeLossy (data : Bytes) : String := String.ofList (chars data.length data)

/-- `str::as_bytes`. -/
def encode (text : List Char) : Bytes := text.flatMap String.utf8EncodeChar

/-! ### What was written is read -/

theorem encode_cons (c : Char) (text : List Char) :
    encode (c :: text) = String.utf8EncodeChar c ++ encode text := List.flatMap_cons

theorem length_encode (text : List Char) : (encode text).length = String.utf8Len text := by
  induction text with
  | nil => rfl
  | cons c text ih =>
    rw [encode_cons, List.length_append, String.length_utf8EncodeChar, ih, String.utf8Len_cons,
      Nat.add_comm]

/-- The numbers of the characters. -/
theorem toNat_valid (c : Char) : c.toNat < 0xD800 ∨ 0xDFFF < c.toNat ∧ c.toNat < 0x110000 := by
  have h := c.valid
  simpa [UInt32.isValidChar, Nat.isValidChar] using h

/-- The byte of a number below 256. -/
theorem toNat_ofNat_of_lt {n : ℕ} (h : n < 256) : (UInt8.ofNat n).toNat = n := by
  rw [UInt8.toNat_ofNat']
  exact Nat.mod_eq_of_lt h

theorem isTail_ofNat (n : ℕ) : isTail (UInt8.ofNat (n % 64 + 128)) = true := by
  have h : (UInt8.ofNat (n % 64 + 128)).toNat = n % 64 + 128 := toNat_ofNat_of_lt (by omega)
  simp only [isTail, Bool.and_eq_true, decide_eq_true_eq, UInt8.le_iff_toNat_le, h]
  exact ⟨Nat.le_add_left 128 _, by change _ ≤ 191; omega⟩

theorem low6_ofNat (n : ℕ) : low6 (UInt8.ofNat (n % 64 + 128)) = n % 64 := by
  rw [low6, toNat_ofNat_of_lt (by omega)]
  omega

/-- A first byte in a range, as a number. -/
theorem between_ofNat {lo hi : UInt8} {n : ℕ} (hn : n < 256) :
    (lo ≤ UInt8.ofNat n && UInt8.ofNat n ≤ hi) = true ↔ lo.toNat ≤ n ∧ n ≤ hi.toNat := by
  simp only [Bool.and_eq_true, decide_eq_true_eq, UInt8.le_iff_toNat_le, toNat_ofNat_of_lt hn]

theorem not_lt_ofNat {n : ℕ} (hn : n < 256) (h : 128 ≤ n) : ¬UInt8.ofNat n < 0x80 := by
  rw [UInt8.lt_iff_toNat_lt, toNat_ofNat_of_lt hn]
  change ¬n < 128
  omega

theorem ofNat_eq_iff {b : UInt8} {n : ℕ} (hn : n < 256) : UInt8.ofNat n = b ↔ n = b.toNat := by
  rw [← UInt8.toNat_inj, toNat_ofNat_of_lt hn]

/-- The second byte of three is in its range: the number is not too small for three bytes, and it
is none of a surrogate. -/
theorem isSecond3_ofNat {v : ℕ} (hlo : 2047 < v) (hhi : v ≤ 65535) (hv : v < 0xD800 ∨ 0xDFFF < v) :
    isSecond3 (UInt8.ofNat (v / 4096 % 16 + 224)) (UInt8.ofNat (v / 64 % 64 + 128)) = true := by
  rw [isSecond3]
  split_ifs with h1 h2
  · rw [ofNat_eq_iff (by omega)] at h1
    change v / 4096 % 16 + 224 = 224 at h1
    rw [between_ofNat (by omega)]
    change 160 ≤ _ ∧ _ ≤ 191
    omega
  · rw [ofNat_eq_iff (by omega)] at h2
    change v / 4096 % 16 + 224 = 237 at h2
    rw [between_ofNat (by omega)]
    change 128 ≤ _ ∧ _ ≤ 159
    omega
  · exact isTail_ofNat (v / 64)

/-- The second byte of four is in its range: the number is not too small for four bytes, and not
too large. -/
theorem isSecond4_ofNat {v : ℕ} (hlo : 65535 < v) (hhi : v < 0x110000) :
    isSecond4 (UInt8.ofNat (v / 262144 % 8 + 240)) (UInt8.ofNat (v / 4096 % 64 + 128)) = true := by
  rw [isSecond4]
  split_ifs with h1 h2
  · rw [ofNat_eq_iff (by omega)] at h1
    change v / 262144 % 8 + 240 = 240 at h1
    rw [between_ofNat (by omega)]
    change 144 ≤ _ ∧ _ ≤ 191
    omega
  · rw [ofNat_eq_iff (by omega)] at h2
    change v / 262144 % 8 + 240 = 244 at h2
    rw [between_ofNat (by omega)]
    change 128 ≤ _ ∧ _ ≤ 143
    omega
  · exact isTail_ofNat (v / 4096)

variable {v : ℕ} (rest : Bytes)

theorem next_one (h : v ≤ 127) : next (UInt8.ofNat v) rest = (Char.ofNat v, rest) := by
  have hlt : UInt8.ofNat v < 0x80 := by
    rw [UInt8.lt_iff_toNat_lt, toNat_ofNat_of_lt (by omega)]
    change v < 128
    omega
  unfold next
  rw [if_pos hlt, toNat_ofNat_of_lt (by omega)]

theorem next_two (hlo : 127 < v) (hhi : v ≤ 2047) :
    next (UInt8.ofNat (v / 64 % 32 + 192)) (UInt8.ofNat (v % 64 + 128) :: rest) =
      (Char.ofNat v, rest) := by
  have hb : (0xC2 ≤ UInt8.ofNat (v / 64 % 32 + 192) &&
      UInt8.ofNat (v / 64 % 32 + 192) ≤ 0xDF) = true := by
    rw [between_ofNat (by omega)]
    change 194 ≤ _ ∧ _ ≤ 223
    omega
  have hv : (v / 64 % 32 + 192) % 32 * 64 + v % 64 = v := by omega
  unfold next
  rw [if_neg (not_lt_ofNat (by omega) (by omega)), if_pos hb]
  simp only [isTail_ofNat, if_true, low6_ofNat]
  rw [toNat_ofNat_of_lt (by omega), hv]

theorem next_three (hlo : 2047 < v) (hhi : v ≤ 65535) (hvalid : v < 0xD800 ∨ 0xDFFF < v) :
    next (UInt8.ofNat (v / 4096 % 16 + 224))
      (UInt8.ofNat (v / 64 % 64 + 128) :: UInt8.ofNat (v % 64 + 128) :: rest) =
        (Char.ofNat v, rest) := by
  have hb2 : ¬(0xC2 ≤ UInt8.ofNat (v / 4096 % 16 + 224) &&
      UInt8.ofNat (v / 4096 % 16 + 224) ≤ 0xDF) = true := by
    rw [between_ofNat (by omega)]
    change ¬(194 ≤ _ ∧ _ ≤ 223)
    omega
  have hb : (0xE0 ≤ UInt8.ofNat (v / 4096 % 16 + 224) &&
      UInt8.ofNat (v / 4096 % 16 + 224) ≤ 0xEF) = true := by
    rw [between_ofNat (by omega)]
    change 224 ≤ _ ∧ _ ≤ 239
    omega
  have hv : ((v / 4096 % 16 + 224) % 16 * 64 + v / 64 % 64) * 64 + v % 64 = v := by omega
  unfold next
  rw [if_neg (not_lt_ofNat (by omega) (by omega)), if_neg hb2, if_pos hb]
  simp only [isSecond3_ofNat hlo hhi hvalid, isTail_ofNat, if_true, low6_ofNat]
  rw [toNat_ofNat_of_lt (by omega), hv]

theorem next_four (hlo : 65535 < v) (hhi : v < 0x110000) :
    next (UInt8.ofNat (v / 262144 % 8 + 240)) (UInt8.ofNat (v / 4096 % 64 + 128) ::
      UInt8.ofNat (v / 64 % 64 + 128) :: UInt8.ofNat (v % 64 + 128) :: rest) =
        (Char.ofNat v, rest) := by
  have hb2 : ¬(0xC2 ≤ UInt8.ofNat (v / 262144 % 8 + 240) &&
      UInt8.ofNat (v / 262144 % 8 + 240) ≤ 0xDF) = true := by
    rw [between_ofNat (by omega)]
    change ¬(194 ≤ _ ∧ _ ≤ 223)
    omega
  have hb3 : ¬(0xE0 ≤ UInt8.ofNat (v / 262144 % 8 + 240) &&
      UInt8.ofNat (v / 262144 % 8 + 240) ≤ 0xEF) = true := by
    rw [between_ofNat (by omega)]
    change ¬(224 ≤ _ ∧ _ ≤ 239)
    omega
  have hb : (0xF0 ≤ UInt8.ofNat (v / 262144 % 8 + 240) &&
      UInt8.ofNat (v / 262144 % 8 + 240) ≤ 0xF4) = true := by
    rw [between_ofNat (by omega)]
    change 240 ≤ _ ∧ _ ≤ 244
    omega
  have hv : (((v / 262144 % 8 + 240) % 8 * 64 + v / 4096 % 64) * 64 + v / 64 % 64) * 64 + v % 64 =
      v := by omega
  unfold next
  rw [if_neg (not_lt_ofNat (by omega) (by omega)), if_neg hb2, if_neg hb3, if_pos hb]
  simp only [isSecond4_ofNat hlo hhi, isTail_ofNat, if_true, low6_ofNat]
  rw [toNat_ofNat_of_lt (by omega), hv]

/-- A character is read from its bytes. -/
theorem next_utf8EncodeChar (c : Char) :
    ∃ b bs, String.utf8EncodeChar c = b :: bs ∧ ∀ rest, next b (bs ++ rest) = (c, rest) := by
  have hvalid := toNat_valid c
  have hval : c.val.toNat = c.toNat := rfl
  have hc : Char.ofNat c.toNat = c := Char.ofNat_toNat c
  unfold String.utf8EncodeChar
  simp only [hval]
  split_ifs with h1 h2 h3
  · exact ⟨_, _, rfl, fun rest => (next_one rest h1).trans (by rw [hc])⟩
  · exact ⟨_, _, rfl, fun rest => (next_two rest (by omega) h2).trans (by rw [hc])⟩
  · exact ⟨_, _, rfl, fun rest => (next_three rest (by omega) h3 (by omega)).trans (by rw [hc])⟩
  · exact ⟨_, _, rfl, fun rest => (next_four rest (by omega) (by omega)).trans (by rw [hc])⟩

theorem chars_encode {n : ℕ} (text : List Char) (h : (encode text).length ≤ n) :
    chars n (encode text) = text := by
  induction text generalizing n with
  | nil => cases n <;> rfl
  | cons c text ih =>
    obtain ⟨b, bs, hc, hnext⟩ := next_utf8EncodeChar c
    rw [encode_cons, hc, List.cons_append] at h ⊢
    cases n with
    | zero => exact absurd h (Nat.not_succ_le_zero _)
    | succ n =>
      rw [chars, hnext, ih]
      rw [List.length_cons, List.length_append] at h
      omega

theorem decodeLossy_encode (text : List Char) : decodeLossy (encode text) = String.ofList text := by
  rw [decodeLossy, chars_encode text (Nat.le_refl _)]

end Utf8

end Forgetty
