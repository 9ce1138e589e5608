import Mathlib.Data.List.Basic
import Mathlib.Tactic.Common

/-! Bytes as text: every three bytes are four digits of six bits, and the last group is padded.
A decoder that takes only canonical padding reads exactly the texts that are written. -/

namespace Forgetty.Lib.Base64

/-! ### Digits -/

/-- The digit with a value below 64. -/
def digit (v : ℕ) : Char :=
  if v < 26 then Char.ofNat ('A'.toNat + v)
  else if v < 52 then Char.ofNat ('a'.toNat + (v - 26))
  else if v < 62 then Char.ofNat ('0'.toNat + (v - 52))
  else if v = 62 then '+'
  else '/'

def value (c : Char) : Option ℕ :=
  if 'A'.toNat ≤ c.toNat ∧ c.toNat ≤ 'Z'.toNat then some (c.toNat - 'A'.toNat)
  else if 'a'.toNat ≤ c.toNat ∧ c.toNat ≤ 'z'.toNat then some (c.toNat - 'a'.toNat + 26)
  else if '0'.toNat ≤ c.toNat ∧ c.toNat ≤ '9'.toNat then some (c.toNat - '0'.toNat + 52)
  else if c = '+' then some 62
  else if c = '/' then some 63
  else none

theorem value_digit {v : ℕ} (h : v < 64) : value (digit v) = some v := by
  have hall : ∀ v < 64, value (digit v) = some v := by decide
  exact hall v h

theorem digit_of_value {c : Char} {v : ℕ} (h : value c = some v) : v < 64 ∧ digit v = c := by
  have hA : 'A'.toNat = 65 := rfl
  have hZ : 'Z'.toNat = 90 := rfl
  have ha : 'a'.toNat = 97 := rfl
  have hz : 'z'.toNat = 122 := rfl
  have h0 : '0'.toNat = 48 := rfl
  have h9 : '9'.toNat = 57 := rfl
  rw [value] at h
  split_ifs at h with h1 h2 h3 h4 h5
  · obtain rfl := Option.some.inj h
    refine ⟨by omega, ?_⟩
    rw [digit, if_pos (by omega), Nat.add_sub_cancel' h1.1, Char.ofNat_toNat]
  · obtain rfl := Option.some.inj h
    refine ⟨by omega, ?_⟩
    rw [digit, if_neg (by omega), if_pos (by omega), Nat.add_sub_cancel, Nat.add_sub_cancel' h2.1,
      Char.ofNat_toNat]
  · obtain rfl := Option.some.inj h
    refine ⟨by omega, ?_⟩
    rw [digit, if_neg (by omega), if_neg (by omega), if_pos (by omega), Nat.add_sub_cancel,
      Nat.add_sub_cancel' h3.1, Char.ofNat_toNat]
  · obtain rfl := Option.some.inj h
    exact ⟨by omega, h4.symm⟩
  · obtain rfl := Option.some.inj h
    exact ⟨by omega, h5.symm⟩

theorem value_pad : value '=' = none := by decide

/-! ### Texts -/

/-- The digits of three bytes. -/
def digits (a b c : UInt8) : List Char :=
  [digit (a.toNat / 4), digit (a.toNat % 4 * 16 + b.toNat / 16),
    digit (b.toNat % 16 * 4 + c.toNat / 64), digit (c.toNat % 64)]

def encode : List UInt8 → List Char
  | [] => []
  | [a] => (digits a 0 0).take 2 ++ ['=', '=']
  | [a, b] => (digits a b 0).take 3 ++ ['=']
  | a :: b :: c :: rest => digits a b c ++ encode rest

/-- The bytes of four digits. -/
def bytes (v₀ v₁ v₂ v₃ : ℕ) : List UInt8 :=
  [UInt8.ofNat (v₀ * 4 + v₁ / 16), UInt8.ofNat (v₁ % 16 * 16 + v₂ / 4),
    UInt8.ofNat (v₂ % 4 * 64 + v₃)]

/-- The bits of the last digit that stand for no byte are zero. -/
def decode : List Char → Option (List UInt8)
  | [] => some []
  | c₀ :: c₁ :: c₂ :: c₃ :: rest =>
    match value c₀, value c₁, value c₂, value c₃ with
    | some v₀, some v₁, some v₂, some v₃ => (decode rest).map (bytes v₀ v₁ v₂ v₃ ++ ·)
    | some v₀, some v₁, some v₂, none =>
      if c₃ = '=' ∧ rest = [] ∧ v₂ % 4 = 0 then some ((bytes v₀ v₁ v₂ 0).take 2) else none
    | some v₀, some v₁, none, none =>
      if c₂ = '=' ∧ c₃ = '=' ∧ rest = [] ∧ v₁ % 16 = 0 then some ((bytes v₀ v₁ 0 0).take 1)
      else none
    | _, _, _, _ => none
  | _ => none

example : encode [102, 111, 111, 98] = "Zm9vYg==".toList := by decide

/-- The bytes of the digits of three bytes. -/
theorem bytes_digits (a b c : UInt8) :
    bytes (a.toNat / 4) (a.toNat % 4 * 16 + b.toNat / 16) (b.toNat % 16 * 4 + c.toNat / 64)
      (c.toNat % 64) = [a, b, c] := by
  have ha := a.toNat_lt
  have hb := b.toNat_lt
  have hc := c.toNat_lt
  have h1 : a.toNat / 4 * 4 + (a.toNat % 4 * 16 + b.toNat / 16) / 16 = a.toNat := by omega
  have h2 : (a.toNat % 4 * 16 + b.toNat / 16) % 16 * 16 +
      (b.toNat % 16 * 4 + c.toNat / 64) / 4 = b.toNat := by omega
  have h3 : (b.toNat % 16 * 4 + c.toNat / 64) % 4 * 64 + c.toNat % 64 = c.toNat := by omega
  rw [bytes, h1, h2, h3, UInt8.ofNat_toNat, UInt8.ofNat_toNat, UInt8.ofNat_toNat]

/-- What is written is read. -/
theorem decode_encode (data : List UInt8) : decode (encode data) = some data := by
  induction data using encode.induct with
  | case1 => rfl
  | case2 a =>
    have ha := a.toNat_lt
    have hbytes := bytes_digits a 0 0
    simp only [UInt8.toNat_zero, Nat.zero_div, Nat.zero_mod, Nat.zero_mul, Nat.add_zero] at hbytes
    simp [encode, digits, decode, value_digit, value_pad, hbytes, show a.toNat / 4 < 64 by omega,
      show a.toNat % 4 * 16 < 64 by omega]
  | case3 a b =>
    have ha := a.toNat_lt
    have hb := b.toNat_lt
    have hbytes := bytes_digits a b 0
    simp only [UInt8.toNat_zero, Nat.zero_div, Nat.zero_mod, Nat.add_zero] at hbytes
    simp [encode, digits, decode, value_digit, value_pad, hbytes, show a.toNat / 4 < 64 by omega,
      show a.toNat % 4 * 16 + b.toNat / 16 < 64 by omega, show b.toNat % 16 * 4 < 64 by omega]
  | case4 a b c rest ih =>
    have ha := a.toNat_lt
    have hb := b.toNat_lt
    have hc := c.toNat_lt
    simp [encode, digits, decode, value_digit, ih, bytes_digits, show a.toNat / 4 < 64 by omega,
      show a.toNat % 4 * 16 + b.toNat / 16 < 64 by omega,
      show b.toNat % 16 * 4 + c.toNat / 64 < 64 by omega, show c.toNat % 64 < 64 by omega]

/-- The digits of the bytes of four values. -/
theorem digits_bytes {v₀ v₁ v₂ v₃ : ℕ} (h₀ : v₀ < 64) (h₁ : v₁ < 64) (h₂ : v₂ < 64) (h₃ : v₃ < 64) :
    digits (UInt8.ofNat (v₀ * 4 + v₁ / 16)) (UInt8.ofNat (v₁ % 16 * 16 + v₂ / 4))
      (UInt8.ofNat (v₂ % 4 * 64 + v₃)) = [digit v₀, digit v₁, digit v₂, digit v₃] := by
  rw [digits, UInt8.toNat_ofNat', UInt8.toNat_ofNat', UInt8.toNat_ofNat',
    show (v₀ * 4 + v₁ / 16) % 2 ^ 8 / 4 = v₀ by omega,
    show (v₀ * 4 + v₁ / 16) % 2 ^ 8 % 4 * 16 + (v₁ % 16 * 16 + v₂ / 4) % 2 ^ 8 / 16 = v₁ by omega,
    show (v₁ % 16 * 16 + v₂ / 4) % 2 ^ 8 % 16 * 4 + (v₂ % 4 * 64 + v₃) % 2 ^ 8 / 64 = v₂ by omega,
    show (v₂ % 4 * 64 + v₃) % 2 ^ 8 % 64 = v₃ by omega]

/-- Nothing else is read: a text that is read is the one that is written. -/
theorem encode_of_decode {text : List Char} {data : List UInt8} (h : decode text = some data) :
    encode data = text := by
  induction text using decode.induct generalizing data with
  | case1 =>
    obtain rfl := Option.some.inj h
    rfl
  | case2 c₀ c₁ c₂ c₃ rest v₀ v₁ v₂ v₃ h₃ h₂ h₁ h₀ ih =>
    simp only [decode, h₀, h₁, h₂, h₃] at h
    obtain ⟨tail, htail, rfl⟩ := Option.map_eq_some_iff.mp h
    obtain ⟨hv₀, rfl⟩ := digit_of_value h₀
    obtain ⟨hv₁, rfl⟩ := digit_of_value h₁
    obtain ⟨hv₂, rfl⟩ := digit_of_value h₂
    obtain ⟨hv₃, rfl⟩ := digit_of_value h₃
    show digits _ _ _ ++ encode tail = _
    rw [digits_bytes hv₀ hv₁ hv₂ hv₃, ih htail]
    rfl
  | case3 c₀ c₁ c₂ c₃ rest v₀ v₁ v₂ h₃ h₂ h₁ h₀ hpad =>
    simp only [decode, h₀, h₁, h₂, h₃, if_pos hpad, Option.some.injEq] at h
    obtain ⟨rfl, rfl, hbits⟩ := hpad
    obtain ⟨hv₀, rfl⟩ := digit_of_value h₀
    obtain ⟨hv₁, rfl⟩ := digit_of_value h₁
    obtain ⟨hv₂, rfl⟩ := digit_of_value h₂
    have hdigits := digits_bytes hv₀ hv₁ hv₂ (Nat.zero_lt_succ 63)
    rw [hbits] at hdigits
    subst h
    show (digits _ _ (UInt8.ofNat (0 * 64 + 0))).take 3 ++ ['='] = _
    rw [hdigits]
    rfl
  | case4 c₀ c₁ c₂ c₃ rest v₀ v₁ v₂ h₃ h₂ h₁ h₀ hpad =>
    simp only [decode, h₀, h₁, h₂, h₃, if_neg hpad] at h
    cases h
  | case5 c₀ c₁ c₂ c₃ rest v₀ v₁ h₃ h₂ h₁ h₀ hpad =>
    simp only [decode, h₀, h₁, h₂, h₃, if_pos hpad, Option.some.injEq] at h
    obtain ⟨rfl, rfl, rfl, hbits⟩ := hpad
    obtain ⟨hv₀, rfl⟩ := digit_of_value h₀
    obtain ⟨hv₁, rfl⟩ := digit_of_value h₁
    have hdigits := digits_bytes hv₀ hv₁ (Nat.zero_lt_succ 63) (Nat.zero_lt_succ 63)
    rw [hbits] at hdigits
    subst h
    show (digits _ (UInt8.ofNat (0 * 16 + 0 / 4)) (UInt8.ofNat (0 % 4 * 64 + 0))).take 2 ++
      ['=', '='] = _
    rw [hdigits]
    rfl
  | case6 c₀ c₁ c₂ c₃ rest v₀ v₁ h₃ h₂ h₁ h₀ hpad =>
    simp only [decode, h₀, h₁, h₂, h₃, if_neg hpad] at h
    cases h
  | case7 c₀ c₁ c₂ c₃ rest hfour hthree htwo =>
    rw [decode] at h
    split at h
    · rename_i h₀ h₁ h₂ h₃
      exact absurd h₃ (hfour _ _ _ _ h₀ h₁ h₂)
    · rename_i h₀ h₁ h₂ h₃
      exact absurd h₃ (hthree _ _ _ h₀ h₁ h₂)
    · rename_i h₀ h₁ h₂ h₃
      exact absurd h₃ (htwo _ _ h₀ h₁ h₂)
    · cases h
  | case8 text hnil hcons =>
    rw [decode] at h
    · cases h
    · exact hnil
    · exact hcons

theorem decode_eq_some_iff {text : List Char} {data : List UInt8} :
    decode text = some data ↔ text = encode data :=
  ⟨fun h => (encode_of_decode h).symm, fun h => h ▸ decode_encode data⟩

end Forgetty.Lib.Base64
