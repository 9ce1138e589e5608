import Forgetty.Core.Text

/-! Colours with four channels and the reading of `#rrggbb` and `#rrggbbaa`. The text is cut by
bytes, and a cut inside a character panics; the number parser takes a sign in front of a
digit. -/

namespace Forgetty.Core

open String (utf8Len)

/-- How reading a value ends when there is none: with an error, or in a panic. -/
inductive ReadError where
  | invalid
  | panicked
  deriving DecidableEq, Repr

abbrev Reads := Except ReadError

/-- The slice `&text[i..j]`, or a panic. -/
def readSlice (i j : ℕ) (text : Text) : Reads Text :=
  match sliceBytes i j text with
  | some slice => .ok slice
  | none => .error .panicked

/-- `char::to_digit(16)`. -/
def hexDigit (c : Char) : Option ℕ :=
  if '0' ≤ c ∧ c ≤ '9' then some (c.toNat - '0'.toNat)
  else if 'a' ≤ c ∧ c ≤ 'f' then some (c.toNat - 'a'.toNat + 10)
  else if 'A' ≤ c ∧ c ≤ 'F' then some (c.toNat - 'A'.toNat + 10)
  else none

theorem hexDigit_digitChar : ∀ n < 16, hexDigit (Nat.digitChar n) = some n := by decide

/-- A digit more. A number that is too large is an error. -/
def pushHexDigit (acc : ℕ) (c : Char) : Option ℕ :=
  (hexDigit c).bind fun d => if acc * 16 + d < 256 then some (acc * 16 + d) else none

/-- `u8::from_str_radix(text, 16)`. -/
def u8FromHex (text : Text) : Reads UInt8 :=
  let digits := if text.head? = some '+' ∧ 1 < text.length then text.tail else text
  if digits.isEmpty then .error .invalid
  else
    match digits.foldlM pushHexDigit 0 with
    | some n => .ok (UInt8.ofNat n)
    | none => .error .invalid

structure Rgba where
  r : UInt8
  g : UInt8
  b : UInt8
  a : UInt8
  deriving DecidableEq, Repr

namespace Rgba

/-- An opaque colour. -/
def rgb (r g b : UInt8) : Rgba := ⟨r, g, b, 255⟩

/-- `#rrggbb` or `#rrggbbaa`. -/
def fromHex : Text → Reads Rgba
  | '#' :: s =>
    if utf8Len s = 6 then do
      let r ← u8FromHex (← readSlice 0 2 s)
      let g ← u8FromHex (← readSlice 2 4 s)
      let b ← u8FromHex (← readSlice 4 6 s)
      .ok ⟨r, g, b, 255⟩
    else if utf8Len s = 8 then do
      let r ← u8FromHex (← readSlice 0 2 s)
      let g ← u8FromHex (← readSlice 2 4 s)
      let b ← u8FromHex (← readSlice 4 6 s)
      let a ← u8FromHex (← readSlice 6 8 s)
      .ok ⟨r, g, b, a⟩
    else .error .invalid
  | _ => .error .invalid

end Rgba

end Forgetty.Core
