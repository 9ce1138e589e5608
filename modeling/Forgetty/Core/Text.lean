import Mathlib.Data.List.DropRight
import Mathlib.Data.String.Basic
import Forgetty.Vt.Screen

/-! Slices, blanks and lines of texts, as the standard library has them. A text is cut by bytes, and
a cut inside a character or behind the end panics. -/

namespace Forgetty

open String (utf8Len)

/-! ### Slices -/

/-- The text up to a byte and the rest. There is none if the byte is inside a character or behind
the end of the text. -/
def splitBytes : ℕ → Text → Option (Text × Text)
  | 0, text => some ([], text)
  | _ + 1, [] => none
  | n + 1, c :: cs =>
    if n + 1 < c.utf8Size then none
    else (splitBytes (n + 1 - c.utf8Size) cs).map fun (before, rest) => (c :: before, rest)

/-- `&text[start..]`. -/
def dropBytes (start : ℕ) (text : Text) : Option Text := (splitBytes start text).map (·.2)

/-- `&text[start..stop]`. -/
def sliceBytes (start stop : ℕ) (text : Text) : Option Text :=
  if start ≤ stop then
    (dropBytes start text).bind fun rest => (splitBytes (stop - start) rest).map (·.1)
  else none

theorem splitBytes_eq_some_iff {n : ℕ} {text before rest : Text} :
    splitBytes n text = some (before, rest) ↔ text = before ++ rest ∧ utf8Len before = n := by
  fun_induction splitBytes n text generalizing before with
  | case1 text =>
    rw [Option.some.injEq, Prod.mk.injEq]
    constructor
    · rintro ⟨rfl, rfl⟩
      exact ⟨rfl, rfl⟩
    · rintro ⟨rfl, hlen⟩
      rw [String.utf8Len_eq_zero.mp hlen]
      exact ⟨rfl, rfl⟩
  | case2 n =>
    refine ⟨fun h => (by cases h), fun ⟨htext, hlen⟩ => ?_⟩
    obtain ⟨rfl, rfl⟩ := List.append_eq_nil_iff.mp htext.symm
    cases hlen
  | case3 n c cs hc =>
    refine ⟨fun h => (by cases h), fun ⟨htext, hlen⟩ => ?_⟩
    cases before with
    | nil => cases hlen
    | cons d ds =>
      obtain ⟨rfl, -⟩ := List.cons_eq_cons.mp htext
      rw [String.utf8Len_cons] at hlen
      omega
  | case4 n c cs hc ih =>
    rw [Option.map_eq_some_iff]
    have hpos := c.utf8Size_pos
    constructor
    · rintro ⟨⟨before', rest'⟩, hsplit, heq⟩
      obtain ⟨rfl, rfl⟩ := Prod.mk.inj heq
      obtain ⟨rfl, hlen⟩ := ih.mp hsplit
      refine ⟨rfl, ?_⟩
      rw [String.utf8Len_cons]
      omega
    · rintro ⟨htext, hlen⟩
      cases before with
      | nil => cases hlen
      | cons d ds =>
        obtain ⟨rfl, rfl⟩ := List.cons_eq_cons.mp htext
        rw [String.utf8Len_cons] at hlen
        exact ⟨(ds, rest), ih.mpr ⟨rfl, by omega⟩, rfl⟩

theorem dropBytes_utf8Len (before text : Text) :
    dropBytes (utf8Len before) (before ++ text) = some text := by
  rw [dropBytes, splitBytes_eq_some_iff.mpr ⟨rfl, rfl⟩]
  rfl

/-- Inside a character no slice begins. -/
theorem dropBytes_inside (before text : Text) {c : Char} {k : ℕ} (h0 : 0 < k)
    (hk : k < c.utf8Size) : dropBytes (utf8Len before + k) (before ++ c :: text) = none := by
  rw [dropBytes, Option.map_eq_none_iff]
  induction before with
  | nil =>
    obtain ⟨n, rfl⟩ : ∃ n, k = n + 1 := ⟨k - 1, by omega⟩
    rw [String.utf8Len_nil, Nat.zero_add, List.nil_append, splitBytes, if_pos hk]
  | cons d before ih =>
    rw [List.cons_append, String.utf8Len_cons]
    obtain ⟨n, hn⟩ : ∃ n, utf8Len before + d.utf8Size + k = n + 1 :=
      ⟨utf8Len before + d.utf8Size + k - 1, by omega⟩
    rw [hn, splitBytes, if_neg (by omega), ← hn,
      show utf8Len before + d.utf8Size + k - d.utf8Size = utf8Len before + k by omega, ih]
    rfl

theorem sliceBytes_append {start stop : ℕ} (hle : start ≤ stop) {before : Text}
    (h : utf8Len before = start) (text : Text) :
    sliceBytes start stop (before ++ text) = (splitBytes (stop - start) text).map (·.1) := by
  rw [sliceBytes, if_pos hle, ← h, dropBytes_utf8Len, Option.bind_some]

theorem sliceBytes_utf8Len (a b c : Text) :
    sliceBytes (utf8Len a) (utf8Len (a ++ b)) (a ++ (b ++ c)) = some b := by
  rw [String.utf8Len_append, sliceBytes_append (by omega) rfl, Nat.add_sub_cancel_left,
    splitBytes_eq_some_iff.mpr ⟨rfl, rfl⟩]
  rfl

/-- `char::is_ascii`. -/
def isAscii (c : Char) : Bool := c.toNat < 128

theorem utf8Len_of_isAscii {text : Text} (h : ∀ c ∈ text, isAscii c) :
    utf8Len text = text.length := by
  induction text with
  | nil => rfl
  | cons c text ih =>
    have hsize : c.utf8Size = 1 := by
      rw [Char.utf8Size_eq_one_iff, UInt32.le_iff_toNat_le]
      exact Nat.le_of_lt_succ (of_decide_eq_true (h c List.mem_cons_self))
    rw [String.utf8Len_cons, hsize, ih fun c hc => h c (List.mem_cons_of_mem _ hc),
      List.length_cons]

/-! ### Blanks and lines -/

/-- The characters with the Unicode property White_Space. -/
def isWhitespace (c : Char) : Bool :=
  let n := c.toNat
  (9 ≤ n && n ≤ 13) || n == 32 || n == 0x85 || n == 0xa0 || n == 0x1680 ||
    (0x2000 ≤ n && n ≤ 0x200a) || n == 0x2028 || n == 0x2029 || n == 0x202f || n == 0x205f ||
    n == 0x3000

namespace Clipboard

def trimStart (text : Text) : Text := text.dropWhile isWhitespace

def trimEnd (text : Text) : Text := text.rdropWhile isWhitespace

/-- A line without the carriage return at its end. -/
def stripCr (line : Text) : Text := if line.getLast? = some '\r' then line.dropLast else line

/-- `str::lines`, behind the beginning of a line. A text ends without an empty line. -/
def lines : Text → Text → List Text
  | line, [] => if line.isEmpty then [] else [line]
  | line, c :: cs => if c = '\n' then stripCr line :: lines [] cs else lines (line ++ [c]) cs

end Clipboard

end Forgetty
