import Mathlib.Data.Nat.Size
import Mathlib.Tactic.Common
import Mathlib.Tactic.Positivity
import Mathlib.Tactic.Ring

/-! Binary floating-point numbers of any format, and the conversion from one format to another,
which rounds to the nearest number and from the middle to the even one. A number that goes to
a wider format and back is the same. -/

namespace Forgetty.Lib

/-- The number of significant bits, and the least and the greatest exponent of the last of them. -/
structure FloatFormat where
  precision : ℕ
  minExp : ℤ
  maxExp : ℤ

namespace FloatFormat

/-- The mantissa has all its bits, or the exponent is the least one. -/
def Canonical (F : FloatFormat) (m : ℕ) (e : ℤ) : Prop :=
  m < 2 ^ F.precision ∧ F.minExp ≤ e ∧ e ≤ F.maxExp ∧ (e = F.minExp ∨ 2 ^ F.precision ≤ 2 * m)

instance (F : FloatFormat) (m : ℕ) (e : ℤ) : Decidable (F.Canonical m e) :=
  inferInstanceAs (Decidable (_ ∧ _ ∧ _ ∧ _))

/-- All numbers of the one format are numbers of the other. -/
structure Le (F G : FloatFormat) : Prop where
  precision : F.precision ≤ G.precision
  minExp : G.minExp ≤ F.minExp
  maxExp : F.maxExp ≤ G.maxExp

end FloatFormat

inductive BinaryFloat (F : FloatFormat) where
  | finite (negative : Bool) (m : ℕ) (e : ℤ) (canonical : F.Canonical m e)
  | infinite (negative : Bool)
  | nan
  deriving DecidableEq

namespace BinaryFloat

variable (F : FloatFormat)

/-- The exponent of the last bit of `m * 2 ^ e`. -/
def lastExp (m : ℕ) (e : ℤ) : ℤ := max F.minExp (e + m.size - F.precision)

/-- The nearest multiple of `2 ^ t` to `m * 2 ^ e`, divided by `2 ^ t`. -/
def roundAt (t : ℤ) (m : ℕ) (e : ℤ) : ℕ :=
  if t ≤ e then m * 2 ^ (e - t).toNat
  else
    let k := (t - e).toNat
    let q := m / 2 ^ k
    let r := m % 2 ^ k
    if 2 * r < 2 ^ k ∨ 2 * r = 2 ^ k ∧ q % 2 = 0 then q else q + 1

/-- The number of the format that is nearest to `m * 2 ^ e`. -/
def round (negative : Bool) (m : ℕ) (e : ℤ) : BinaryFloat F :=
  let t := if m = 0 then F.minExp else lastExp F m e
  let rounded := roundAt t m e
  -- a carry makes the number one bit longer
  let m' := if rounded = 2 ^ F.precision then rounded / 2 else rounded
  let t' := if rounded = 2 ^ F.precision then t + 1 else t
  if h : F.Canonical m' t' then .finite negative m' t' h else .infinite negative

def ofInt (n : ℤ) : BinaryFloat F := round F (n < 0) n.natAbs 0

variable {F} {G : FloatFormat}

def convert : BinaryFloat F → BinaryFloat G
  | finite negative m e _ => round G negative m e
  | infinite negative => infinite negative
  | nan => nan

theorem roundAt_mul_pow (m k : ℕ) (e : ℤ) : roundAt e (m * 2 ^ k) (e - k) = m := by
  have hpow : 0 < 2 ^ k := by positivity
  unfold roundAt
  split_ifs with h
  · have hk : k = 0 := by omega
    subst hk
    simp
  · simp

/-- The exponent of the last bit stays when the mantissa is written with more bits. -/
theorem lastExp_mul_pow {m : ℕ} (hm : m ≠ 0) (k : ℕ) (e : ℤ) :
    lastExp F (m * 2 ^ k) (e - k) = lastExp F m e := by
  rw [lastExp, lastExp, ← Nat.shiftLeft_eq, Nat.size_shiftLeft hm]
  push_cast
  congr 1
  ring

theorem lastExp_of_canonical {m : ℕ} {e : ℤ} (h : F.Canonical m e) : lastExp F m e = e := by
  obtain ⟨hlt, hmin, -, hfull⟩ := h
  have hsize : m.size ≤ F.precision := Nat.size_le.mpr hlt
  rcases hfull with rfl | hfull
  · rw [lastExp]
    omega
  · have hbits : F.precision ≤ m.size := by
      by_contra hshort
      have hsmall : m < 2 ^ (F.precision - 1) := Nat.size_le.mp (by omega)
      have hdouble : 2 ^ F.precision = 2 * 2 ^ (F.precision - 1) := by
        rw [← pow_succ', Nat.sub_add_cancel (by omega)]
      omega
    rw [lastExp]
    omega

/-- A number of the format is rounded to itself, with however many bits it is written. -/
theorem round_of_canonical {m : ℕ} {e : ℤ} (h : F.Canonical m e) (hm : m ≠ 0) (k : ℕ)
    (negative : Bool) : round F negative (m * 2 ^ k) (e - k) = .finite negative m e h := by
  have hne : m * 2 ^ k ≠ 0 := by positivity
  have hround : roundAt e (m * 2 ^ k) (e - k) ≠ 2 ^ F.precision := by
    rw [roundAt_mul_pow]
    exact h.1.ne
  simp only [round, if_neg hne, lastExp_mul_pow hm, lastExp_of_canonical h, if_neg hround]
  simp only [roundAt_mul_pow, dif_pos h]

theorem round_zero {e : ℤ} (h : F.Canonical 0 e) (e' : ℤ) (negative : Bool) :
    round F negative 0 e' = .finite negative 0 e h := by
  have he : e = F.minExp := by
    rcases h.2.2.2 with he | hfull
    · exact he
    · have : 0 < 2 ^ F.precision := by positivity
      omega
  subst he
  have hround : roundAt F.minExp 0 e' = 0 := by
    unfold roundAt
    split_ifs <;> simp
  have hpow : 0 ≠ 2 ^ F.precision := by positivity
  simp only [round, if_pos, hround, if_neg hpow, dif_pos h]

/-- A number of the narrower format has the same value in the wider one, where it is written with
more bits. -/
theorem round_of_le (hle : F.Le G) {m : ℕ} {e : ℤ} (h : F.Canonical m e) (hm : m ≠ 0)
    (negative : Bool) :
    ∃ (k : ℕ) (h' : G.Canonical (m * 2 ^ k) (e - k)),
      round G negative m e = .finite negative (m * 2 ^ k) (e - k) h' := by
  obtain ⟨hlt, hmin, hmax, -⟩ := h
  have hsize : m.size ≤ F.precision := Nat.size_le.mpr hlt
  have ht : lastExp G m e ≤ e := by
    have := hle.precision
    have := hle.minExp
    rw [lastExp]
    omega
  obtain ⟨k, hk⟩ : ∃ k : ℕ, lastExp G m e = e - k := ⟨(e - lastExp G m e).toNat, by omega⟩
  have hbits : (m * 2 ^ k).size = m.size + k := by rw [← Nat.shiftLeft_eq, Nat.size_shiftLeft hm]
  have hcanonical : G.Canonical (m * 2 ^ k) (e - k) := by
    have := hle.minExp
    have := hle.maxExp
    refine ⟨Nat.size_le.mp ?_, ?_, ?_, ?_⟩
    · rw [lastExp] at hk
      omega
    · rw [lastExp] at hk
      omega
    · omega
    · by_cases hfull : e - k = G.minExp
      · exact .inl hfull
      · right
        have hG : G.precision = (m * 2 ^ k).size := by
          rw [lastExp] at hk
          omega
        have hpos : 0 < (m * 2 ^ k).size := by
          rw [hbits]
          have := Nat.size_pos.mpr (Nat.pos_of_ne_zero hm)
          omega
        have hlow : 2 ^ (G.precision - 1) ≤ m * 2 ^ k := Nat.lt_size.mp (by omega)
        have hdouble : 2 ^ G.precision = 2 * 2 ^ (G.precision - 1) := by
          rw [← pow_succ', Nat.sub_add_cancel (by omega)]
        omega
  have hround : roundAt (e - k) m e = m * 2 ^ k := by
    have hdiff : (e - (e - k)).toNat = k := by omega
    rw [roundAt, if_pos (by omega), hdiff]
  refine ⟨k, hcanonical, ?_⟩
  simp only [round, if_neg hm, hk, hround, if_neg hcanonical.1.ne, dif_pos hcanonical]

/-- To a wider format and back. -/
theorem convert_convert (hle : F.Le G) (x : BinaryFloat F) :
    (x.convert : BinaryFloat G).convert = x := by
  cases x with
  | finite negative m e h =>
    by_cases hm : m = 0
    · subst hm
      have hG : G.Canonical 0 G.minExp := by
        have := hle.minExp
        have := hle.maxExp
        obtain ⟨-, hmin, hmax, -⟩ := h
        exact ⟨by positivity, le_rfl, by omega, .inl rfl⟩
      rw [convert, round_zero hG, convert, round_zero h]
    · obtain ⟨k, h', hround⟩ := round_of_le hle h hm negative
      rw [convert, hround, convert, round_of_canonical h hm]
  | infinite negative => rfl
  | nan => rfl

/-! ### How far two numbers are apart -/

/-- The number, as a multiple of `2 ^ g`. -/
def scaled (negative : Bool) (m : ℕ) (e g : ℤ) : ℤ :=
  (if negative then -1 else 1) * (m * 2 ^ (e - g).toNat)

/-- The size of the difference, rounded. -/
def distance : BinaryFloat F → BinaryFloat F → BinaryFloat F
  | finite negative m e _, finite negative' m' e' _ =>
    let g := min e e'
    round F false (scaled negative m e g - scaled negative' m' e' g).natAbs g
  | infinite negative, infinite negative' => if negative = negative' then nan else infinite false
  | infinite _, finite .. | finite .., infinite _ => infinite false
  | nan, _ | _, nan => nan

/-- Nothing is less than what is no number, and that is less than nothing. -/
def lt : BinaryFloat F → BinaryFloat F → Bool
  | finite negative m e _, finite negative' m' e' _ =>
    let g := min e e'
    scaled negative m e g < scaled negative' m' e' g
  | finite .., infinite negative => !negative
  | infinite negative, finite .. => negative
  | infinite negative, infinite negative' => negative && !negative'
  | nan, _ | _, nan => false

/-- A number is not apart from itself. -/
theorem lt_distance_self {m : ℕ} {e : ℤ} (h : F.Canonical m e) (x : BinaryFloat F) :
    lt (finite false m e h) (distance x x) = false := by
  cases x with
  | finite negative m' e' h' =>
    have hzero : F.Canonical 0 F.minExp := by
      obtain ⟨-, hmin, hmax, -⟩ := h
      exact ⟨by positivity, le_rfl, by omega, .inl rfl⟩
    rw [distance]
    simp only [sub_self, Int.natAbs_zero, round_zero hzero, lt, decide_eq_false_iff_not, not_lt]
    simp only [scaled, Nat.cast_zero, zero_mul, mul_zero, Bool.false_eq_true, if_false, one_mul]
    positivity
  | infinite negative =>
    rw [distance, if_pos rfl]
    rfl
  | nan => rfl

end BinaryFloat

end Forgetty.Lib
