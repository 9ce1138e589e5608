import Mathlib.Algebra.BigOperators.Intervals
import Mathlib.Algebra.Order.BigOperators.Group.Finset
import Forgetty.Lib.Stretches

/-! The Gregorian calendar from the year zero on, counted in days. A date is a month of a year and
a day that the month has. -/

namespace Forgetty.Lib.Calendar

/-- Every fourth year, but of the centuries only every fourth. -/
def LeapYear (y : ℕ) : Prop := 4 ∣ y ∧ (100 ∣ y → 400 ∣ y)

instance : DecidablePred LeapYear := fun y =>
  inferInstanceAs (Decidable (4 ∣ y ∧ (100 ∣ y → 400 ∣ y)))

def yearLength (y : ℕ) : ℕ := if LeapYear y then 366 else 365

def monthLength (y : ℕ) : ℕ → ℕ
  | 2 => if LeapYear y then 29 else 28
  | 4 | 6 | 9 | 11 => 30
  | _ => 31

/-- The days before a year: a leap day for every fourth year before it, and so on. -/
def yearStart (y : ℕ) : ℕ := 365 * y + (y + 3) / 4 - (y + 99) / 100 + (y + 399) / 400

/-- The days of a year before a month. -/
def monthStart (y m : ℕ) : ℕ := ∑ k ∈ Finset.Ico 1 m, monthLength y k

@[ext] structure Date where
  year : ℕ
  month : ℕ
  day : ℕ
  month_mem : 1 ≤ month ∧ month ≤ 12
  day_mem : 1 ≤ day ∧ day ≤ monthLength year month
  deriving DecidableEq, Repr

/-- The days before a date. -/
def Date.number (d : Date) : ℕ := yearStart d.year + monthStart d.year d.month + (d.day - 1)

/-- The quotient, rounded up, grows behind a multiple. -/
theorem div_up_succ (c y : ℕ) :
    (y + 1 + c) / (c + 1) = (y + c) / (c + 1) + if c + 1 ∣ y then 1 else 0 := by
  rw [Nat.add_right_comm, Nat.succ_div]
  simp only [Nat.add_assoc, Nat.dvd_add_self_right]

/-- The leap day of a year is one of a fourth year, unless a century takes it back. -/
theorem yearLength_add (y : ℕ) :
    yearLength y + (if 100 ∣ y then 1 else 0) =
      365 + (if 4 ∣ y then 1 else 0) + if 400 ∣ y then 1 else 0 := by
  have hcentury : 400 ∣ y → 100 ∣ y := Nat.dvd_trans (by decide)
  have hfourth : 100 ∣ y → 4 ∣ y := Nat.dvd_trans (by decide)
  have hleap : LeapYear y ↔ 4 ∣ y ∧ (100 ∣ y → 400 ∣ y) := Iff.rfl
  rw [yearLength]
  split_ifs <;> first | rfl | tauto

theorem yearStart_succ (y : ℕ) : yearStart (y + 1) = yearStart y + yearLength y := by
  have hlen := yearLength_add y
  have h4 := div_up_succ 3 y
  have h100 := div_up_succ 99 y
  have h400 := div_up_succ 399 y
  simp only [Nat.reduceAdd] at h4 h100 h400
  have hle : (y + 99) / 100 ≤ 365 * y := by omega
  rw [yearStart, yearStart, h4, h100, h400]
  generalize (if 4 ∣ y then 1 else 0) = fourth at *
  generalize (if 100 ∣ y then 1 else 0) = century at *
  generalize (if 400 ∣ y then 1 else 0) = kept at *
  omega

theorem yearStart_mono : Monotone yearStart :=
  monotone_nat_of_le_succ fun y => by
    rw [yearStart_succ]
    exact Nat.le_add_right _ _

theorem monthStart_succ (y : ℕ) {m : ℕ} (hm : 1 ≤ m) :
    monthStart y (m + 1) = monthStart y m + monthLength y m := Finset.sum_Ico_succ_top hm _

theorem monthStart_mono (y : ℕ) : Monotone (monthStart y) := fun _ _ h =>
  Finset.sum_le_sum_of_subset (Finset.Ico_subset_Ico_right h)

/-- The months make up the year. -/
theorem monthStart_end (y : ℕ) : monthStart y 13 = yearLength y := by
  simp only [monthStart, Finset.sum_Ico_eq_sum_range, Finset.sum_range_succ, Finset.sum_range_zero,
    monthLength, yearLength]
  split_ifs <;> rfl

theorem le_yearLength (y : ℕ) : 365 ≤ yearLength y := by
  unfold yearLength
  split_ifs <;> omega

/-- A date is within its year. -/
theorem Date.lt_yearLength (d : Date) :
    monthStart d.year d.month + (d.day - 1) < yearLength d.year := by
  have hnext := monthStart_succ d.year d.month_mem.1
  have hend := monthStart_mono d.year (show d.month + 1 ≤ 13 by have := d.month_mem; omega)
  rw [monthStart_end] at hend
  have := d.day_mem
  omega

/-- No two dates are the same day. -/
theorem Date.number_injective : Function.Injective Date.number := by
  intro d e h
  rw [number, number, Nat.add_assoc, Nat.add_assoc] at h
  obtain ⟨hyear, hrest⟩ := stretch_unique yearStart_mono (Nat.le_of_eq (yearStart_succ _).symm)
    (Nat.le_of_eq (yearStart_succ _).symm) d.lt_yearLength e.lt_yearLength h
  rw [hyear] at hrest
  have hd : d.day - 1 < monthLength e.year d.month := by
    have := d.day_mem
    rw [hyear] at this
    omega
  have he : e.day - 1 < monthLength e.year e.month := by
    have := e.day_mem
    omega
  obtain ⟨hmonth, hday⟩ := stretch_unique (monthStart_mono e.year)
    (Nat.le_of_eq (monthStart_succ _ d.month_mem.1).symm)
    (Nat.le_of_eq (monthStart_succ _ e.month_mem.1).symm) hd he hrest
  have := d.day_mem.1
  have := e.day_mem.1
  exact Date.ext hyear hmonth (by omega)

end Forgetty.Lib.Calendar
