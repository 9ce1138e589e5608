import Forgetty.Lib.Calendar

/-! The dates of the registry. A day count is brought down by the lengths of the years, then by
those of the months, and what is left is the day. -/

namespace Forgetty.Dates

open Lib Calendar

def isLeap (y : ℕ) : Bool := (y % 4 == 0 && !(y % 100 == 0)) || y % 400 == 0

/-- The year, the month and the day. `none` when the loop over the years has not come to its end
in so many rounds; the one of the source goes on. -/
def daysToYmd (rounds days : ℕ) : Option (ℕ × ℕ × ℕ) :=
  (takeOff (fun y => if isLeap y then 366 else 365) rounds 1970 days).map fun (y, days) =>
    let months :=
      if isLeap y then [31, 29, 31, 30, 31, 30, 31, 31, 30, 31, 30, 31]
      else [31, 28, 31, 30, 31, 30, 31, 31, 30, 31, 30, 31]
    let (m, days) := takeOffList months 1 days
    (y, m, days + 1)

/-- The day that the days are counted from. -/
def epoch : Date where
  year := 1970
  month := 1
  day := 1
  month_mem := by decide
  day_mem := by decide

theorem isLeap_iff (y : ℕ) : isLeap y = true ↔ LeapYear y := by
  simp only [isLeap, LeapYear, Bool.or_eq_true, Bool.and_eq_true, Bool.not_eq_true', beq_iff_eq,
    beq_eq_false_iff_ne]
  omega

theorem yearLength_eq (y : ℕ) : (if isLeap y then 366 else 365) = yearLength y := by
  simp only [isLeap_iff, yearLength]

/-- Both tables are the lengths of the months. -/
theorem months_eq (y : ℕ) :
    (if isLeap y then [31, 29, 31, 30, 31, 30, 31, 31, 30, 31, 30, 31]
      else [31, 28, 31, 30, 31, 30, 31, 31, 30, 31, 30, 31]) =
      (List.range' 1 12).map (monthLength y) := by
  simp only [isLeap_iff, List.range'_succ, List.range'_zero, List.map_cons, List.map_nil,
    Nat.reduceAdd, monthLength]
  split_ifs <;> rfl

/-- With a round for every 365 days the loops come to the date of the day. -/
theorem daysToYmd_spec {rounds days : ℕ} (h : days < 365 * rounds) :
    ∃ date : Date, date.number = epoch.number + days ∧
      daysToYmd rounds days = some (date.year, date.month, date.day) := by
  obtain ⟨y, rest, hyears, hrest, hday⟩ := takeOff_spec (k := 1970) yearStart_succ
    le_yearLength h
  have hwithin : monthStart y 1 + rest < monthStart y (1 + 12) := by
    rw [monthStart_end]
    exact (Nat.zero_add rest).symm ▸ hrest
  obtain ⟨m, d, hmonths, hm, hm', hd, hrest'⟩ := takeOffList_spec
    (fun i hi => monthStart_succ y hi) hwithin
  refine ⟨⟨y, m, d + 1, ⟨hm, by omega⟩, ⟨Nat.le_add_left 1 d, hd⟩⟩, ?_, ?_⟩
  · have hfirst : monthStart y 1 = 0 := rfl
    have hepoch : epoch.number = yearStart 1970 := rfl
    show yearStart y + monthStart y m + (d + 1 - 1) = epoch.number + days
    omega
  · simp only [daysToYmd, yearLength_eq, hyears, Option.map_some, months_eq, hmonths]

-- The day behind the last one of February in a century without a leap day.
example : daysToYmd 131 47541 = some (2100, 3, 1) := by decide

end Forgetty.Dates
