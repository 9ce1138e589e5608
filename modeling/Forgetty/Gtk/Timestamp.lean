import Forgetty.Sync.Dates
import Forgetty.Vt.Screen

/-! The time in the name of a pasted image. It is worked out of the seconds as the registry works
out its dates of the days, with every length in seconds. -/

namespace Forgetty.Timestamp

open Lib Calendar Dates

def daysNormal : List ℕ := [31, 28, 31, 30, 31, 30, 31, 31, 30, 31, 30, 31]

def daysLeap : List ℕ := [31, 29, 31, 30, 31, 30, 31, 31, 30, 31, 30, 31]

def isLeap (y : ℕ) : Bool := (y % 4 == 0 && !(y % 100 == 0)) || y % 400 == 0

def daysInYear (y : ℕ) : ℕ := if isLeap y then 366 else 365

def secsInDay : ℕ := 86400

/-- A number with zeros in front, as `{:02}` writes it. -/
def padded (width n : ℕ) : Text := (Nat.toDigits 10 n).leftpad width '0'

/-- The text that is made of a date and the seconds of the day. -/
def stamp (year month day remainder : ℕ) : Text :=
  let hour := remainder / 3600
  let minute := remainder % 3600 / 60
  let second := remainder % 60
  padded 4 year ++ padded 2 month ++ padded 2 day ++ ['-'] ++ padded 2 hour ++ padded 2 minute ++
    padded 2 second

/-- The date and the seconds of the day that go into the text. `none` when the loop over the
years has not come to its end in so many rounds. -/
def epochToDate (rounds epochSecs : ℕ) : Option (ℕ × ℕ × ℕ × ℕ) :=
  (takeOff (fun year => daysInYear year * secsInDay) rounds 1970 epochSecs).map
    fun (year, remaining) =>
      let months := if isLeap year then daysLeap else daysNormal
      let (month, daySecs) := takeOffList (months.map (· * secsInDay)) 1 remaining
      (year, month, daySecs / secsInDay + 1, daySecs % secsInDay)

def epochToTimestamp (rounds epochSecs : ℕ) : Option Text :=
  (epochToDate rounds epochSecs).map fun (year, month, day, remainder) =>
    stamp year month day remainder

/-- The loops over the seconds go through the same rounds as those over the days. -/
theorem epochToDate_eq (rounds epochSecs : ℕ) :
    epochToDate rounds epochSecs = (daysToYmd rounds (epochSecs / secsInDay)).map
      fun date => (date.1, date.2.1, date.2.2, epochSecs % secsInDay) := by
  have hlt : epochSecs % secsInDay < secsInDay := Nat.mod_lt _ (by decide)
  have hyears := @takeOff_mul daysInYear secsInDay _ hlt rounds 1970 (epochSecs / secsInDay)
  rw [Nat.div_add_mod'] at hyears
  rw [epochToDate, daysToYmd, hyears, Option.map_map, Option.map_map]
  refine congrArg (Option.map · _) (funext fun p => ?_)
  have hday (d : ℕ) : (d * secsInDay + epochSecs % secsInDay) / secsInDay = d := by
    rw [Nat.add_comm, Nat.add_mul_div_right _ _ (by decide), Nat.div_eq_of_lt hlt, Nat.zero_add]
  have hremainder (d : ℕ) : (d * secsInDay + epochSecs % secsInDay) % secsInDay =
      epochSecs % secsInDay := by
    rw [Nat.add_comm, Nat.add_mul_mod_self_right, Nat.mod_mod]
  simp only [Function.comp, takeOffList_mul hlt, hday, hremainder]
  -- the two tests for a leap year and the two tables are the same
  rfl

/-- For every number of days there is one date, and both loops come to it when they have a round
for every 365 days: the one over the days, and the one over the seconds of every second of the
day. -/
theorem date_of_days (days : ℕ) : ∃! date : Date, date.number = epoch.number + days ∧
    ∀ rounds, days < 365 * rounds →
      daysToYmd rounds days = some (date.year, date.month, date.day) ∧
      ∀ epochSecs, epochSecs / secsInDay = days →
        epochToDate rounds epochSecs =
          some (date.year, date.month, date.day, epochSecs % secsInDay) ∧
        epochToTimestamp rounds epochSecs =
          some (stamp date.year date.month date.day (epochSecs % secsInDay)) := by
  obtain ⟨date, hnumber, -⟩ := daysToYmd_spec (show days < 365 * (days + 1) by omega)
  refine ⟨date, ⟨hnumber, fun rounds hrounds => ?_⟩, fun other hother => ?_⟩
  · obtain ⟨date', hnumber', hdate⟩ := daysToYmd_spec hrounds
    obtain rfl := Date.number_injective (hnumber'.trans hnumber.symm)
    refine ⟨hdate, fun epochSecs hsecs => ?_⟩
    have heq : epochToDate rounds epochSecs =
        some (date'.year, date'.month, date'.day, epochSecs % secsInDay) := by
      rw [epochToDate_eq, hsecs, hdate]
      rfl
    refine ⟨heq, ?_⟩
    rw [epochToTimestamp, heq]
    rfl
  · exact Date.number_injective (hother.1.trans hnumber.symm)

end Forgetty.Timestamp
