import AdminPlatform.Lib.Datetime
import Mathlib.Tactic.NormNum

/-! # Instants

A point in time as the number of microseconds since 1970-01-01 00:00:00 UTC. Times are
added and compared as numbers; `datetime` is the calendar date of an instant. -/

namespace AdminPlatform.Lib

abbrev Instant := Nat

namespace Instant

/-! ## Durations -/

def seconds (n : Nat) : Nat := n * 1000000
def minutes (n : Nat) : Nat := seconds (n * 60)
def hours (n : Nat) : Nat := minutes (n * 60)
def days (n : Nat) : Nat := hours (n * 24)

/-- The POSIX timestamp of an instant, in whole seconds. -/
def timestamp (t : Instant) : Nat := t / 1000000

/-! ## The calendar

Years are counted from March, so that the leap day is the last of its year. An era of 400
years has 146097 days: four centuries of 36524 and a day, each of 25 cycles of four years,
1461 days, less a day. -/

/-- A day of an era: its year in the era, and its day in that year. -/
def yearAndDay (day : Nat) : Nat × Nat :=
  let century := min 3 (day / 36524)
  let cycle := (day - 36524 * century) / 1461
  let rest := (day - 36524 * century) % 1461
  let year := min 3 (rest / 365)
  (100 * century + 4 * cycle + year, rest - 365 * year)

theorem dayOfYear_le (day : Nat) : (yearAndDay day).2 ≤ 365 := by
  simp only [yearAndDay]
  omega

/-- The month of a day of the year, March being 0. -/
def monthOfYear (doy : Nat) : Nat := (5 * doy + 2) / 153

def dayOfMonth (doy : Nat) : Nat := doy - (153 * monthOfYear doy + 2) / 5 + 1

theorem monthOfYear_le {doy : Nat} (h : doy ≤ 365) : monthOfYear doy ≤ 11 := by
  unfold monthOfYear
  omega

theorem dayOfMonth_le (doy : Nat) : dayOfMonth doy ≤ 31 := by
  unfold dayOfMonth monthOfYear
  omega

/-- The calendar date and time of an instant, up to the year 9999. -/
def datetime (t : Instant) : Datetime :=
  let s := t.timestamp
  let z := s / 86400 + 719468
  let year := (yearAndDay (z % 146097)).1
  let day := (yearAndDay (z % 146097)).2
  { year := min 9999 (z / 146097 * 400 + year + if monthOfYear day < 10 then 0 else 1)
    month := if monthOfYear day < 10 then monthOfYear day + 3 else monthOfYear day - 9
    day := dayOfMonth day
    hour := s % 86400 / 3600
    minute := s % 3600 / 60
    second := s % 60
    microsecond := t % 1000000
    year_le := min_le_left _ _
    month_le := by
      have hm : monthOfYear day ≤ 11 := monthOfYear_le (dayOfYear_le _)
      split <;> omega
    day_le := dayOfMonth_le day
    hour_lt := by omega
    minute_lt := by omega
    second_lt := by omega
    microsecond_lt := by omega }

/-- A leap day, one second before midnight. -/
example : String.ofList (datetime (seconds 1709251199)).str = "2024-02-29 23:59:59" := by
  decide

end Instant
end AdminPlatform.Lib
