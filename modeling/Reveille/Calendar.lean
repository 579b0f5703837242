/-!
# The calendar

Dates of the proleptic Gregorian calendar, with year 0 and negative years, and the
count of days that orders them : day 0 is 1970-01-01. `Date.toDays` counts the days up
to a date and `Date.ofDays` reads the date of a day off the count.

Both work on years that begin in March, so that the leap day is the last day of its
year. In such a year month `m` (March is 0) starts at day `(153 * m + 2) / 5`, the
cycle of 400 years has 146097 days, a century 36524 and four years 1461; only the last
century of a cycle and the last year of four can be one day longer.
-/

namespace Reveille

/-- A year, a month (1 to 12) and a day of the month (from 1). -/
structure Date where
  year : Int
  month : Nat
  day : Nat
  deriving DecidableEq, Repr

namespace Date

/-- Every fourth year, but of the centuries only every fourth. -/
def isLeapYear (year : Int) : Bool :=
  year % 4 = 0 && (year % 100 ≠ 0 || year % 400 = 0)

def daysInMonth (year : Int) (month : Nat) : Nat :=
  if month = 2 then (if isLeapYear year then 29 else 28)
  else if month = 4 ∨ month = 6 ∨ month = 9 ∨ month = 11 then 30
  else 31

/-- The month exists and has such a day. -/
def IsValid (d : Date) : Prop :=
  1 ≤ d.month ∧ d.month ≤ 12 ∧ 1 ≤ d.day ∧ d.day ≤ daysInMonth d.year d.month

instance (d : Date) : Decidable d.IsValid := by
  unfold IsValid
  infer_instance

/-! ## Counting days -/

/-- Days from 0000-03-01 to 1970-01-01. -/
def epochDay : Int := 719468

/-- The number of days from 1970-01-01 to the date. -/
def toDays (d : Date) : Int :=
  let year := if d.month ≤ 2 then d.year - 1 else d.year
  let month : Int := (((d.month + 9) % 12 : Nat) : Int)
  365 * year + year / 4 - year / 100 + year / 400 + (153 * month + 2) / 5 + (d.day : Int) - 1
    - epochDay

/-- The date of a day : its place in the cycle of 400 years, the century, the four years
and the year, then the month of the March year. -/
def ofDays (n : Int) : Date :=
  let day := n + epochDay
  let inCycle := day % 146097
  let century := min (inCycle / 36524) 3
  let inCentury := inCycle - 36524 * century
  let inFour := inCentury % 1461
  let yearOfFour := min (inFour / 365) 3
  let inYear := inFour - 365 * yearOfFour
  let year := 400 * (day / 146097) + 100 * century + 4 * (inCentury / 1461) + yearOfFour
  let month := (5 * inYear + 2) / 153
  let dayOfMonth := inYear - (153 * month + 2) / 5 + 1
  if month < 10 then ⟨year, (month + 3).toNat, dayOfMonth.toNat⟩
  else ⟨year + 1, (month - 9).toNat, dayOfMonth.toNat⟩

/-- Sunday is 0. Day 0 was a Thursday. -/
def weekday (n : Int) : Int := (n + 4) % 7

/-- The day count of the `k`-th Sunday of a month, counting from 1. -/
def sunday (year : Int) (month k : Nat) : Int :=
  let first := toDays ⟨year, month, 1⟩
  first + (7 - weekday first) % 7 + 7 * ((k : Int) - 1)

end Date

end Reveille
