/-!
# The Gregorian calendar

Days are numbered from the first of January of year 1, which is day 0, through the last
day of year 9999.  A year, month and day give a number by counting the days before them;
a number gives them back by whole cycles of four hundred, one hundred, four and one years.
-/

set_option autoImplicit false

namespace GovernedRecords.Calendar

/-- The days from year 1 through year 9999. -/
def dayCount : Nat := 3652059

/-- Every fourth year, except the centuries that four does not divide. -/
def isLeap (year : Nat) : Bool := year % 4 = 0 && (year % 100 != 0 || year % 400 = 0)

/-- The days of a month; months outside the year have none. -/
def monthLength (year month : Nat) : Nat :=
  if month = 2 then if isLeap year then 29 else 28
  else if month = 4 || month = 6 || month = 9 || month = 11 then 30
  else if 1 ≤ month && month ≤ 12 then 31
  else 0

/-- The days before a year. -/
def daysBeforeYear (year : Nat) : Nat :=
  let past := year - 1
  365 * past + past / 4 - past / 100 + past / 400

/-- The days of the first months of a year, as many as the count. -/
def daysInMonths (year : Nat) : Nat → Nat
  | 0 => 0
  | count + 1 => daysInMonths year count + monthLength year (count + 1)

/-- The number of a day. -/
def dayNumber (year month day : Nat) : Nat :=
  daysBeforeYear year + daysInMonths year (month - 1) + (day - 1)

/-- The year of a day, and the number of the day within it. -/
def yearAndRest (number : Nat) : Nat × Nat :=
  let fourHundreds := number / 146097
  let rest := number % 146097
  let hundreds := min (rest / 36524) 3
  let rest := rest - hundreds * 36524
  let fours := rest / 1461
  let rest := rest % 1461
  let ones := min (rest / 365) 3
  (fourHundreds * 400 + hundreds * 100 + fours * 4 + ones + 1, rest - ones * 365)

/-- The month of a day within a year, and the day of the month, from one.  The first
argument counts the months that remain. -/
def monthAndDay (year : Nat) : Nat → Nat → Nat → Nat × Nat
  | 0, month, rest => (month, rest + 1)
  | remaining + 1, month, rest =>
    let length := monthLength year month
    if rest < length then (month, rest + 1)
    else monthAndDay year remaining (month + 1) (rest - length)

/-- A year, month and day. -/
structure Day where
  year : Nat
  month : Nat
  day : Nat
  deriving DecidableEq

/-- The day with a number. -/
def ofNumber (number : Nat) : Day :=
  let (year, rest) := yearAndRest number
  let (month, day) := monthAndDay year 11 1 rest
  ⟨year, month, day⟩

/-- The day of the week, Monday being 0. -/
def weekday (number : Nat) : Nat := number % 7

/-- The Monday that opens the first week of a year: the week with its first Thursday. -/
def firstMonday (year : Nat) : Int :=
  let first : Int := daysBeforeYear year
  let position : Int := weekday (daysBeforeYear year)
  if 3 < position then first - position + 7 else first - position

/-- Years with a week 53: those that begin on a Thursday, or on a Wednesday and leap. -/
def hasWeek53 (year : Nat) : Bool :=
  let position := weekday (daysBeforeYear year)
  year != 0 && (position = 3 || (position = 2 && isLeap year))

end GovernedRecords.Calendar
