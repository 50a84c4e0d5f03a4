import GovernedRecords.Text.Basic
import GovernedRecords.Time.Calendar

/-!
# Instants and their texts

An instant is a count of microseconds from the start of year 1 to the end of year 9999,
in universal time.  A date is a day of those years, and a date with a time of day may
carry an offset from universal time; without one it is taken as universal.

A stamp is the text of an instant that the library stores: its year is written without
padding, so only the stamps of years from 1000 on have a year of four digits.
-/

set_option autoImplicit false

namespace GovernedRecords

/-- The microseconds of a day. -/
def microsecondsPerDay : Nat := 86400000000

/-- A microsecond of the years 1 to 9999, in universal time. -/
structure Instant where
  microseconds : Nat
  inRange : microseconds < Calendar.dayCount * microsecondsPerDay
  deriving DecidableEq

/-- A day of the years 1 to 9999. -/
structure Date where
  number : Nat
  inRange : number < Calendar.dayCount
  deriving DecidableEq

/-- A date and time of day, written as the instant it would be in universal time, with
its offset in microseconds if it has one. -/
structure DateTime where
  clock : Instant
  offset : Option Int
  deriving DecidableEq

namespace Instant

/-- The instant at a count of microseconds, if that lies in range. -/
def ofMicroseconds? (count : Int) : Option Instant :=
  if inRange : 0 ≤ count ∧ count.toNat < Calendar.dayCount * microsecondsPerDay then
    some ⟨count.toNat, inRange.2⟩
  else none

/-- The instant some microseconds later, if that lies in range. -/
def advance? (instant : Instant) (microseconds : Int) : Option Instant :=
  ofMicroseconds? (instant.microseconds + microseconds)

/-- Earlier, or the same. -/
def le (first second : Instant) : Bool := first.microseconds ≤ second.microseconds

/-- The calendar day of an instant. -/
def day (instant : Instant) : Calendar.Day :=
  Calendar.ofNumber (instant.microseconds / microsecondsPerDay)

/-- The year of an instant. -/
def year (instant : Instant) : Nat := instant.day.year

/-- The second of the day. -/
def secondOfDay (instant : Instant) : Nat :=
  instant.microseconds % microsecondsPerDay / 1000000

/-- The microsecond of the second. -/
def fraction (instant : Instant) : Nat := instant.microseconds % 1000000

/-- Hours, minutes and seconds, two digits each. -/
def timeText (instant : Instant) : Text :=
  let second := instant.secondOfDay
  Text.concat [Text.padded 2 (second / 3600), ":", Text.padded 2 (second / 60 % 60), ":",
    Text.padded 2 (second % 60)]

/-- Month and day, each after a dash. -/
def monthDayText (day : Calendar.Day) : Text :=
  Text.concat ["-", Text.padded 2 day.month, "-", Text.padded 2 day.day]

/-- The stored text: the year unpadded, six digits of fraction, and a final `Z`. -/
def stamp (instant : Instant) : Text :=
  Text.concat [Text.ofNat instant.day.year, monthDayText instant.day, "T", instant.timeText, ".",
    Text.padded 6 instant.fraction, "Z"]

/-- The fraction of a second after a point, left out when it is zero. -/
def fractionText (instant : Instant) : Text :=
  if instant.fraction = 0 then [] else Text.concat [".", Text.padded 6 instant.fraction]

/-- The text of the date and time of day, with a separator between them. -/
def dateTimeText (separator : Text) (instant : Instant) : Text :=
  Text.concat [Text.padded 4 instant.day.year, monthDayText instant.day, separator,
    instant.timeText, instant.fractionText]

/-- The text with a numeric offset of zero. -/
def isoText (instant : Instant) : Text := Text.concat [instant.dateTimeText "T", "+00:00"]

end Instant

namespace Date

/-- The date of a year, month and day, if there is such a day in range. -/
def ofDay? (year month day : Nat) : Option Date :=
  if 1 ≤ year ∧ 1 ≤ day ∧ day ≤ Calendar.monthLength year month then
    if inRange : Calendar.dayNumber year month day < Calendar.dayCount then
      some ⟨Calendar.dayNumber year month day, inRange⟩
    else none
  else none

/-- The start of a date. -/
def midnight (date : Date) : Instant :=
  ⟨date.number * microsecondsPerDay,
    Nat.mul_lt_mul_of_pos_right date.inRange (by decide)⟩

/-- Year, month and day with dashes. -/
def toText (date : Date) : Text :=
  let day := Calendar.ofNumber date.number
  Text.concat [Text.padded 4 day.year, Instant.monthDayText day]

end Date

namespace DateTime

/-- The instant of a date and time; none when the offset moves it out of range. -/
def instant? (moment : DateTime) : Option Instant :=
  moment.clock.advance? (-(moment.offset.getD 0))

/-- A duration by its whole days and what remains of them, never negative. -/
def durationText (microseconds : Int) : Text :=
  let days := Int.fdiv microseconds 86400000000
  let rest := (microseconds - days * 86400000000).toNat
  let part (name : Text) (amount : Int) : List Text :=
    if amount = 0 then [] else [Text.concat [name, "=", Text.ofInt amount]]
  let parts := part "days" days ++ part "seconds" (rest / 1000000 : Nat)
    ++ part "microseconds" (rest % 1000000 : Nat)
  Text.concat ["datetime.timedelta(", if parts.isEmpty then "0" else Text.join ", " parts, ")"]

/-- An offset with its sign: hours and minutes, and seconds where they are not zero. -/
def offsetText (offset : Int) : Text :=
  let second := offset.natAbs / 1000000
  let fraction := offset.natAbs % 1000000
  Text.concat [if offset < 0 then "-" else "+", Text.padded 2 (second / 3600), ":",
    Text.padded 2 (second / 60 % 60),
    if second % 60 = 0 ∧ fraction = 0 then [] else Text.concat [":", Text.padded 2 (second % 60)],
    if fraction = 0 then [] else Text.concat [".", Text.padded 6 fraction]]

/-- The date, a space, the time of day, and the offset if there is one. -/
def toText (moment : DateTime) : Text :=
  match moment.offset with
  | none => moment.clock.dateTimeText " "
  | some offset => Text.concat [moment.clock.dateTimeText " ", offsetText offset]

end DateTime

end GovernedRecords
