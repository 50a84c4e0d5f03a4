import GovernedRecords.Definition.Timestamp
import GovernedRecords.Proofs.Text.Digits
import GovernedRecords.Proofs.Time.Calendar

/-!
# Stamps are read back

A stamp writes an instant to the microsecond, so nothing of it is lost (`stamp_injective`).  From
the year 1000 on the year of a stamp has the four digits that a date wants, and then the stamp is
read back as the instant it was made from (`toInstant_stamp`).  Earlier years are written with
fewer digits and are not read back.

The text of a stamp is written out as its digits first; every part of the reader is then a
statement about a list of known length.
-/

set_option autoImplicit false

namespace GovernedRecords

open Text

/-! ## Numbers in a few digits -/

namespace IsoText

/-- A text is read as a number when it has digits, and nothing else. -/
theorem number?_eq_some {digits : Text} {value : Nat} :
    number? digits = some value ↔ digits ≠ [] ∧ digits.all CodePoint.isDigit = true ∧
      numeral (digits.map fun point => point.val - 48) = value := by
  rw [number?]
  cases digits with
  | nil => simp
  | cons first rest =>
      cases (first :: rest).all CodePoint.isDigit <;> simp

theorem number?_append {digits : Text} {value : Nat} (read : number? digits = some value)
    (number : Nat) : number? (digits ++ [digit number]) = some (10 * value + number % 10) := by
  obtain ⟨present, decimal, total⟩ := number?_eq_some.mp read
  rw [number?_eq_some, List.map_append, numeral, List.foldl_append, ← numeral, total]
  refine ⟨by simp [present], by simp [decimal], ?_⟩
  simp only [List.map_cons, List.map_nil, val_digit, Nat.add_sub_cancel_left, List.foldl_cons,
    List.foldl_nil]

theorem number?_padded {width number : Nat} (fits : number < 10 ^ (width + 1)) :
    number? (padded (width + 1) number) = some number := by
  induction width generalizing number with
  | zero =>
      rw [padded_one fits]
      have digit : number < 10 := by simpa using fits
      simp [number?, numeral, Nat.mod_eq_of_lt digit]
  | succ width ih =>
      rw [padded_succ, number?_append (@ih (number / 10) (by omega))]
      congr 1
      omega

theorem number?_two {number : Nat} (fits : number < 100) :
    number? [digit (number / 10), digit number] = some number := by
  rw [← padded_two fits]
  exact number?_padded fits

theorem number?_four {number : Nat} (fits : number < 10000) :
    number? [digit (number / 1000), digit (number / 100), digit (number / 10), digit number] =
      some number := by
  rw [← padded_four fits]
  exact number?_padded fits

theorem number?_six {number : Nat} (fits : number < 1000000) :
    number? [digit (number / 100000), digit (number / 10000), digit (number / 1000),
      digit (number / 100), digit (number / 10), digit number] = some number := by
  rw [← padded_six fits]
  exact number?_padded fits

/-! ## The date and the time of day -/

/-- The digits of a day, with dashes. -/
def dayDigits (day : Calendar.Day) : Text :=
  [digit (day.year / 1000), digit (day.year / 100), digit (day.year / 10), digit day.year,
    CodePoint.ofChar '-', digit (day.month / 10), digit day.month, CodePoint.ofChar '-',
    digit (day.day / 10), digit day.day]

/-- The digits of a time of day, with colons and a point. -/
def clockDigits (clock : Clock) : Text :=
  [digit (clock.hour / 10), digit clock.hour, CodePoint.ofChar ':', digit (clock.minute / 10),
    digit clock.minute, CodePoint.ofChar ':', digit (clock.second / 10), digit clock.second,
    CodePoint.ofChar '.', digit (clock.microsecond / 100000), digit (clock.microsecond / 10000),
    digit (clock.microsecond / 1000), digit (clock.microsecond / 100),
    digit (clock.microsecond / 10), digit clock.microsecond]

/-- The offset of universal time. -/
def zeroOffset : Text := "+00:00"

theorem readDate?_dayDigits {day : Calendar.Day} (year : day.year < 10000)
    (month : day.month < 100) (fits : day.day < 100) : readDate? (dayDigits day) = some day := by
  have week : digit (day.month / 10) ≠ CodePoint.ofChar 'W' := digit_ne_ofChar _ rfl
  simp [readDate?, dayDigits, hasAt, number?_two month, number?_two fits, number?_four year, week]

theorem readClock?_clockDigits {clock : Clock} (hour : clock.hour < 100)
    (minute : clock.minute < 100) (second : clock.second < 100)
    (fraction : clock.microsecond < 1000000) :
    readClock? true (clockDigits clock) = some clock := by
  have point : CodePoint.ofChar '.' ≠ CodePoint.ofChar ':' := by decide
  simp [readClock?, clockDigits, readNumbers?, readPair?, readFraction?, number?_two hour,
    number?_two minute, number?_two second, number?_six fraction, point]

theorem beginsOffset_digit (number : Nat) : beginsOffset (digit number) = false := by
  simp only [beginsOffset, digit_ne_ofChar number (rfl : Char.isDigit '+' = false),
    digit_ne_ofChar number (rfl : Char.isDigit '-' = false),
    digit_ne_ofChar number (rfl : Char.isDigit 'Z' = false), decide_false, Bool.or_self]

theorem readTime?_clockDigits {clock : Clock} (hour : clock.hour < 100)
    (minute : clock.minute < 100) (second : clock.second < 100)
    (fraction : clock.microsecond < 1000000) :
    readTime? (clockDigits clock ++ zeroOffset) = some (clock, some 0) := by
  have colon : beginsOffset (CodePoint.ofChar ':') = false := by decide
  have point : beginsOffset (CodePoint.ofChar '.') = false := by decide
  have plus : beginsOffset (CodePoint.ofChar '+') = true := by decide
  have before : (clockDigits clock ++ zeroOffset).takeWhile (fun each => !beginsOffset each) =
      clockDigits clock := by
    simp [clockDigits, zeroOffset, Text.ofString, beginsOffset_digit, colon, point, plus]
  have offset : readOffset? false ("00:00" : Text) = some 0 := by decide
  have after : zeroOffset = CodePoint.ofChar '+' :: ("00:00" : Text) := rfl
  have zulu : CodePoint.ofChar '+' ≠ CodePoint.ofChar 'Z' := by decide
  have minus : CodePoint.ofChar '+' ≠ CodePoint.ofChar '-' := by decide
  rw [readTime?, before, List.drop_left, after]
  simp only [readClock?_clockDigits hour minute second fraction, zulu, minus, decide_false, offset,
    if_false, Option.bind_eq_bind, Option.bind_some]

/-! ## The whole text -/

theorem isSurrogate_digit (number : Nat) : (digit number).isSurrogate = false := by
  simp only [CodePoint.isSurrogate, val_digit, Bool.and_eq_false_iff, decide_eq_false_iff_not]
  omega

/-- The digits of a day and of a time of that day, in universal time. -/
def momentDigits (day : Calendar.Day) (clock : Clock) : Text :=
  dayDigits day ++ CodePoint.ofChar 'T' :: (clockDigits clock ++ zeroOffset)

theorem plain?_momentDigits (day : Calendar.Day) (clock : Clock) :
    plain? (momentDigits day clock) = some (momentDigits day clock) := by
  have offset : zeroOffset.any CodePoint.isSurrogate = false := by decide
  have free : (momentDigits day clock).any CodePoint.isSurrogate = false := by
    simp only [momentDigits, dayDigits, clockDigits, List.any_append, List.any_cons, List.any_nil,
      isSurrogate_digit, CodePoint.isSurrogate_ofChar, offset, Bool.or_self]
  have places : separatorPlaces.find? (surrogateAt (momentDigits day clock)) = none := by
    simp [separatorPlaces, surrogateAt, momentDigits, dayDigits, isSurrogate_digit]
  simp only [plain?, places, free, Bool.false_eq_true, if_false]

theorem dateLength?_momentDigits (day : Calendar.Day) (clock : Clock) :
    dateLength? (momentDigits day clock) = some 10 := by
  have week : digit (day.month / 10) ≠ CodePoint.ofChar 'W' := digit_ne_ofChar _ rfl
  simp [dateLength?, momentDigits, dayDigits, hasAt, week]

theorem readParts?_momentDigits {day : Calendar.Day} {clock : Clock} (year : day.year < 10000)
    (month : day.month < 100) (fits : day.day < 100) (hour : clock.hour < 100)
    (minute : clock.minute < 100) (second : clock.second < 100)
    (fraction : clock.microsecond < 1000000) :
    readParts? (momentDigits day clock) = some (day, clock, some 0) := by
  have long : ¬ (momentDigits day clock).length < 7 := by
    simp [momentDigits, dayDigits]
  have longer : ¬ (momentDigits day clock).length ≤ 10 := by
    simp [momentDigits, dayDigits]
  have date : (momentDigits day clock).take 10 = dayDigits day := rfl
  have time : (momentDigits day clock).drop 11 = clockDigits clock ++ zeroOffset := rfl
  simp only [readParts?, long, plain?_momentDigits, dateLength?_momentDigits, date, time, longer,
    readDate?_dayDigits year month fits, readTime?_clockDigits hour minute second fraction,
    if_false, Option.bind_eq_bind, Option.bind_some]

end IsoText

namespace Instant

/-- The time of day of an instant. -/
def clock (instant : Instant) : IsoText.Clock :=
  ⟨instant.secondOfDay / 3600, instant.secondOfDay / 60 % 60, instant.secondOfDay % 60,
    instant.fraction⟩

theorem secondOfDay_lt (instant : Instant) : instant.secondOfDay < 86400 := by
  simp only [secondOfDay, microsecondsPerDay]
  omega

/-- The day of an instant with its number. -/
def date (instant : Instant) : Date :=
  ⟨instant.microseconds / microsecondsPerDay,
    (Nat.div_lt_iff_lt_mul (by decide)).mpr instant.inRange⟩

/-- The microseconds of an instant, by its day and its time of day. -/
theorem microseconds_eq (instant : Instant) :
    instant.date.midnight.microseconds +
      (((instant.clock.hour * 60 + instant.clock.minute) * 60 + instant.clock.second) * 1000000 +
        instant.clock.microsecond) = instant.microseconds := by
  simp only [date, Date.midnight, clock, secondOfDay, fraction, microsecondsPerDay]
  omega

theorem advance?_eq_some {earlier later : Instant} {elapsed : Nat}
    (sum : earlier.microseconds + elapsed = later.microseconds) :
    earlier.advance? elapsed = some later := by
  have inRange : (0 : Int) ≤ (earlier.microseconds : Int) + elapsed ∧
      ((earlier.microseconds : Int) + elapsed).toNat < Calendar.dayCount * microsecondsPerDay := by
    have bound := later.inRange
    omega
  rw [advance?, ofMicroseconds?, dif_pos inRange]
  congr

theorem clock_fits (instant : Instant) :
    instant.clock.hour < 24 ∧ instant.clock.minute < 60 ∧ instant.clock.second < 60 ∧
      instant.clock.microsecond < 1000000 := by
  have second := instant.secondOfDay_lt
  simp only [clock, fraction]
  omega

theorem day_fits (instant : Instant) :
    instant.day.year < 10000 ∧ instant.day.month < 100 ∧ instant.day.day < 100 := by
  have year := Calendar.year_le instant.date.inRange
  obtain ⟨⟨-, month⟩, -⟩ := Calendar.ofNumber_valid instant.date.number
  have day := Calendar.day_le_31 instant.date.number
  exact ⟨Nat.lt_succ_of_le year, Nat.lt_of_le_of_lt month (by decide),
    Nat.lt_of_le_of_lt day (by decide)⟩

/-- What follows the year of a stamp. -/
def stampEnd (instant : Instant) : Text :=
  [CodePoint.ofChar '-', digit (instant.day.month / 10), digit instant.day.month,
    CodePoint.ofChar '-', digit (instant.day.day / 10), digit instant.day.day,
    CodePoint.ofChar 'T'] ++ (IsoText.clockDigits instant.clock ++ [CodePoint.ofChar 'Z'])

/-- A stamp is its year, in as many digits as it has, and digits in fixed places. -/
theorem stamp_eq (instant : Instant) :
    instant.stamp = Text.ofNat instant.day.year ++ instant.stampEnd := by
  obtain ⟨hour, minute, second, fraction⟩ := instant.clock_fits
  obtain ⟨-, month, day⟩ := instant.day_fits
  simp only [clock] at hour minute second fraction
  simp only [stamp, monthDayText, timeText, padded_two month,
    padded_two day, padded_two (Nat.lt_trans hour (by decide)),
    padded_two (Nat.lt_trans minute (by decide)), padded_two (Nat.lt_trans second (by decide)),
    padded_six fraction]
  rfl

/-- The digits of a stamp from the year 1000 on. -/
theorem stamp_eq_digits {instant : Instant} (year : 1000 ≤ instant.year) :
    instant.stamp = IsoText.dayDigits instant.day ++ CodePoint.ofChar 'T' ::
      (IsoText.clockDigits instant.clock ++ [CodePoint.ofChar 'Z']) := by
  have whole : Text.ofNat instant.day.year = padded 4 instant.day.year :=
    (@padded_of_le 2 _ year).symm
  rw [stamp_eq, whole, padded_four instant.day_fits.1]
  rfl

/-- What follows the year of a stamp tells the month, the day and the time of day. -/
theorem eq_of_stampEnd {first second : Instant} (same : first.stampEnd = second.stampEnd) :
    first.day.month = second.day.month ∧ first.day.day = second.day.day ∧
      first.clock = second.clock := by
  obtain ⟨-, month, day⟩ := first.day_fits
  obtain ⟨-, otherMonth, otherDay⟩ := second.day_fits
  obtain ⟨hour, minute, instantSecond, fraction⟩ := first.clock_fits
  obtain ⟨otherHour, otherMinute, otherSecond, otherFraction⟩ := second.clock_fits
  have months : [digit (first.day.month / 10), digit first.day.month] =
      [digit (second.day.month / 10), digit second.day.month] :=
    congrArg (fun text => (text.drop 1).take 2) same
  have days : [digit (first.day.day / 10), digit first.day.day] =
      [digit (second.day.day / 10), digit second.day.day] :=
    congrArg (fun text => (text.drop 4).take 2) same
  have clocks : IsoText.clockDigits first.clock = IsoText.clockDigits second.clock :=
    congrArg (fun text => (text.drop 7).take 15) same
  have monthRead := IsoText.number?_two month
  have dayRead := IsoText.number?_two day
  have clockRead := @IsoText.readClock?_clockDigits first.clock (by omega) (by omega) (by omega)
    fraction
  rw [months, IsoText.number?_two otherMonth] at monthRead
  rw [days, IsoText.number?_two otherDay] at dayRead
  rw [clocks, IsoText.readClock?_clockDigits (by omega) (by omega) (by omega) otherFraction]
    at clockRead
  exact ⟨(Option.some.inj monthRead).symm, (Option.some.inj dayRead).symm,
    (Option.some.inj clockRead).symm⟩

/-- **No two instants have the same stamp**, though years before 1000 have fewer digits. -/
theorem stamp_injective {first second : Instant} (same : first.stamp = second.stamp) :
    first = second := by
  have dash : CodePoint.isDigit (CodePoint.ofChar '-') = false := by decide
  have stops : ∀ instant : Instant, ∀ each ∈ instant.stampEnd.head?, each.isDigit = false := by
    intro instant each head
    cases head
    exact dash
  rw [stamp_eq, stamp_eq] at same
  obtain ⟨years, ends⟩ := eq_and_eq_of_append (fun _ => isDigit_of_mem_ofNat)
    (fun _ => isDigit_of_mem_ofNat) (stops first) (stops second) same
  obtain ⟨months, days, clocks⟩ := eq_of_stampEnd ends
  have numbers : first.date.number = second.date.number := by
    rw [← Calendar.dayNumber_ofNumber first.date.number,
      ← Calendar.dayNumber_ofNumber second.date.number]
    exact congr (congr (congrArg Calendar.dayNumber (ofNat_injective years)) months) days
  have midnights : first.date.midnight.microseconds = second.date.midnight.microseconds :=
    congrArg (· * microsecondsPerDay) numbers
  have moments := first.microseconds_eq
  rw [midnights, clocks, second.microseconds_eq] at moments
  cases first
  cases second
  cases moments
  rfl

end Instant

namespace Text

theorem isBlank_digit (number : Nat) : (digit number).isBlank = false := by
  have value := val_digit number
  simp [CodePoint.isBlank, CodePoint.inTable, CodePoint.blanks]
  omega

/-- Nothing is trimmed from a text that begins and ends with other code points than blanks. -/
theorem trim_of_ends {text : Text} {first last : CodePoint} (begins : text.head? = some first)
    (ends : text.getLast? = some last) (dark : first.isBlank = false)
    (end_dark : last.isBlank = false) : trim text = text := by
  obtain ⟨rest, rfl⟩ := List.head?_eq_some_iff.mp begins
  obtain ⟨middle, whole⟩ := List.getLast?_eq_some_iff.mp ends
  rw [trim, trimWhile, List.dropWhile_cons_of_neg (by simp [dark]), dropEndWhile, whole,
    List.reverse_append, List.reverse_singleton, List.singleton_append,
    List.dropWhile_cons_of_neg (by simp [end_dark]), List.reverse_cons, List.reverse_reverse]

end Text

namespace Instant

theorem trim_stamp {instant : Instant} (year : 1000 ≤ instant.year) :
    instant.stamp.trim = instant.stamp := by
  have zulu : (CodePoint.ofChar 'Z').isBlank = false := by decide
  rw [stamp_eq_digits year]
  exact trim_of_ends rfl rfl (isBlank_digit _) zulu

/-- The offset of universal time takes the place of the final `Z`. -/
theorem expandZulu_stamp {instant : Instant} (year : 1000 ≤ instant.year) :
    instant.stamp.expandZulu = IsoText.momentDigits instant.day instant.clock := by
  rw [stamp_eq_digits year]
  rfl

theorem read_momentDigits (instant : Instant) :
    IsoText.read (IsoText.momentDigits instant.day instant.clock) =
      .ok ⟨instant, some 0⟩ := by
  obtain ⟨hour, minute, second, fraction⟩ := instant.clock_fits
  obtain ⟨yearFits, monthFits, dayFits⟩ := instant.day_fits
  obtain ⟨⟨firstMonth, lastMonth⟩, -⟩ := Calendar.ofNumber_valid instant.date.number
  have firstYear : 1 ≤ instant.day.year := Calendar.one_le_year instant.date.number
  have found : Date.ofDay? instant.day.year instant.day.month instant.day.day =
      some instant.date := Date.ofDay?_ofNumber instant.date
  have elapsed := advance?_eq_some instant.microseconds_eq
  rw [IsoText.read, IsoText.readParts?_momentDigits yearFits monthFits dayFits (by omega) (by omega)
    (by omega) fraction]
  have zero : ¬ 86400000000 ≤ ((some (0 : Int)).getD 0).natAbs := by decide
  have yearIn : (instant.day.year < 1 || 9999 < instant.day.year) = false := by
    simp only [Bool.or_eq_false_iff, decide_eq_false_iff_not]
    omega
  have monthIn : (instant.day.month < 1 || 12 < instant.day.month) = false := by
    simp only [Bool.or_eq_false_iff, decide_eq_false_iff_not]
    exact ⟨Nat.not_lt.mpr firstMonth, Nat.not_lt.mpr lastMonth⟩
  have hourIn : ¬ 23 < instant.clock.hour := by omega
  have minuteIn : ¬ 59 < instant.clock.minute := by omega
  have secondIn : ¬ 59 < instant.clock.second := by omega
  simp only [zero, yearIn, monthIn, hourIn, minuteIn, secondIn, found, elapsed, if_false,
    Bool.false_eq_true]
  rfl

/-- **A stamp from the year 1000 on is read back as the instant it was made from.** -/
theorem toInstant_stamp {instant : Instant} (year : 1000 ≤ instant.year) :
    instant.stamp.toInstant = .ok instant := by
  have moment : DateTime.instant? ⟨instant, some 0⟩ = some instant :=
    advance?_eq_some (Nat.add_zero _)
  have present : instant.stamp.isEmpty = false := by
    rw [stamp_eq_digits year]
    rfl
  simp only [Text.toInstant, trim_stamp year, present, expandZulu_stamp year,
    read_momentDigits, DateTime.toInstant, moment, Bool.false_eq_true, if_false]

end Instant

end GovernedRecords
