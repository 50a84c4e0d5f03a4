import GovernedRecords.Proofs.Text.Order
import GovernedRecords.Proofs.Time.Stamp

/-!
# Stamps in the order of time

From the year 1000 on, stamps are ordered as texts just as the instants they were made from are
ordered in time (`Instant.le_stamp`).  The parts of a stamp stand from the largest to the smallest,
each in a fixed number of digits, so the first part in which two stamps differ decides
(`Text.le_padded`), and the first part in which two moments differ decides which is earlier.
-/

set_option autoImplicit false

namespace GovernedRecords

namespace Text

variable {first second : Nat} {rest others : Text}

theorem le_refl (text : Text) : le text text = true := by
  simpa using le_total text text

theorem le_cons_self (point : CodePoint) (rest others : Text) :
    le (point :: rest) (point :: others) = le rest others := by
  rw [le, if_pos rfl]

theorem le_digit :
    le (digit first :: rest) (digit second :: others) = true ↔
      first % 10 < second % 10 ∨ first % 10 = second % 10 ∧ le rest others = true := by
  have same : digit first = digit second ↔ first % 10 = second % 10 := by
    rw [Fin.ext_iff, val_digit, val_digit, Nat.add_left_cancel_iff]
  rw [le]
  split
  · next equal =>
      rw [same] at equal
      simp [equal]
  · next differ =>
      rw [same] at differ
      simp [differ]

/-- Of two padded numerals the one of the smaller number comes first, and what follows them counts
when the numbers are the same. -/
theorem le_padded {width : Nat} (fits : first < 10 ^ (width + 1))
    (otherFits : second < 10 ^ (width + 1)) :
    le (padded (width + 1) first ++ rest) (padded (width + 1) second ++ others) = true ↔
      first < second ∨ first = second ∧ le rest others = true := by
  induction width generalizing first second rest others with
  | zero =>
      rw [Nat.zero_add, Nat.pow_one] at fits otherFits
      rw [padded_one fits, padded_one otherFits, List.singleton_append, List.singleton_append,
        le_digit, Nat.mod_eq_of_lt fits, Nat.mod_eq_of_lt otherFits]
  | succ width ih =>
      have tens : first / 10 < 10 ^ (width + 1) := by omega
      have otherTens : second / 10 < 10 ^ (width + 1) := by omega
      rw [padded_succ, padded_succ, List.append_assoc, List.append_assoc, ih tens otherTens,
        List.singleton_append, List.singleton_append, le_digit]
      cases le rest others with
      | true =>
          simp only [and_true]
          omega
      | false =>
          simp only [Bool.false_eq_true, and_false, or_false]
          omega

end Text

namespace Calendar

/-- A month begins after the months before it in its year. -/
theorem daysInMonths_mono (year : Nat) {first second : Nat} (ordered : first ≤ second) :
    daysInMonths year first ≤ daysInMonths year second := by
  induction ordered with
  | refl => exact Nat.le_refl _
  | step _ ih => exact Nat.le_trans ih (Nat.le_add_right _ _)

/-- A day lies before the month that follows its own. -/
theorem dayNumber_lt_of_month {year month later day laterDay : Nat} (first : 1 ≤ month)
    (ordered : month < later) (within : 1 ≤ day ∧ day ≤ monthLength year month) :
    dayNumber year month day < dayNumber year later laterDay := by
  have counted : daysInMonths year month =
      daysInMonths year (month - 1) + monthLength year month := by
    obtain ⟨before, rfl⟩ : ∃ before, month = before + 1 := ⟨month - 1, by omega⟩
    rfl
  have passed : daysInMonths year month ≤ daysInMonths year (later - 1) :=
    daysInMonths_mono year (by omega)
  simp only [dayNumber]
  omega

theorem year_ofNumber (number : Nat) : (ofNumber number).year = (yearAndRest number).1 := rfl

/-- A day with a smaller year, or a smaller month of the same year, or a smaller day of the same
month, is an earlier one. -/
theorem lt_of_day_lt {first second : Nat}
    (earlier : (ofNumber first).year < (ofNumber second).year ∨
      (ofNumber first).year = (ofNumber second).year ∧
        ((ofNumber first).month < (ofNumber second).month ∨
          (ofNumber first).month = (ofNumber second).month ∧
            (ofNumber first).day < (ofNumber second).day)) : first < second := by
  obtain ⟨⟨begins, -⟩, within⟩ := ofNumber_valid first
  have number := dayNumber_ofNumber first
  have other := dayNumber_ofNumber second
  rcases earlier with year | ⟨year, month | ⟨month, day⟩⟩
  · rw [year_ofNumber, year_ofNumber] at year
    exact Nat.lt_of_not_le fun ordered => Nat.not_le.mpr year (year_mono ordered)
  · have less := @dayNumber_lt_of_month (ofNumber first).year _ _ _ (ofNumber second).day begins
      month within
    rwa [number, year, other] at less
  · rw [year, month] at number
    simp only [dayNumber] at number other
    omega

/-- Days with the same year, month and day are the same. -/
theorem eq_of_day_eq {first second : Nat} (year : (ofNumber first).year = (ofNumber second).year)
    (month : (ofNumber first).month = (ofNumber second).month)
    (day : (ofNumber first).day = (ofNumber second).day) : first = second := by
  rw [← dayNumber_ofNumber first, ← dayNumber_ofNumber second, year, month, day]

end Calendar

namespace Instant

open Text

variable {first second : Instant}

/-- A stamp from the year 1000 on, part by part. -/
theorem stamp_eq_parts {instant : Instant} (year : 1000 ≤ instant.year) :
    instant.stamp = padded 4 instant.day.year ++ CodePoint.ofChar '-' ::
      (padded 2 instant.day.month ++ CodePoint.ofChar '-' ::
      (padded 2 instant.day.day ++ CodePoint.ofChar 'T' ::
      (padded 2 instant.clock.hour ++ CodePoint.ofChar ':' ::
      (padded 2 instant.clock.minute ++ CodePoint.ofChar ':' ::
      (padded 2 instant.clock.second ++ CodePoint.ofChar '.' ::
      (padded 6 instant.clock.microsecond ++ [CodePoint.ofChar 'Z'])))))) := by
  obtain ⟨years, months, days⟩ := instant.day_fits
  obtain ⟨hours, minutes, seconds, fraction⟩ := instant.clock_fits
  rw [stamp_eq_digits year, padded_four years, padded_two months, padded_two days,
    padded_two (by omega), padded_two (by omega), padded_two (by omega), padded_six fraction]
  rfl

/-- An instant of an earlier day is earlier. -/
theorem le_of_date_lt (earlier : first.date.number < second.date.number) :
    first.microseconds ≤ second.microseconds := by
  simp only [date, microsecondsPerDay] at earlier
  omega

/-- An instant whose stamp comes first is not the later one. -/
theorem le_of_le_stamp (year : 1000 ≤ first.year) (otherYear : 1000 ≤ second.year)
    (ordered : Text.le first.stamp second.stamp = true) :
    first.microseconds ≤ second.microseconds := by
  obtain ⟨years, months, days⟩ := first.day_fits
  obtain ⟨otherYears, otherMonths, otherDays⟩ := second.day_fits
  obtain ⟨hours, minutes, seconds, fraction⟩ := first.clock_fits
  obtain ⟨otherHours, otherMinutes, otherSeconds, otherFraction⟩ := second.clock_fits
  have earlier := @Calendar.lt_of_day_lt first.date.number second.date.number
  rw [stamp_eq_parts year, stamp_eq_parts otherYear, le_padded years otherYears, le_cons_self,
    le_padded months otherMonths, le_cons_self, le_padded days otherDays, le_cons_self,
    le_padded (by omega) (by omega), le_cons_self, le_padded (by omega) (by omega), le_cons_self,
    le_padded (by omega) (by omega), le_cons_self, le_padded fraction otherFraction] at ordered
  rcases ordered with year | ⟨year, month | ⟨month, day | ⟨day, clocks⟩⟩⟩
  · exact le_of_date_lt (earlier (.inl year))
  · exact le_of_date_lt (earlier (.inr ⟨year, .inl month⟩))
  · exact le_of_date_lt (earlier (.inr ⟨year, .inr ⟨month, day⟩⟩))
  · have midnights : first.date.midnight.microseconds = second.date.midnight.microseconds :=
      congrArg (· * microsecondsPerDay) (Calendar.eq_of_day_eq year month day)
    rw [← first.microseconds_eq, ← second.microseconds_eq, midnights]
    omega

theorem eq_of_microseconds_eq (same : first.microseconds = second.microseconds) :
    first = second := by
  cases first
  cases second
  cases same
  rfl

/-- **From the year 1000 on, stamps are in the order of the instants.** -/
theorem le_stamp (year : 1000 ≤ first.year) (otherYear : 1000 ≤ second.year) :
    Text.le first.stamp second.stamp = first.le second := by
  rw [Bool.eq_iff_iff, Instant.le, decide_eq_true_eq]
  refine ⟨le_of_le_stamp year otherYear, fun ordered => ?_⟩
  by_cases leads : Text.le first.stamp second.stamp = true
  · exact leads
  · have follows : Text.le second.stamp first.stamp = true := by
      simpa [leads] using Text.le_total first.stamp second.stamp
    have back := le_of_le_stamp otherYear year follows
    obtain rfl : first = second := eq_of_microseconds_eq (Nat.le_antisymm ordered back)
    exact le_refl _

end Instant

end GovernedRecords
