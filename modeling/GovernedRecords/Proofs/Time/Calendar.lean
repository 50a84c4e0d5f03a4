import GovernedRecords.Time.Instant

/-!
# Days and their numbers

The calendar counts days in both directions: a number is turned into a year, month and day
by whole cycles of years and then month by month, and a year, month and day into a number
by adding up what lies before them.  Here the second direction is shown to undo the first
(`dayNumber_ofNumber`), and the first to give only days that a calendar has.
-/

set_option autoImplicit false

namespace GovernedRecords

namespace Calendar

theorem isLeap_iff (year : Nat) :
    isLeap year = true ↔ year % 4 = 0 ∧ (year % 100 ≠ 0 ∨ year % 400 = 0) := by
  simp [isLeap]

/-- The days of a year. -/
theorem daysInMonths_twelve (year : Nat) :
    daysInMonths year 12 = if isLeap year then 366 else 365 := by
  simp only [daysInMonths, monthLength]
  cases isLeap year <;> rfl

/-- The days before a year, by the cycles that make it up. -/
theorem daysBeforeYear_of_cycles {fourHundreds hundreds fours ones : Nat}
    (century : hundreds ≤ 3) (four : fours ≤ 24) (one : ones ≤ 3) :
    daysBeforeYear (fourHundreds * 400 + hundreds * 100 + fours * 4 + ones + 1) =
      146097 * fourHundreds + 36524 * hundreds + 1461 * fours + 365 * ones := by
  simp only [daysBeforeYear]
  omega

theorem daysBeforeYear_yearAndRest (number : Nat) :
    daysBeforeYear (yearAndRest number).1 + (yearAndRest number).2 = number := by
  simp only [yearAndRest]
  rw [daysBeforeYear_of_cycles (by omega) (by omega) (by omega)]
  omega

/-- The day that is left over lies within the year. -/
theorem yearAndRest_lt (number : Nat) :
    (yearAndRest number).2 < daysInMonths (yearAndRest number).1 12 := by
  rw [daysInMonths_twelve]
  split
  · next leap =>
      simp only [yearAndRest]
      omega
  · next common =>
      rw [isLeap_iff] at common
      simp only [yearAndRest] at common ⊢
      omega

theorem one_le_year (number : Nat) : 1 ≤ (yearAndRest number).1 := by
  simp only [yearAndRest]
  omega

theorem year_le {number : Nat} (inRange : number < dayCount) : (yearAndRest number).1 ≤ 9999 := by
  simp only [dayCount] at inRange
  simp only [yearAndRest]
  omega

/-- A year begins when the one before it is over. -/
theorem daysBeforeYear_succ {year : Nat} (positive : 1 ≤ year) :
    daysBeforeYear (year + 1) = daysBeforeYear year + daysInMonths year 12 := by
  obtain ⟨past, rfl⟩ : ∃ past, year = past + 1 := ⟨year - 1, by omega⟩
  rw [daysInMonths_twelve]
  simp only [daysBeforeYear, Nat.add_sub_cancel, Nat.succ_div, Nat.dvd_iff_mod_eq_zero, isLeap_iff]
  -- A century is a fourth year, and a fourth century is a century.
  have fourth : (past + 1) % 100 = 0 → (past + 1) % 4 = 0 := by omega
  have century : (past + 1) % 400 = 0 → (past + 1) % 100 = 0 := by omega
  have ordered : past / 100 ≤ past / 4 := by omega
  grind

/-- Before a later year lies all of an earlier one. -/
theorem daysBeforeYear_add_year_le {earlier later : Nat} (positive : 1 ≤ earlier)
    (ordered : earlier < later) :
    daysBeforeYear earlier + daysInMonths earlier 12 ≤ daysBeforeYear later := by
  induction ordered with
  | refl => exact Nat.le_of_eq (daysBeforeYear_succ positive).symm
  | @step year between ih =>
      rw [daysBeforeYear_succ (Nat.le_trans positive (Nat.le_of_succ_le between))]
      exact Nat.le_trans ih (Nat.le_add_right _ _)

/-- Later days lie in later years, or in the same one. -/
theorem year_mono {first second : Nat} (ordered : first ≤ second) :
    (yearAndRest first).1 ≤ (yearAndRest second).1 := by
  refine Nat.le_of_not_lt ?_
  intro later
  have between := daysBeforeYear_add_year_le (one_le_year second) later
  have inYear := yearAndRest_lt second
  have start := daysBeforeYear_yearAndRest first
  have finish := daysBeforeYear_yearAndRest second
  omega

/-- Going through the months keeps the count of days and stops within a month. -/
theorem monthAndDay_spec (year : Nat) {remaining month rest : Nat} (first : 1 ≤ month)
    (last : month + remaining = 12)
    (within : daysInMonths year (month - 1) + rest < daysInMonths year 12) :
    let found := monthAndDay year remaining month rest
    (1 ≤ found.1 ∧ found.1 ≤ 12) ∧ (1 ≤ found.2 ∧ found.2 ≤ monthLength year found.1) ∧
      daysInMonths year (found.1 - 1) + (found.2 - 1) =
        daysInMonths year (month - 1) + rest := by
  induction remaining generalizing month rest with
  | zero =>
      obtain rfl : month = 12 := by omega
      have whole : daysInMonths year 12 = daysInMonths year 11 + monthLength year 12 := rfl
      simp only [monthAndDay, Nat.reduceSub] at within ⊢
      omega
  | succ remaining ih =>
      rw [monthAndDay]
      simp only
      split
      · simp only
        omega
      · next beyond =>
          obtain ⟨before, rfl⟩ : ∃ before, month = before + 1 := ⟨month - 1, by omega⟩
          have counted : daysInMonths year (before + 1) =
              daysInMonths year before + monthLength year (before + 1) := rfl
          simp only [Nat.add_sub_cancel] at within ⊢
          have later := @ih (before + 1 + 1) (rest - monthLength year (before + 1)) (by omega)
            (by omega) (by simp only [Nat.add_one_sub_one]; omega)
          simp only [Nat.add_one_sub_one] at later
          obtain ⟨bounds, fits, total⟩ := later
          exact ⟨bounds, fits, by omega⟩

theorem ofNumber_spec (number : Nat) :
    let found := ofNumber number
    (1 ≤ found.month ∧ found.month ≤ 12) ∧
      (1 ≤ found.day ∧ found.day ≤ monthLength found.year found.month) ∧
      daysInMonths found.year (found.month - 1) + (found.day - 1) = (yearAndRest number).2 := by
  have inYear : daysInMonths (yearAndRest number).1 0 + (yearAndRest number).2 <
      daysInMonths (yearAndRest number).1 12 := by
    rw [daysInMonths, Nat.zero_add]
    exact yearAndRest_lt number
  have found := @monthAndDay_spec (yearAndRest number).1 11 1 _ (Nat.le_refl 1) rfl inYear
  rw [Nat.sub_self, daysInMonths, Nat.zero_add] at found
  exact found

/-- The day with a number is one that the calendar has. -/
theorem ofNumber_valid (number : Nat) :
    (1 ≤ (ofNumber number).month ∧ (ofNumber number).month ≤ 12) ∧
      1 ≤ (ofNumber number).day ∧
      (ofNumber number).day ≤ monthLength (ofNumber number).year (ofNumber number).month :=
  ⟨(ofNumber_spec number).1, (ofNumber_spec number).2.1⟩

/-- **A day has the number it was made from.** -/
theorem dayNumber_ofNumber (number : Nat) :
    dayNumber (ofNumber number).year (ofNumber number).month (ofNumber number).day = number := by
  have within := (ofNumber_spec number).2.2
  have before : daysBeforeYear (ofNumber number).year + (yearAndRest number).2 = number :=
    daysBeforeYear_yearAndRest number
  simp only [dayNumber]
  omega

theorem day_le_31 (number : Nat) : (ofNumber number).day ≤ 31 := by
  have fits := (ofNumber_valid number).2.2
  have longest : ∀ year month, monthLength year month ≤ 31 := by
    intro year month
    unfold monthLength
    split
    · split <;> omega
    · split
      · omega
      · split <;> omega
  exact Nat.le_trans fits (longest _ _)

end Calendar

/-- The date of the day with a number is the day with that number. -/
theorem Date.ofDay?_ofNumber (date : Date) :
    Date.ofDay? (Calendar.ofNumber date.number).year (Calendar.ofNumber date.number).month
      (Calendar.ofNumber date.number).day = some date := by
  have year := Calendar.one_le_year date.number
  obtain ⟨-, first, last⟩ := Calendar.ofNumber_valid date.number
  have number := Calendar.dayNumber_ofNumber date.number
  rw [ofDay?, if_pos ⟨year, first, last⟩, dif_pos (by rw [number]; exact date.inRange)]
  simp only [number]

end GovernedRecords
