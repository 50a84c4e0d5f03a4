import GovernedRecords.Operation
import GovernedRecords.Proofs.Time.Stamp

/-!
# Which stamps are read back

Every moment that can be represented has a stamp.  The stamp is read back as the instant of the
moment, and has itself as the stamp of what was read, from the year 1000 on; an earlier year is
written with fewer than four digits, and no such stamp is read at all (`Value.stamp_read_back`).

A date begins with the four digits of its year, whatever follows.  So a text in which one of the
first four code points is no digit is malformed (`IsoText.read_of_early`), and in the stamp of an
early year the dash after the year is among them.
-/

set_option autoImplicit false

namespace GovernedRecords

open Text

/-- A digit is no blank. -/
theorem Text.isBlank_of_isDigit {point : CodePoint} (digit : point.isDigit = true) :
    point.isBlank = false := by
  simp only [CodePoint.isDigit, Bool.and_eq_true, decide_eq_true_eq] at digit
  simp [CodePoint.isBlank, CodePoint.inTable, CodePoint.blanks]
  omega

/-! ## Texts without the digits of a year -/

namespace IsoText

variable {text : Text}

theorem number?_of_mem {point : CodePoint} (member : point ∈ text) (other : point.isDigit = false) :
    number? text = none := by
  have mixed : text.all CodePoint.isDigit = false := by
    rw [List.all_eq_false]
    exact ⟨point, member, by rw [other]; decide⟩
  rw [number?, mixed, Bool.not_false, Bool.or_true, if_pos rfl]

theorem readDate?_of_early {point : CodePoint} (early : point ∈ text.take 4)
    (other : point.isDigit = false) : readDate? text = none := by
  rw [readDate?, number?_of_mem early other]
  rfl

/-- A date is never shorter than a year and its week. -/
theorem seven_le_of_dateLength? {length : Nat} (found : dateLength? text = some length) :
    7 ≤ length := by
  unfold dateLength? at found
  grind

/-- No separator stands within the year. -/
theorem take_plain? {plain : Text} (made : plain? text = some plain) :
    plain.take 4 = text.take 4 := by
  unfold plain? at made
  split at made
  · next place found =>
      have separator := List.mem_of_find?_eq_some found
      have late : ∀ place ∈ separatorPlaces, 4 ≤ place := by decide
      dsimp only at made
      split at made
      · cases made
      · cases made
        rw [List.take_set_of_le (late place separator)]
  · dsimp only at made
    split at made
    · cases made
    · cases made
      rfl

/-- **A text in which one of the first four code points is no digit is malformed.** -/
theorem read_of_early {point : CodePoint} (early : point ∈ text.take 4)
    (other : point.isDigit = false) : read text = .error (.malformed text) := by
  have none : readParts? text = none := by
    rw [readParts?]
    split
    · rfl
    · cases made : plain? text with
      | none => rfl
      | some plain =>
          cases found : dateLength? plain with
          | none => simp [found]
          | some length =>
              have long : 4 ≤ length := Nat.le_trans (by decide) (seven_le_of_dateLength? found)
              have within : point ∈ (plain.take length).take 4 := by
                rw [List.take_take, Nat.min_eq_left long, take_plain? made]
                exact early
              simp [found, readDate?_of_early within other]
  rw [read, none]
  rfl

end IsoText

/-! ## The stamps of early years -/

namespace Instant

/-- A stamp is its year, a dash, and more that ends with a `Z`. -/
theorem exists_stamp (instant : Instant) : ∃ rest : Text, instant.stamp =
    Text.ofNat instant.year ++ CodePoint.ofChar '-' :: (rest ++ [CodePoint.ofChar 'Z']) := by
  rw [stamp_eq, stampEnd]
  refine ⟨[digit (instant.day.month / 10), digit instant.day.month, CodePoint.ofChar '-',
    digit (instant.day.day / 10), digit instant.day.day, CodePoint.ofChar 'T'] ++
      IsoText.clockDigits instant.clock, ?_⟩
  simp only [List.cons_append, List.nil_append]
  rfl

/-- Before the year 1000 a stamp is malformed, once the offset of universal time has taken the place
of its final `Z`. -/
theorem toInstant_stamp_early {instant : Instant} (early : instant.year < 1000) :
    instant.stamp.toInstant = .error (.iso (.malformed instant.stamp.expandZulu)) := by
  obtain ⟨rest, whole⟩ := instant.exists_stamp
  obtain ⟨first, others, year, digit⟩ := exists_ofNat instant.year
  have short : (Text.ofNat instant.year).length ≤ 3 := by
    rw [Text.ofNat, List.length_map]
    exact (Nat.length_toDigits_le_iff (by decide) (by decide)).mpr early
  have dash : CodePoint.isDigit (CodePoint.ofChar '-') = false := by decide
  have zulu : (CodePoint.ofChar 'Z').isBlank = false := by decide
  have trimmed : instant.stamp.trim = instant.stamp := by
    rw [whole, year]
    refine trim_of_ends rfl ?_ (isBlank_of_isDigit digit) zulu
    rw [← List.cons_append, ← List.append_assoc, List.getLast?_concat]
  have expanded : instant.stamp.expandZulu =
      Text.ofNat instant.year ++ CodePoint.ofChar '-' :: (rest ++ IsoText.zeroOffset) := by
    rw [whole, ← List.cons_append, ← List.append_assoc, expandZulu, List.getLast?_concat,
      List.dropLast_concat]
    simp [concat]
    rfl
  -- The year leaves room for the dash among the first four.
  have early : CodePoint.ofChar '-' ∈ instant.stamp.expandZulu.take 4 := by
    obtain ⟨room, four⟩ : ∃ room, 4 - (Text.ofNat instant.year).length = room + 1 :=
      ⟨3 - (Text.ofNat instant.year).length, by omega⟩
    rw [expanded, List.take_append, four, List.take_succ_cons]
    exact List.mem_append_right _ List.mem_cons_self
  have present : instant.stamp.isEmpty = false := by
    rw [whole, year]
    rfl
  simp only [toInstant, trimmed, present, Bool.false_eq_true, if_false,
    IsoText.read_of_early early dash]

end Instant

/-- **A stamp is read back exactly from the year 1000 on.**  Every moment that can be represented,
with any offset, has a stamp.  From the year 1000 on in universal time, the stamp is read as the
instant of the moment, and what is read has the same stamp; before that it is malformed. -/
theorem Value.stamp_read_back {moment : DateTime} {instant : Instant}
    (represented : moment.instant? = some instant) :
    ∃ stamp, (Value.datetime moment).stamp = .ok stamp ∧
      (1000 ≤ instant.year →
        (Value.text stamp).toInstant = .ok instant ∧
          (Value.datetime ⟨instant, some 0⟩).stamp = .ok stamp) ∧
      (instant.year < 1000 →
        (Value.text stamp).toInstant = .error (.iso (.malformed stamp.expandZulu))) := by
  refine ⟨instant.stamp, by rw [Value.stamp, represented], fun late => ⟨?_, ?_⟩, fun early => ?_⟩
  · exact Instant.toInstant_stamp late
  · have universal : DateTime.instant? ⟨instant, some 0⟩ = some instant :=
      Instant.advance?_eq_some (Nat.add_zero _)
    rw [Value.stamp, universal]
  · exact Instant.toInstant_stamp_early early

/-- Half past eleven on the last evening of the year 999, somewhere. -/
def lateEvening (offset : Int) : DateTime := ⟨⟨31525371000000000, by decide⟩, some offset⟩

/-- Where the clocks are an hour behind universal time, the year 1000 has begun there. -/
theorem behind_read_back :
    ∃ instant, (lateEvening (-3600000000)).instant? = some instant ∧
      (Value.datetime (lateEvening (-3600000000))).stamp = .ok "1000-01-01T00:30:00.000000Z" ∧
      (Value.text "1000-01-01T00:30:00.000000Z").toInstant = .ok instant := by
  have represented : (lateEvening (-3600000000)).instant? =
      some ⟨31525374600000000, by decide⟩ := rfl
  obtain ⟨stamp, made, read, -⟩ := Value.stamp_read_back represented
  have shown : (Value.datetime (lateEvening (-3600000000))).stamp =
      .ok "1000-01-01T00:30:00.000000Z" := rfl
  cases made.symm.trans shown
  exact ⟨_, represented, shown, (read (by decide)).1⟩

/-- In universal time it has not, and the stamp has a year of three digits. -/
theorem year_999_not_read_back :
    (lateEvening 0).instant? = some (lateEvening 0).clock ∧
      (Value.datetime (lateEvening 0)).stamp = .ok "999-12-31T23:30:00.000000Z" ∧
      (Value.text "999-12-31T23:30:00.000000Z").toInstant =
        .error (.iso (.malformed "999-12-31T23:30:00.000000+00:00")) :=
  ⟨rfl, rfl, rfl⟩

end GovernedRecords
