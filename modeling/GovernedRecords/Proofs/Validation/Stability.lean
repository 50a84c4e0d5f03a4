import GovernedRecords.Proofs.Definition.Check
import GovernedRecords.Proofs.Time.Stamp
import GovernedRecords.Proofs.Validation.Fieldwise

/-!
# Valid values are valid again

Each field type takes its own values as they are (`FieldType.Holds.coerce`): a finite number, a
truth value, and a stamp that is read back, which the stamps of the years before 1000 are not.  So
the values that validation yields are a valid payload that yields them again, at any instant
(`validate_stable`).

What is missing needs a closer look, since nothing is coerced there.  A missing value is yielded
only where an update clears a field, or where a new record takes an empty text for a default; and a
field that yields nothing has no default.  Each is met again in the same place, for a definition
whose fields have different names.
-/

set_option autoImplicit false

namespace GovernedRecords

open Text

/-! ## Stamps are no other words -/

theorem CodePoint.simpleLower_digit (number : Nat) :
    (digit number).simpleLower = digit number := by
  have value := val_digit number
  have ascii : (digit number).val < 128 := by omega
  have small : (digit number).isUpperLetter = false := by
    simp only [CodePoint.isUpperLetter, Bool.and_eq_false_iff, decide_eq_false_iff_not]
    omega
  simp only [CodePoint.simpleLower, ascii, small, if_true, Bool.false_eq_true, if_false]

/-- A text that begins with a digit does so in lower case. -/
theorem Text.head?_lower_digit (number : Nat) (rest : Text) :
    (lower (digit number :: rest)).head? = some (digit number) := by
  have value := val_digit number
  have dotless : ¬ (digit number).val = 0x130 := by omega
  have sigmaless : ¬ (digit number).val = 0x3A3 := by omega
  simp only [lower, lowerAfter, dotless, sigmaless, if_false, CodePoint.simpleLower_digit,
    List.singleton_append, List.head?_cons]

namespace Instant

variable {instant : Instant}

theorem stamp_ne_nil (instant : Instant) : instant.stamp ≠ [] := by
  rw [stamp_eq]
  exact List.append_ne_nil_of_right_ne_nil _ (List.cons_ne_nil _ _)

/-- A stamp is not the word for the current instant. -/
theorem isNow_stamp (year : 1000 ≤ instant.year) : Coercion.isNow instant.stamp = false := by
  have word : ("now" : Text).head? = some (CodePoint.ofChar 'n') := rfl
  rw [Coercion.isNow, trim_stamp year, beq_eq_false_iff_ne]
  intro same
  have begins := congrArg List.head? same
  rw [stamp_eq_digits year, IsoText.dayDigits, List.cons_append, head?_lower_digit, word] at begins
  exact digit_ne_ofChar _ rfl (Option.some.inj begins)

end Instant

/-! ## Values of a type are coerced to themselves -/

/-- A value that is there is coerced to one that is there. -/
theorem FieldType.isMissing_of_coerce {now : Instant} {type : FieldType} {value result : Value}
    (present : value.isMissing = false) (done : type.coerce now value = .ok result) :
    result.isMissing = false := by
  have holds := (FieldType.coerce_eq_ok (Value.isNull_of_not_isMissing present) done).2
  cases type with
  | string =>
      cases done
      exact present
  | text =>
      cases done
      exact present
  | number =>
      obtain ⟨number, rfl, -⟩ := holds
      rfl
  | boolean =>
      obtain ⟨truth, rfl⟩ := holds
      rfl
  | date =>
      obtain ⟨instant, rfl⟩ := holds
      exact List.isEmpty_eq_false_iff.mpr instant.stamp_ne_nil

theorem Value.eq_empty {value : Value} (missing : value.isMissing = true)
    (there : value.isNull = false) : value = .text [] := by
  cases value with
  | text characters => rw [List.isEmpty_iff.mp missing]
  | null => cases there
  | _ => cases missing

/-- Every stamp that a value is can be read back. -/
def Value.Readable (value : Value) : Prop :=
  ∀ instant : Instant, value = .text instant.stamp → 1000 ≤ instant.year

theorem Value.readable_stamp_iff {instant : Instant} :
    Value.Readable (.text instant.stamp) ↔ 1000 ≤ instant.year := by
  constructor
  · exact fun readable => readable instant rfl
  · intro year other same
    rw [← Instant.stamp_injective (Value.text.inj same)]
    exact year

/-- **A value of a field type is coerced to itself at every instant**, if it can be read back in
case it is a date. -/
theorem FieldType.Holds.coerce {type : FieldType} {value : Value} (holds : type.Holds value)
    (readable : type = .date → value.Readable) (now : Instant) :
    type.coerce now value = .ok value := by
  cases type with
  | string => rfl
  | text => rfl
  | number =>
      obtain ⟨number, rfl, finite⟩ := holds
      rw [FieldType.coerce, Coercion.number, Coercion.finite, if_pos finite]
      rfl
  | boolean =>
      obtain ⟨truth, rfl⟩ := holds
      rfl
  | date =>
      obtain ⟨instant, rfl⟩ := holds
      have year := Value.readable_stamp_iff.mp (readable rfl)
      have plain : Coercion.namesNow (.text instant.stamp) = false := Instant.isNow_stamp year
      have read : (Value.text instant.stamp).toInstant = .ok instant := Instant.toInstant_stamp year
      rw [FieldType.coerce, Coercion.date, plain, read]
      rfl

namespace Validation

variable {definition : Definition} {first second : Instant} {mode : Mode} {given again : Entries}
  {field : Field}

/-! ## Missing values -/

theorem coerced_of_coerce {now : Instant} {type : FieldType} {value result : Value}
    (done : type.coerce now value = .ok result) (problem : Issue) :
    coerced now type value problem = .ok (.value result) := by
  rw [coerced, done]

/-- A missing value is yielded where an update clears a field and where a new record takes its
default, and nowhere else. -/
theorem fieldOutcome_eq_missing {value : Value} (missing : value.isMissing = true)
    (made : fieldOutcome first mode given field = .ok (.value value)) :
    (mode = .update ∧ cleared field = .value value) ∨
      (mode = .create ∧ filled first field = .ok (.value value)) := by
  unfold fieldOutcome at made
  split at made
  · next named _ =>
      split at made
      · next present =>
          have kept := FieldType.isMissing_of_coerce (by simpa using present)
            (coerce_of_coerced made)
          rw [missing] at kept
          cases kept
      · cases mode with
        | update => exact .inl ⟨rfl, Except.ok.inj made⟩
        | create => exact .inr ⟨rfl, made⟩
  · cases mode with
    | update => cases made
    | create => exact .inr ⟨rfl, made⟩

/-- The empty text as a default is taken at every instant, if it is at one. -/
theorem filled_eq_missing {value : Value} (missing : value.isMissing = true)
    (made : filled first field = .ok (.value value)) (second : Instant) :
    filled second field = .ok (.value value) := by
  unfold filled at made ⊢
  cases given : field.default with
  | some default =>
      rw [given] at made
      have done := coerce_of_coerced made
      -- Only a missing text is coerced to a missing value, so the default is the value it becomes.
      have empty : Value.isMissing (.text default) = true := by
        by_contra present
        rw [FieldType.isMissing_of_coerce (Bool.eq_false_iff.mpr present) done] at missing
        cases missing
      obtain ⟨there, holds⟩ := FieldType.coerce_eq_ok rfl done
      have same : value = .text default := by
        rw [Value.eq_empty empty rfl]
        exact Value.eq_empty missing there
      refine coerced_of_coerce ?_ _
      rw [← same]
      refine holds.coerce (fun _ instant stamped => ?_) second
      rw [stamped] at missing
      exact absurd (List.isEmpty_iff.mp missing) instant.stamp_ne_nil
  | none =>
      rw [given] at made
      dsimp only at made
      split at made
      · cases made
      · split at made
        · cases made
          exact absurd (List.isEmpty_iff.mp missing) first.stamp_ne_nil
        · cases made

/-- A field that a new record leaves open at one instant is left open at every other. -/
theorem filled_eq_absent (made : filled first field = .ok .absent) (second : Instant) :
    filled second field = .ok .absent := by
  unfold filled at made ⊢
  cases given : field.default with
  | some default =>
      rw [given] at made
      exact absurd made coerced_ne_absent
  | none =>
      rw [given] at made
      dsimp only at made ⊢
      split at made
      · cases made
      · next free =>
          rw [if_neg free]
          split at made
          · cases made
          · next undated => rw [if_neg undated]

/-- A field that yields nothing is not named by an update, or is left open in a new record. -/
theorem fieldOutcome_eq_absent (made : fieldOutcome first mode given field = .ok .absent) :
    mode = .update ∨ (mode = .create ∧ filled first field = .ok .absent) := by
  cases mode with
  | update => exact .inl rfl
  | create =>
      refine .inr ⟨rfl, ?_⟩
      unfold fieldOutcome at made
      split at made
      · split at made
        · exact absurd made coerced_ne_absent
        · exact made
      · exact made

/-! ## The yielded values as a payload -/

/-- **What a field yields it yields again**, when it is read where its value was put: at another
instant, and whatever else was there the first time. -/
theorem fieldOutcome_again {outcome : FieldOutcome}
    (made : fieldOutcome first mode given field = .ok outcome)
    (clean : ∀ issue, outcome ≠ .problem issue)
    (stored : Entries.get? again field.name = outcome.value?)
    (readable : field.type = .date → ∀ value, outcome = .value value → value.Readable)
    (second : Instant) : fieldOutcome second mode again field = .ok outcome := by
  cases outcome with
  | problem issue => exact absurd rfl (clean issue)
  | absent =>
      have unnamed : Entries.get? again field.name = none := stored
      unfold fieldOutcome
      rw [unnamed]
      rcases fieldOutcome_eq_absent made with rfl | ⟨rfl, left⟩
      · rfl
      · exact filled_eq_absent left second
  | value value =>
      have named : Entries.get? again field.name = some value := stored
      cases missing : value.isMissing with
      | false =>
          rcases fieldOutcome_fits made with ⟨-, holds⟩ | ⟨rfl, -⟩
          · rw [fieldOutcome_of_supplied named missing]
            exact coerced_of_coerce (holds.coerce (fun date => readable date value rfl) second) _
          · cases missing
      | true =>
          -- Such a value is not coerced again: the rules for missing values meet it once more.
          unfold fieldOutcome
          rw [named]
          dsimp only
          rw [missing]
          rcases fieldOutcome_eq_missing missing made with ⟨rfl, clears⟩ | ⟨rfl, fills⟩
          · exact congrArg Except.ok clears
          · exact filled_eq_missing missing fills second

/-- **Validation is idempotent.**  For a definition without problems, the values of a valid payload
are a valid payload that yields them again, at any instant and in the same mode, if the stamps of
its dates can be read back. -/
theorem validate_stable {checkedAt : Instant} {payload : Value} {record : NormalizedRecord}
    (clean : definition.problems checkedAt = .ok [])
    (valid : definition.validate first payload mode = .ok (.valid record))
    (readable : ∀ field ∈ definition.fields, field.type = .date → ∀ value,
      Entries.get? record.values field.name = some value → value.Readable)
    (second : Instant) :
    definition.validate second (.object record.values) mode = .ok (.valid record) := by
  obtain ⟨entries, outcomes, rfl, checked, none, rfl⟩ := validate_eq_valid valid
  obtain ⟨own, each⟩ := fieldOutcomes_eq_ok checked
  have distinct : (outcomes.map fun outcome => outcome.1.name).Nodup := by
    have formed := (Definition.wellFormed_of_problems clean).distinct
    rw [Definition.fieldNames, ← own, List.map_map] at formed
    exact formed
  have again : fieldOutcomes second mode (values outcomes) definition.fields = .ok outcomes := by
    rw [fieldOutcomes_eq_ok_iff, ← own, List.forall₂_map_left_iff, List.forall₂_same]
    intro outcome member
    have stored := get?_values distinct member
    refine ⟨rfl, fieldOutcome_again (each outcome member) (ne_problem_of_problems none member)
      stored ?_ second⟩
    intro date value yields
    refine readable outcome.1 (own ▸ List.mem_map_of_mem member) date value ?_
    rw [stored, yields]
    rfl
  rw [validate_object, again, Except.map, ofOutcomes, none]

/-- A visit has a note, empty unless there is one, a length, and a day, today unless it is told. -/
def visit : Definition where
  name := "visit"
  fields := [⟨"note", .text, true, false, some "", none⟩, ⟨"hours", .number, false, false, none, none⟩,
    ⟨"day", .date, true, false, some "now", none⟩]
  grants := .empty
  tableName := none
  ownerField := none
  createdAt := none
  updatedAt := none

/-- The start of the year 2000. -/
def newYear : Instant := ⟨730119 * microsecondsPerDay, by decide⟩

/-- The record of a visit then, of which only the length was told. -/
def newYearVisit : NormalizedRecord where
  values := [(.text "note", .text ""), (.text "hours", .float (.ofQuotient false 2 1)),
    (.text "day", .text newYear.stamp)]
  uniqueFields := []

/-- The record of the visit is valid at the start of all years and comes to itself. -/
theorem visit_stable :
    visit.problems newYear = .ok [] ∧
      visit.validate newYear (.object [(.text "hours", .text " 2.0")]) .create =
        .ok (.valid newYearVisit) ∧
      visit.validate ⟨0, by decide⟩ (.object newYearVisit.values) .create =
        .ok (.valid newYearVisit) := by
  have clean : visit.problems newYear = .ok [] := rfl
  have valid : visit.validate newYear (.object [(.text "hours", .text " 2.0")]) .create =
      .ok (.valid newYearVisit) := rfl
  refine ⟨clean, valid, validate_stable clean valid ?_ _⟩
  intro field declared date value found
  have last : field = ⟨"day", .date, true, false, some "now", none⟩ := by
    rcases List.mem_cons.mp declared with rfl | declared
    · cases date
    · rcases List.mem_cons.mp declared with rfl | declared
      · cases date
      · exact List.mem_singleton.mp declared
  subst last
  cases Option.some.inj (found.symm.trans (rfl : _ = some (Value.text newYear.stamp)))
  exact Value.readable_stamp_iff.mpr (by decide)

end Validation

end GovernedRecords
