import GovernedRecords.Proofs.Entries
import GovernedRecords.Validation.Payload

/-!
# What a valid payload yields

A value that validation yields for a field fits the field (`Field.Fits`): it is of the type of
the field, or null where the field need not have a value.  A new record has a value for every
required field.
-/

set_option autoImplicit false

namespace GovernedRecords

/-- A value of a field type: a finite number, a truth value, or a stamp; strings and texts may
be anything. -/
def FieldType.Holds : FieldType → Value → Prop
  | .number, value => ∃ number : Double, value = .float number ∧ number.isFinite = true
  | .boolean, value => ∃ truth, value = .bool truth
  | .date, value => ∃ instant : Instant, value = .text instant.stamp
  | .string, _ => True
  | .text, _ => True

/-- A value that a field may have: one of its type that is there, or null when the field is not
required. -/
def Field.Fits (field : Field) (value : Value) : Prop :=
  (value.isNull = false ∧ field.type.Holds value) ∨ (value = .null ∧ field.required = false)

namespace Coercion

theorem finite_eq_ok {number result : Double} (done : finite number = .ok result) :
    result.isFinite = true := by
  unfold finite at done
  split at done
  · next holds =>
    cases done
    exact holds
  · cases done

theorem number_eq_ok {value : Value} {result : Double} (done : number value = .ok result) :
    result.isFinite = true := by
  unfold number at done
  split at done
  · cases done
  · split at done
    · exact finite_eq_ok done
    · cases done
  · exact finite_eq_ok done
  · split at done
    · exact finite_eq_ok done
    · cases done
  · cases done

theorem date_eq_ok {now : Instant} {value : Value} {result : Text}
    (done : date now value = .ok result) : ∃ instant : Instant, result = instant.stamp := by
  unfold date at done
  split at done
  · cases done
    exact ⟨now, rfl⟩
  · split at done
    · next instant _ =>
      cases done
      exact ⟨instant, rfl⟩
    · cases done

end Coercion

/-- What a value is coerced to is of the type; no value that is there becomes null. -/
theorem FieldType.coerce_eq_ok {now : Instant} {type : FieldType} {value result : Value}
    (present : value.isNull = false) (done : type.coerce now value = .ok result) :
    result.isNull = false ∧ type.Holds result := by
  cases type with
  | string =>
      cases done
      exact ⟨present, trivial⟩
  | text =>
      cases done
      exact ⟨present, trivial⟩
  | number =>
      cases read : Coercion.number value with
      | error cause =>
          rw [FieldType.coerce, read] at done
          cases done
      | ok number =>
          rw [FieldType.coerce, read] at done
          cases done
          exact ⟨rfl, number, rfl, Coercion.number_eq_ok read⟩
  | boolean =>
      cases read : Coercion.boolean value with
      | error cause =>
          rw [FieldType.coerce, read] at done
          cases done
      | ok truth =>
          rw [FieldType.coerce, read] at done
          cases done
          exact ⟨rfl, truth, rfl⟩
  | date =>
      cases read : Coercion.date now value with
      | error cause =>
          rw [FieldType.coerce, read] at done
          cases done
      | ok stamp =>
          rw [FieldType.coerce, read] at done
          cases done
          obtain ⟨instant, rfl⟩ := Coercion.date_eq_ok read
          exact ⟨rfl, instant, rfl⟩

namespace Validation

variable {now : Instant} {mode : Mode} {entries : Entries} {field : Field}

/-- The value that validation puts under a field, given the value that the payload has for it:
the coerced value, or for a value that is missing the coerced default, or the present instant
for a date without one. -/
inductive NewValue (now : Instant) (field : Field) (named : Value) : Value → Prop where
  | coerced (present : named.isMissing = false) {value : Value}
      (done : field.type.coerce now named = .ok value) : NewValue now field named value
  | default (absent : named.isMissing = true) {default : Text}
      (given : field.default = some default) {value : Value}
      (done : field.type.coerce now (.text default) = .ok value) : NewValue now field named value
  | instant (absent : named.isMissing = true) (none : field.default = none)
      (type : field.type = .date) : NewValue now field named (.text now.stamp)

theorem coerce_of_coerced {type : FieldType} {given value : Value} {problem : Issue}
    (done : coerced now type given problem = .ok (.value value)) :
    type.coerce now given = .ok value := by
  unfold coerced at done
  split at done
  · next made =>
      cases done
      exact made
  · split at done <;> cases done

theorem newValue_of_filled {named value : Value} (absent : named.isMissing = true)
    (done : filled now field = .ok (.value value)) : NewValue now field named value := by
  unfold filled at done
  split at done
  · next default given => exact .default absent given (coerce_of_coerced done)
  · next none =>
      split at done
      · cases done
      · split at done
        · next type =>
            cases done
            exact .instant absent none type
        · cases done

theorem cleared_eq_value {value : Value} (done : cleared field = .value value) :
    value = .null ∧ field.required = false := by
  unfold cleared at done
  split at done
  · cases done
  · next free =>
      cases done
      exact ⟨rfl, by simpa using free⟩

/-- The value that validation yields for a field is one of these, or an update clears a field
that need not have one. -/
theorem newValue_of_fieldOutcome {value : Value}
    (done : fieldOutcome now mode entries field = .ok (.value value)) :
    NewValue now field (Entries.get entries field.name) value ∨
      mode = .update ∧ value = .null ∧ field.required = false := by
  unfold fieldOutcome at done
  split at done
  · next given found =>
      have named : Entries.get entries field.name = given := by rw [Entries.get, found]; rfl
      rw [named]
      split at done
      · next present => exact .inl (.coerced (by simpa using present) (coerce_of_coerced done))
      · next absent =>
          cases mode with
          | update => exact .inr ⟨rfl, cleared_eq_value (Except.ok.inj done)⟩
          | create => exact .inl (newValue_of_filled (by simpa using absent) done)
  · next none =>
      have named : Entries.get entries field.name = .null := by rw [Entries.get, none]; rfl
      rw [named]
      cases mode with
      | update => cases done
      | create => exact .inl (newValue_of_filled rfl done)

theorem NewValue.fits {named value : Value} (new : NewValue now field named value) :
    field.Fits value := by
  cases new with
  | coerced present done =>
      exact .inl (FieldType.coerce_eq_ok (Value.isNull_of_not_isMissing present) done)
  | default _ _ done => exact .inl (FieldType.coerce_eq_ok rfl done)
  | instant _ _ type =>
      refine .inl ⟨rfl, ?_⟩
      rw [type]
      exact ⟨now, rfl⟩

/-- The value that validation yields for a field fits it. -/
theorem fieldOutcome_fits {value : Value}
    (done : fieldOutcome now mode entries field = .ok (.value value)) : field.Fits value := by
  rcases newValue_of_fieldOutcome done with new | ⟨-, none, free⟩
  · exact new.fits
  · exact .inr ⟨none, free⟩

theorem coerced_ne_absent {type : FieldType} {value : Value} {problem : Issue} :
    coerced now type value problem ≠ .ok .absent := by
  intro done
  unfold coerced at done
  split at done
  · cases done
  · split at done <;> cases done

theorem filled_ne_absent (required : field.required = true) :
    filled now field ≠ .ok .absent := by
  intro done
  unfold filled at done
  split at done
  · exact coerced_ne_absent done
  · rw [if_pos required] at done
    cases done

/-- A new record leaves no required field open. -/
theorem fieldOutcome_ne_absent (required : field.required = true) :
    fieldOutcome now .create entries field ≠ .ok .absent := by
  intro done
  unfold fieldOutcome at done
  split at done
  · split at done
    · exact coerced_ne_absent done
    · exact filled_ne_absent required done
  · exact filled_ne_absent required done

/-! ## All fields -/

/-- Every field has its outcome, and every outcome is that of a field. -/
theorem fieldOutcomes_eq_ok {fields : List Field} {outcomes : List (Field × FieldOutcome)}
    (done : fieldOutcomes now mode entries fields = .ok outcomes) :
    outcomes.map Prod.fst = fields ∧
      ∀ outcome ∈ outcomes, fieldOutcome now mode entries outcome.1 = .ok outcome.2 := by
  induction fields generalizing outcomes with
  | nil =>
      cases done
      simp
  | cons field rest ih =>
      rw [fieldOutcomes] at done
      cases first : fieldOutcome now mode entries field with
      | error cause =>
          rw [first] at done
          cases done
      | ok outcome =>
          rw [first] at done
          cases others : fieldOutcomes now mode entries rest with
          | error cause =>
              rw [others] at done
              cases done
          | ok later =>
              rw [others] at done
              cases done
              obtain ⟨names, each⟩ := ih others
              refine ⟨by rw [List.map_cons, names], ?_⟩
              intro other member
              rcases List.mem_cons.mp member with rfl | member
              · exact first
              · exact each other member

theorem ne_problem_of_problems {outcomes : List (Field × FieldOutcome)}
    (none : problems outcomes = []) {outcome : Field × FieldOutcome} (member : outcome ∈ outcomes)
    (issue : Issue) : outcome.2 ≠ .problem issue := by
  intro problem
  have found : issue ∈ problems outcomes := by
    refine List.mem_filterMap.mpr ⟨outcome, member, ?_⟩
    rw [problem]
  rw [none] at found
  cases found

/-- What holds of some entries and is kept by the value of every field holds of the entries
with all values. -/
theorem putOutcomes_induction (holds : Entries → Prop) {outcomes : List (Field × FieldOutcome)}
    {first : Entries} (start : holds first)
    (step : ∀ entries field value, (field, .value value) ∈ outcomes → holds entries →
      holds (Entries.put field.name value entries)) : holds (outcomes.foldl putOutcome first) := by
  induction outcomes generalizing first with
  | nil => exact start
  | cons outcome rest ih =>
      obtain ⟨field, made⟩ := outcome
      refine ih ?_ fun entries other value member => step entries other value
        (List.mem_cons_of_mem _ member)
      cases made with
      | value value => exact step first field value List.mem_cons_self start
      | absent => exact start
      | problem issue => exact start

/-- The value of a field is among all values. -/
theorem isSome_get?_values {outcomes : List (Field × FieldOutcome)} {value : Value}
    (member : (field, .value value) ∈ outcomes) :
    (Entries.get? (values outcomes) field.name).isSome := by
  obtain ⟨before, after, rfl⟩ := List.append_of_mem member
  rw [values, List.foldl_append, List.foldl_cons]
  refine putOutcomes_induction (fun entries => (Entries.get? entries field.name).isSome) ?_
    fun entries other given _ there => ?_
  · simp [putOutcome]
  · exact Entries.isSome_get?_put there

/-- A valid payload is an object, and it yields the values of its fields, none of which has a
problem, with the unique fields. -/
theorem validate_eq_valid {definition : Definition} {payload : Value} {record : NormalizedRecord}
    (valid : definition.validate now payload mode = .ok (.valid record)) :
    ∃ entries outcomes, payload = .object entries ∧
      fieldOutcomes now mode entries definition.fields = .ok outcomes ∧
      problems outcomes = [] ∧ record = ⟨values outcomes, definition.uniqueFields⟩ := by
  unfold Definition.validate at valid
  split at valid
  · next entries =>
    cases checked : fieldOutcomes now mode entries definition.fields with
    | error cause =>
        rw [checked] at valid
        cases valid
    | ok outcomes =>
        rw [checked] at valid
        cases found : problems outcomes with
        | nil =>
            simp only [bind, Except.bind, found] at valid
            cases valid
            exact ⟨entries, outcomes, rfl, checked, found, rfl⟩
        | cons problem others =>
            simp only [bind, Except.bind, found] at valid
            cases valid
  · cases valid

/-- A payload is invalid for some problem. -/
theorem ne_nil_of_validate {definition : Definition} {payload : Value} {errors : List Issue}
    (invalid : definition.validate now payload mode = .ok (.invalid errors)) : errors ≠ [] := by
  unfold Definition.validate at invalid
  split at invalid
  · next entries =>
    cases checked : fieldOutcomes now mode entries definition.fields with
    | error cause =>
        rw [checked] at invalid
        cases invalid
    | ok outcomes =>
        rw [checked] at invalid
        cases found : problems outcomes with
        | nil =>
            simp only [bind, Except.bind, found] at invalid
            cases invalid
        | cons problem others =>
            simp only [bind, Except.bind, found] at invalid
            cases invalid
            exact List.cons_ne_nil problem others
  · cases invalid
    exact List.cons_ne_nil _ _

/-- **Every value of a valid payload fits its field.** -/
theorem validate_fits {definition : Definition} {payload : Value} {record : NormalizedRecord}
    (valid : definition.validate now payload mode = .ok (.valid record))
    {entry : Value × Value} (member : entry ∈ record.values) :
    ∃ field ∈ definition.fields, entry.1 = .text field.name ∧ field.Fits entry.2 := by
  obtain ⟨entries, outcomes, rfl, checked, -, rfl⟩ := validate_eq_valid valid
  obtain ⟨fields, each⟩ := fieldOutcomes_eq_ok checked
  have fits : ∀ entry ∈ values outcomes,
      ∃ field ∈ definition.fields, entry.1 = .text field.name ∧ field.Fits entry.2 := by
    refine putOutcomes_induction (fun values => ∀ entry ∈ values,
      ∃ field ∈ definition.fields, entry.1 = .text field.name ∧ field.Fits entry.2) ?_ ?_
    · simp
    · intro values field value made kept other put
      rcases Entries.mem_put put with rfl | old
      · refine ⟨field, fields ▸ List.mem_map_of_mem made, rfl, ?_⟩
        exact fieldOutcome_fits (each _ made)
      · exact kept other old
  exact fits entry member

/-- **A valid payload of a new record has a value for every required field.** -/
theorem validate_complete {definition : Definition} {payload : Value} {record : NormalizedRecord}
    (valid : definition.validate now payload .create = .ok (.valid record))
    (declared : field ∈ definition.fields) (required : field.required = true) :
    (Entries.get? record.values field.name).isSome := by
  obtain ⟨entries, outcomes, rfl, checked, clean, rfl⟩ := validate_eq_valid valid
  obtain ⟨fields, each⟩ := fieldOutcomes_eq_ok checked
  rw [← fields] at declared
  obtain ⟨⟨field, outcome⟩, member, rfl⟩ := List.mem_map.mp declared
  cases outcome with
  | value value => exact isSome_get?_values member
  | problem issue => exact absurd rfl (ne_problem_of_problems clean member issue)
  | absent => exact absurd (each _ member) (fieldOutcome_ne_absent required)

end Validation

end GovernedRecords
