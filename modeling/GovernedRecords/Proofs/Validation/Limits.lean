import GovernedRecords.Definition.Check
import GovernedRecords.Proofs.Number.Overflow
import GovernedRecords.Proofs.Validation.Fieldwise

/-!
# The limits of validation

What is wrong with a payload is reported as problems, with one exception.  A value may be beyond
its field type (`FieldType.Beyond`): an integer that no double approximates, where a number is
wanted, and a moment that its offset carries out of the years 1 to 9999, where a date is.  It is
neither taken nor refused; validation ends there without a report.

A field type is asked to take one value at most (`Validation.asked?`), so validation ends with
problems or a record exactly when no field asks for a value beyond its type, and the defaults of a
definition are checked to the end exactly when none of them is (`Validation.answered_iff`).  Numbers
in texts are not among the exceptions: a numeral beyond the doubles is refused like any other word.
-/

set_option autoImplicit false

namespace GovernedRecords

variable {now : Instant} {type : FieldType} {value : Value}

/-- A value that a field type neither takes nor refuses. -/
inductive FieldType.Beyond : FieldType → Value → Prop where
  | number {integer : Int} (large : Double.leastOverflow ≤ integer.natAbs) :
      Beyond .number (.int integer)
  | date {value : Value} (told : Coercion.namesNow value = false)
      (outside : value.toInstant = .error .outOfRange) : Beyond .date value

/-! ## Single values -/

theorem Coercion.outOfRange?_finite {double : Double} {error : CoercionError}
    (failed : finite double = .error error) : error.outOfRange? = none := by
  unfold finite at failed
  split at failed
  · cases failed
  · cases failed
    rfl

theorem Coercion.outOfRange?_number {error : CoercionError} (failed : number value = .error error)
    (within : ¬ FieldType.Beyond .number value) : error.outOfRange? = none := by
  unfold number at failed
  split at failed
  · cases failed
    rfl
  · next integer =>
      split at failed
      · exact outOfRange?_finite failed
      · next none => exact absurd (.number ((Double.ofInt?_eq_none_iff integer).mp none)) within
  · exact outOfRange?_finite failed
  · split at failed
    · exact outOfRange?_finite failed
    · cases failed
      rfl
  · cases failed
    rfl

theorem Coercion.outOfRange?_boolean {error : CoercionError}
    (failed : boolean value = .error error) : error.outOfRange? = none := by
  cases value with
  | bool truth => cases failed
  | text characters =>
      simp only [boolean] at failed
      split at failed
      · cases failed
      · split at failed <;> cases failed
        rfl
  | _ =>
      cases failed
      rfl

theorem Coercion.outOfRange?_date {error : CoercionError} (failed : date now value = .error error)
    (within : ¬ FieldType.Beyond .date value) : error.outOfRange? = none := by
  unfold date at failed
  split at failed
  · cases failed
  · next told =>
      split at failed
      · cases failed
      · next cause read =>
          cases failed
          cases cause with
          | outOfRange => exact absurd (.date (Bool.eq_false_iff.mpr told) read) within
          | _ => rfl

theorem FieldType.outOfRange?_of_coerce {error : CoercionError}
    (failed : type.coerce now value = .error error) (within : ¬ type.Beyond value) :
    error.outOfRange? = none := by
  cases type with
  | string => cases failed
  | text => cases failed
  | number =>
      cases read : Coercion.number value with
      | ok number =>
          rw [FieldType.coerce, read] at failed
          cases failed
      | error cause =>
          rw [FieldType.coerce, read] at failed
          cases failed
          exact Coercion.outOfRange?_number read within
  | boolean =>
      cases read : Coercion.boolean value with
      | ok truth =>
          rw [FieldType.coerce, read] at failed
          cases failed
      | error cause =>
          rw [FieldType.coerce, read] at failed
          cases failed
          exact Coercion.outOfRange?_boolean read
  | date =>
      cases read : Coercion.date now value with
      | ok stamp =>
          rw [FieldType.coerce, read] at failed
          cases failed
      | error cause =>
          rw [FieldType.coerce, read] at failed
          cases failed
          exact Coercion.outOfRange?_date read within

/-- The values beyond a type are those that are not taken for another reason than that they are of
no such type. -/
theorem FieldType.beyond_iff (now : Instant) : type.Beyond value ↔
    ∃ error, type.coerce now value = .error error ∧ error.outOfRange?.isSome = true := by
  constructor
  · intro beyond
    cases beyond with
    | @number integer large =>
        refine ⟨.integerTooLarge, ?_, rfl⟩
        rw [coerce, Coercion.number, (Double.ofInt?_eq_none_iff integer).mpr large]
        rfl
    | date told outside =>
        refine ⟨.timestamp .outOfRange, ?_, rfl⟩
        rw [coerce, Coercion.date, told, outside]
        rfl
  · rintro ⟨error, failed, escaped⟩
    by_contra within
    rw [outOfRange?_of_coerce failed within] at escaped
    cases escaped

/-! ## Payloads -/

namespace Validation

variable {mode : Mode} {entries : Entries} {field : Field} {fields : List Field}

theorem exists_coerced_iff {problem : Issue} :
    (∃ outcome, coerced now type value problem = .ok outcome) ↔ ¬ type.Beyond value := by
  rw [coerced, FieldType.beyond_iff now]
  cases type.coerce now value with
  | ok result => simp
  | error error => cases escaped : error.outOfRange? <;> simp [escaped]

/-- The value that the type of a field is asked to take when the payload leaves it open: the default
in a new record. -/
def preset? (mode : Mode) (field : Field) : Option Value :=
  match mode with
  | .create => field.default.map .text
  | .update => none

/-- The value that the type of a field is asked to take: the one that the payload has for it, if
that is not missing, and otherwise the default in a new record. -/
def asked? (mode : Mode) (entries : Entries) (field : Field) : Option Value :=
  match Entries.get? entries field.name with
  | some value => if value.isMissing then preset? mode field else some value
  | none => preset? mode field

theorem exists_filled_iff : (∃ outcome, filled now field = .ok outcome) ↔
    ∀ value, preset? .create field = some value → ¬ field.type.Beyond value := by
  rw [filled, preset?]
  cases field.default with
  | some default =>
      simp only [Option.map_some, Option.some.injEq, forall_eq']
      exact exists_coerced_iff
  | none =>
      simp only [Option.map_none, reduceCtorEq, false_implies, implies_true, iff_true]
      split
      · exact ⟨_, rfl⟩
      · split <;> exact ⟨_, rfl⟩

/-- A field has an outcome unless it asks for a value beyond its type. -/
theorem exists_fieldOutcome_iff : (∃ outcome, fieldOutcome now mode entries field = .ok outcome) ↔
    ∀ value, asked? mode entries field = some value → ¬ field.type.Beyond value := by
  unfold fieldOutcome asked?
  cases Entries.get? entries field.name with
  | none =>
      cases mode with
      | update => simp [preset?]
      | create => exact exists_filled_iff
  | some value =>
      cases missing : value.isMissing with
      | false =>
          simp only [missing, Bool.not_false, if_true, Bool.false_eq_true, if_false,
            Option.some.injEq, forall_eq']
          exact exists_coerced_iff
      | true =>
          simp only [missing, Bool.not_true, Bool.false_eq_true, if_false, if_true]
          cases mode with
          | update => simp [preset?]
          | create => exact exists_filled_iff

theorem exists_fieldOutcomes_iff :
    (∃ outcomes, fieldOutcomes now mode entries fields = .ok outcomes) ↔
      ∀ field ∈ fields, ∀ value, asked? mode entries field = some value →
        ¬ field.type.Beyond value := by
  induction fields with
  | nil => simp [fieldOutcomes]
  | cons field rest ih =>
      rw [fieldOutcomes, List.forall_mem_cons, ← ih, ← exists_fieldOutcome_iff]
      cases fieldOutcome now mode entries field with
      | error cause => simp [bind, Except.bind]
      | ok outcome =>
          cases fieldOutcomes now mode entries rest <;>
            simp [bind, Except.bind, pure, Except.pure]

theorem exists_validate_iff {definition : Definition} {payload : Value} :
    (∃ made, definition.validate now payload mode = .ok made) ↔
      ∀ entries, payload = .object entries → ∀ field ∈ definition.fields, ∀ value,
        asked? mode entries field = some value → ¬ field.type.Beyond value := by
  cases payload with
  | object entries =>
      simp only [Value.object.injEq, forall_eq']
      rw [← @exists_fieldOutcomes_iff now, validate_object]
      cases fieldOutcomes now mode entries definition.fields <;> simp [Except.map]
  | _ => simp [Definition.validate]

/-! ## Defaults -/

theorem exists_defaultProblem_iff {index : Nat} :
    (∃ issues, Definition.defaultProblem now index field = .ok issues) ↔
      ∀ default, field.default = some default → ¬ field.type.Beyond (.text default) := by
  rw [Definition.defaultProblem]
  cases field.default with
  | none => simp
  | some default =>
      simp only [Option.some.injEq, forall_eq']
      rw [FieldType.beyond_iff now]
      cases field.type.coerce now (.text default) with
      | ok result => simp
      | error error => cases escaped : error.outOfRange? <;> simp [escaped]

theorem exists_defaultProblemsFrom_iff {index : Nat} :
    (∃ issues, Definition.defaultProblemsFrom now index fields = .ok issues) ↔
      ∀ field ∈ fields, ∀ default, field.default = some default →
        ¬ field.type.Beyond (.text default) := by
  induction fields generalizing index with
  | nil => simp [Definition.defaultProblemsFrom]
  | cons field rest ih =>
      rw [Definition.defaultProblemsFrom, List.forall_mem_cons, ← @ih (index + 1),
        ← @exists_defaultProblem_iff now field index]
      cases Definition.defaultProblem now index field with
      | error cause => simp [bind, Except.bind]
      | ok first =>
          cases Definition.defaultProblemsFrom now (index + 1) rest <;>
            simp [bind, Except.bind, pure, Except.pure]

/-- **Validation ends with problems or with a record, exactly when no field asks for a value beyond
its type**, and the defaults of a definition are checked to the end exactly when none of them is
beyond the type of its field. -/
theorem answered_iff (definition : Definition) (now : Instant) :
    (∀ payload mode,
      ((∃ issues, issues ≠ [] ∧ definition.validate now payload mode = .ok (.invalid issues)) ∨
        ∃ record, definition.validate now payload mode = .ok (.valid record)) ↔
      ∀ entries, payload = .object entries → ∀ field ∈ definition.fields, ∀ value,
        asked? mode entries field = some value → ¬ field.type.Beyond value) ∧
    ((∃ issues, definition.defaultProblems now = .ok issues) ↔
      ∀ field ∈ definition.fields, ∀ default, field.default = some default →
        ¬ field.type.Beyond (.text default)) := by
  refine ⟨fun payload mode => ?_, exists_defaultProblemsFrom_iff⟩
  rw [← @exists_validate_iff now]
  constructor
  · rintro (⟨issues, -, made⟩ | ⟨record, made⟩)
    · exact ⟨_, made⟩
    · exact ⟨_, made⟩
  · rintro ⟨made, done⟩
    cases made with
    | invalid issues => exact .inl ⟨issues, ne_nil_of_validate done, done⟩
    | valid record => exact .inr ⟨record, done⟩

/-- Measurements have a size, and a day that without a word on it lies before the first in universal
time. -/
def measurement : Definition where
  name := "measurement"
  fields := [⟨"size", .number, false, false, none, none⟩,
    ⟨"day", .date, false, false, some "0001-01-01T00:00:00+01:00", none⟩]
  grants := .empty
  tableName := none
  ownerField := none
  createdAt := none
  updatedAt := none

/-- A document of measurements. -/
def measurementDocument : Value :=
  .ofFields [("name", "measurement"), ("fields", .list [
    .ofFields [("name", "size"), ("type", "number")],
    .ofFields [("name", "day"), ("type", "date"), ("default", "0001-01-01T00:00:00+01:00")]])]

/-- A size of 401 digits has no report, though its numeral with an exponent has; nor has the day. -/
theorem measurement_unreported :
    Definition.ofDocument measurementDocument = .ok measurement ∧
      measurement.validate ⟨0, by decide⟩ (.object [(.text "size", .int (Nat.pow 10 400))]) .update =
        .error .number ∧
      measurement.validate ⟨0, by decide⟩ (.object [(.text "size", .text "1e400")]) .update =
        .ok (.invalid [.withDetail "TYPE_MISMATCH" "size must be a number" "size"
          [("type", .text "number")]]) ∧
      measurement.validate ⟨0, by decide⟩ (.object []) .create = .error .instant ∧
      measurement.defaultProblems ⟨0, by decide⟩ = .error .instant := by
  have unreported : ∀ integer : Int, Double.ofInt? integer = none →
      measurement.validate ⟨0, by decide⟩ (.object [(.text "size", .int integer)]) .update =
        .error .number := by
    intro integer unlike
    have tooLarge : Coercion.number (.int integer) = .error .integerTooLarge := by
      rw [Coercion.number, unlike]
    have stopped : fieldOutcome ⟨0, by decide⟩ .update [(.text "size", .int integer)]
        ⟨"size", .number, false, false, none, none⟩ = .error .number := by
      rw [fieldOutcome_of_supplied rfl rfl, supplied, coerced, FieldType.coerce, tooLarge]
      rfl
    rw [validate_object, measurement, fieldOutcomes, stopped]
    rfl
  have large : Double.leastOverflow ≤ (Nat.pow 10 400 : Int).natAbs := by decide +kernel
  exact ⟨rfl, unreported _ ((Double.ofInt?_eq_none_iff _).mpr large), rfl, rfl, rfl⟩

end Validation

end GovernedRecords
