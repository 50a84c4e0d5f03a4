import GovernedRecords.Validation.Coercion

/-!
# Validation of record payloads

A payload is checked against a definition field by field.  A supplied value is coerced; a
missing one is filled from the default when a record is created, and clears the field
when one is updated.  Every field is visited and every problem reported, and the payload
yields values only when there is none.  Keys that are no field are dropped.

Uniqueness is not checked here: the names of the unique fields travel with the values.
-/

set_option autoImplicit false

namespace GovernedRecords

/-- Whether a payload creates a record or changes one. -/
inductive Mode where
  | create
  | update
  deriving DecidableEq

namespace Mode

/-- The modes in their order. -/
def all : List Mode := [.create, .update]

/-- The word for a mode. -/
def name : Mode → Text
  | .create => "create"
  | .update => "update"

/-- The mode a value names. -/
def ofValue? (value : Value) : Option Mode := all.find? fun each => value.isText each.name

end Mode

/-- The values of a valid payload, with the names of the fields that must be unique. -/
structure NormalizedRecord where
  values : Entries
  uniqueFields : List Text

/-- What validation makes of a payload. -/
inductive Validation where
  | invalid (errors : List Issue)
  | valid (record : NormalizedRecord)

namespace Validation

/-- What validation makes of one field. -/
inductive FieldOutcome where
  | absent
  | value (value : Value)
  | problem (issue : Issue)

/-- The outcome of a coercion: its value, or the given problem. -/
def coerced (now : Instant) (type : FieldType) (value : Value) (problem : Issue) :
    Except OutOfRange FieldOutcome :=
  match type.coerce now value with
  | .ok result => .ok (.value result)
  | .error error =>
    match error.outOfRange? with
    | some cause => .error cause
    | none => .ok (.problem problem)

/-- A field whose value is supplied. -/
def supplied (now : Instant) (field : Field) (value : Value) : Except OutOfRange FieldOutcome :=
  coerced now field.type value
    (.withDetail "TYPE_MISMATCH" (Text.concat [field.name, " must be ", field.type.expectation])
      field.name [("type", .text field.type.name)])

/-- A field that an update names without a value. -/
def cleared (field : Field) : FieldOutcome :=
  if field.required then
    .problem (.located "MISSING_REQUIRED"
      (Text.concat ["Required field cannot be cleared: ", field.name]) field.name)
  else .value .null

/-- A field that a new record leaves open. -/
def filled (now : Instant) (field : Field) : Except OutOfRange FieldOutcome :=
  match field.default with
  | some default =>
    coerced now field.type (.text default)
      (.located "INVALID_DEFAULT"
        (Text.concat ["default for ", field.name, " is not ", field.type.expectation]) field.name)
  | none =>
    if field.required then
      .ok (.problem (.located "MISSING_REQUIRED"
        (Text.concat ["Missing required field: ", field.name]) field.name))
    else if field.type = .date then .ok (.value (.text now.stamp))
    else .ok .absent

/-- The outcome of one field for the entries of a payload. -/
def fieldOutcome (now : Instant) (mode : Mode) (entries : Entries) (field : Field) :
    Except OutOfRange FieldOutcome :=
  match Entries.get? entries field.name with
  | some value =>
    if !value.isMissing then supplied now field value
    else
      match mode with
      | .update => .ok (cleared field)
      | .create => filled now field
  | none =>
    match mode with
    | .update => .ok .absent
    | .create => filled now field

/-- The outcomes of all fields, each with its field. -/
def fieldOutcomes (now : Instant) (mode : Mode) (entries : Entries) :
    List Field → Except OutOfRange (List (Field × FieldOutcome))
  | [] => .ok []
  | field :: rest => do
    let outcome ← fieldOutcome now mode entries field
    let others ← fieldOutcomes now mode entries rest
    return (field, outcome) :: others

/-- The problems among some outcomes. -/
def problems (outcomes : List (Field × FieldOutcome)) : List Issue :=
  outcomes.filterMap fun outcome =>
    match outcome.2 with
    | .problem issue => some issue
    | _ => none

/-- Some entries with the value of one field more, if its outcome is a value. -/
def putOutcome (entries : Entries) (outcome : Field × FieldOutcome) : Entries :=
  match outcome.2 with
  | .value value => Entries.put outcome.1.name value entries
  | _ => entries

/-- The values among some outcomes, under the names of their fields. -/
def values (outcomes : List (Field × FieldOutcome)) : Entries := outcomes.foldl putOutcome []

end Validation

/-- The problem of a payload that is no object. -/
def payloadNotObject : Issue :=
  ⟨"INVALID_PAYLOAD", "Record data must be an object", none, .null⟩

namespace Definition

/-- The names of the fields whose values are unique. -/
def uniqueFields (definition : Definition) : List Text :=
  (definition.fields.filter Field.unique).map Field.name

/-- Checks a payload at an instant. -/
def validate (definition : Definition) (now : Instant) (payload : Value) (mode : Mode) :
    Except OutOfRange Validation :=
  match payload with
  | .object entries => do
    let outcomes ← Validation.fieldOutcomes now mode entries definition.fields
    match Validation.problems outcomes with
    | [] => return .valid ⟨Validation.values outcomes, definition.uniqueFields⟩
    | problem :: others => return .invalid (problem :: others)
  | _ => .ok (.invalid [payloadNotObject])

end Definition

end GovernedRecords
