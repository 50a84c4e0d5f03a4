import GovernedRecords.Validation.Coercion

/-!
# The check before a definition is saved

A definition that reads well may still break a rule: its name is an identifier, it has a
field, no field name occurs twice or belongs to the record store, and the owner field is
declared or one of the identity columns.  Besides, every default can be coerced to the
type of its field.
-/

set_option autoImplicit false

namespace GovernedRecords

namespace Definition

/-- The problem of a name that is no identifier. -/
def nameProblems (definition : Definition) : List Issue :=
  if definition.name.isModelName then []
  else
    [.withDetail "MODEL_NAME_INVALID" "name must be an identifier" "name"
      [("name", .text definition.name)]]

/-- The path of the name of a field with an index. -/
def fieldNamePath (index : Nat) : Text := Text.concat ["fields[", Text.ofNat index, "].name"]

/-- The problems of field names, after those seen before; the first has an index. -/
def fieldNameProblems (seen : List Text) : Nat → List Field → List Issue
  | _, [] => []
  | index, field :: rest =>
    let duplicate : List Issue :=
      if seen.contains field.name then
        [.located "FIELD_NAME_DUPLICATE" (Text.concat ["duplicate field name: ", field.name])
          (fieldNamePath index)]
      else []
    let reserved : List Issue :=
      if systemKeys.contains field.name then
        [.located "FIELD_NAME_RESERVED"
          (Text.concat [field.name, " is assigned by the record store"]) (fieldNamePath index)]
      else []
    duplicate ++ reserved ++ fieldNameProblems (field.name :: seen) (index + 1) rest

/-- The problem of an owner field that is neither declared nor an identity column. -/
def ownerProblems (definition : Definition) : List Issue :=
  match definition.owner? with
  | none => []
  | some owner =>
    if definition.fieldNames.contains owner || identityColumns.contains owner then []
    else
      [.withDetail "OWNER_FIELD_UNKNOWN"
        "ownerField must name a declared field or a reserved identity column" "ownerField"
        [("ownerField", .text owner), ("reserved", Value.ofTexts identityColumns)]]

/-- The broken rules of a definition. -/
def structuralProblems (definition : Definition) : List Issue :=
  definition.nameProblems
    ++ (if definition.fields.isEmpty then
          [.located "FIELDS_EMPTY" "at least one field is required" "fields"]
        else [])
    ++ fieldNameProblems [] 0 definition.fields
    ++ definition.ownerProblems

/-- The problem of one default, if it has one. -/
def defaultProblem (now : Instant) (index : Nat) (field : Field) :
    Except OutOfRange (List Issue) :=
  match field.default with
  | none => .ok []
  | some default =>
    match field.type.coerce now (.text default) with
    | .ok _ => .ok []
    | .error error =>
      match error.outOfRange? with
      | some cause => .error cause
      | none =>
        .ok [.withDetail "INVALID_DEFAULT"
          (Text.concat ["default for ", field.name, " is not ", field.type.expectation])
          (Text.concat ["fields[", Text.ofNat index, "].default"])
          [("error", .text error.message)]]

/-- The problems of the defaults of some fields, the first of which has an index. -/
def defaultProblemsFrom (now : Instant) : Nat → List Field → Except OutOfRange (List Issue)
  | _, [] => .ok []
  | index, field :: rest => do
    let first ← defaultProblem now index field
    let others ← defaultProblemsFrom now (index + 1) rest
    return first ++ others

/-- The problems of the defaults of a definition. -/
def defaultProblems (definition : Definition) (now : Instant) : Except OutOfRange (List Issue) :=
  defaultProblemsFrom now 0 definition.fields

/-- All problems of a definition. -/
def problems (definition : Definition) (now : Instant) : Except OutOfRange (List Issue) :=
  (definition.defaultProblems now).map (definition.structuralProblems ++ ·)

end Definition

end GovernedRecords
