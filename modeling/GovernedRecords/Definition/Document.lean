import GovernedRecords.Definition.Basic
import GovernedRecords.Definition.Timestamp
import GovernedRecords.Issue
import GovernedRecords.Value.Display

/-!
# Definitions as documents

A definition is stored as a document, an object with a name, a list of fields, an object
of grants, and some optional entries.  Reading a document reports every problem it finds,
in the order of the document's parts; entries it does not know are passed over.  Writing
leaves out what is not set and lists roles and actions in their own order.

A stamp that is no timestamp is one more problem, but a stamp beyond the representable
years ends the reading.  So does an integer without a text that stands for a default, and a key
without one among the grants.
-/

set_option autoImplicit false

namespace GovernedRecords

/-- A quantity beyond what can be represented: an instant outside the years 1 to 9999, or
an integer beyond the greatest double. -/
inductive OutOfRange where
  | instant
  | number
  deriving DecidableEq

/-- A part read from a document together with the problems found on the way. -/
abbrev Reading (α : Type) := List Issue × α

/-- Why a document is not a definition. -/
inductive DocumentError where
  | issues (problems : List Issue)
  | outOfRange (cause : OutOfRange)
  /-- A default, or a key among the grants, has no text. -/
  | text (error : TextError)

namespace Document

/-- A choice of words as a quoted list. -/
def choices (names : List Text) : Text := (Value.ofTexts names).inspected

/-- An optional text; the empty text counts as absent. -/
def readText (entries : Entries) (key path : Text) : Reading (Option Text) :=
  match Entries.get entries key with
  | .null => ([], none)
  | .text characters => ([], if characters.isEmpty then none else some characters)
  | _ => ([.located "DEFINITION_TYPE" (Text.concat [key, " must be a string"]) path], none)

/-- An optional truth value; null counts as false. -/
def readFlag (entries : Entries) (key path : Text) : Reading Bool :=
  match Entries.get entries key with
  | .null => ([], false)
  | .bool truth => ([], truth)
  | _ => ([.located "DEFINITION_TYPE" (Text.concat [key, " must be a boolean"]) path], false)

/-- A default, which is stored as text: truth values and numbers become their text. -/
def readDefault (entries : Entries) (path : Text) : Except TextError (Reading (Option Text)) :=
  match Entries.get entries "default" with
  | .null => .ok ([], none)
  | .text characters => .ok ([], some characters)
  | .bool truth => .ok ([], some (if truth then "true" else "false"))
  | .int integer => (Numeral.ofInt integer).map fun numeral => ([], some numeral)
  | .float number => .ok ([], some number.toText)
  | _ => .ok ([.located "DEFINITION_TYPE" "default must be a string" path], none)

/-- The path of a part of a field. -/
def fieldPart (path part : Text) : Text := Text.concat [path, ".", part]

/-- One field.  Without a name or a known type there is no field, and its other parts are
not looked at. -/
def readField (value : Value) (path : Text) : Except TextError (Reading (Option Field)) :=
  match value with
  | .object entries =>
    match Entries.get entries "name" with
    | .text name =>
      if name.isBlank then
        .ok ([.located "FIELD_NAME_REQUIRED" "field name must be a non-empty string"
          (fieldPart path "name")], none)
      else
        match FieldType.ofValue? (Entries.get entries "type") with
        | none =>
          .ok ([.withDetail "FIELD_TYPE_UNKNOWN"
            (Text.concat ["field type must be one of ", choices (FieldType.all.map FieldType.name)])
            (fieldPart path "type") [("type", Entries.get entries "type")]], none)
        | some type => do
          let (defaultIssues, default) ← readDefault entries (fieldPart path "default")
          let (requiredIssues, required) := readFlag entries "required" (fieldPart path "required")
          let (uniqueIssues, unique) := readFlag entries "unique" (fieldPart path "unique")
          let (relationIssues, relation) := readText entries "relation" (fieldPart path "relation")
          return (defaultIssues ++ requiredIssues ++ uniqueIssues ++ relationIssues,
            some ⟨name, type, required, unique, default, relation⟩)
    | _ =>
      .ok ([.located "FIELD_NAME_REQUIRED" "field name must be a non-empty string"
        (fieldPart path "name")], none)
  | _ => .ok ([.located "DEFINITION_TYPE" "field must be an object" path], none)

/-- The fields of a list, the first of which has an index. -/
def readFieldsFrom : Nat → List Value → Except TextError (Reading (List Field))
  | _, [] => .ok ([], [])
  | index, first :: rest => do
    let (issues, field) ← readField first (Text.concat ["fields[", Text.ofNat index, "]"])
    let (others, fields) ← readFieldsFrom (index + 1) rest
    return (issues ++ others, field.toList ++ fields)

/-- The fields of a document. -/
def readFields : Value → Except TextError (Reading (List Field))
  | .list items => readFieldsFrom 0 items
  | _ => .ok ([.located "DEFINITION_TYPE" "fields must be a list" "fields"], [])

/-- The actions of a list, the first of which has an index. -/
def readActionsFrom (path : Text) : Nat → List Value → Reading ActionSet
  | _, [] => ([], ActionSet.empty)
  | index, first :: rest =>
    let (others, actions) := readActionsFrom path (index + 1) rest
    match Action.ofValue? first with
    | some action => (others, actions.insert action)
    | none =>
      (.withDetail "RBAC_ACTION_UNKNOWN"
        (Text.concat ["action must be one of ", choices (Action.all.map Action.name)])
        (Text.concat [path, "[", Text.ofNat index, "]"]) [("action", first)] :: others, actions)

/-- The items of a list or a tuple. -/
def sequence? : Value → Option (List Value)
  | .list items => some items
  | .tuple items => some items
  | _ => none

/-- The grants of some entries, put after those already read.  A key that is no role is named in
what is reported, so it has to have a text. -/
def readGrantsFrom [Host] : Grants → List (Value × Value) → Except TextError (Reading Grants)
  | grants, [] => .ok ([], grants)
  | grants, (key, value) :: rest =>
    match Role.ofValue? key with
    | none => do
      let name ← key.toText
      let (others, grants) ← readGrantsFrom grants rest
      return (.withDetail "RBAC_ROLE_UNKNOWN"
        (Text.concat ["role must be one of ", choices (Role.all.map Role.name)])
        (Text.concat ["rbac.", name]) [("role", key)] :: others, grants)
    | some role =>
      let path := Text.concat ["rbac.", role.name]
      match sequence? value with
      | none => do
        let (others, grants) ← readGrantsFrom grants rest
        return (.located "DEFINITION_TYPE" "rbac actions must be a list" path :: others, grants)
      | some items => do
        let (issues, actions) := readActionsFrom path 0 items
        let (others, grants) ← readGrantsFrom (grants.put role actions) rest
        return (issues ++ others, grants)

/-- The grants of a document. -/
def readGrants [Host] : Value → Except TextError (Reading Grants)
  | .null => .ok ([], Grants.empty)
  | .object entries => readGrantsFrom Grants.empty entries
  | _ => .ok ([.located "DEFINITION_TYPE" "rbac must be an object" "rbac"], Grants.empty)

/-- A stamp of a document. -/
def readStamp (entries : Entries) (key : Text) : Except OutOfRange (Reading (Option Instant)) :=
  match Entries.get entries key with
  | .null => .ok ([], none)
  | value =>
    match value.toInstant with
    | .ok instant => .ok ([], some instant)
    | .error .outOfRange => .error .instant
    | .error _ =>
      .ok ([.located "DEFINITION_TYPE" (Text.concat [key, " must be an ISO-8601 timestamp"]) key],
        none)

/-- The name of a model; without one there is an empty name. -/
def readName (entries : Entries) : Reading Text :=
  let missing := Issue.located "MODEL_NAME_REQUIRED" "name must be a non-empty string" "name"
  match Entries.get entries "name" with
  | .text name => if name.isBlank then ([missing], []) else ([], name)
  | _ => ([missing], [])

/-- The parts of a document, with every problem found. -/
def readParts [Host] (entries : Entries) : Except DocumentError (Reading Definition) := do
  let (nameIssues, name) := readName entries
  let (fieldIssues, fields) ← (readFields (Entries.get entries "fields")).mapError .text
  let (grantIssues, grants) ← (readGrants (Entries.get entries "rbac")).mapError .text
  let (tableIssues, tableName) := readText entries "tableName" "tableName"
  let (ownerIssues, ownerField) := readText entries "ownerField" "ownerField"
  let (createdIssues, createdAt) ← (readStamp entries "createdAt").mapError .outOfRange
  let (updatedIssues, updatedAt) ← (readStamp entries "updatedAt").mapError .outOfRange
  return (nameIssues ++ fieldIssues ++ grantIssues ++ tableIssues ++ ownerIssues ++ createdIssues
      ++ updatedIssues,
    ⟨name, fields, grants, tableName, ownerField, createdAt, updatedAt⟩)

end Document

namespace Definition

/-- The definition of a document. -/
def ofDocument [Host] : Value → Except DocumentError Definition
  | .object entries =>
    match Document.readParts entries with
    | .error error => .error error
    | .ok ([], definition) => .ok definition
    | .ok (issue :: issues, _) => .error (.issues (issue :: issues))
  | _ => .error (.issues [.located "DEFINITION_TYPE" "definition must be an object" "$"])

end Definition

namespace Document

/-- An entry that is written only when it is set. -/
def optional (key : Text) (value : Option Value) : List (Text × Value) :=
  match value with
  | some value => [(key, value)]
  | none => []

/-- A flag that is written only when it is true. -/
def flag (key : Text) (truth : Bool) : List (Text × Value) :=
  if truth then [(key, .bool true)] else []

/-- The document of a field. -/
def ofField (field : Field) : Value :=
  .ofFields (List.flatten [[("name", .text field.name), ("type", .text field.type.name)],
    flag "required" field.required, flag "unique" field.unique,
    optional "default" (field.default.map .text),
    optional "relation" (field.relation.map .text)])

/-- The document of the grants. -/
def ofGrants (grants : Grants) : Value :=
  .ofFields (Role.all.filterMap fun role =>
    (grants.get? role).map fun actions =>
      (role.name, Value.ofTexts (actions.toList.map Action.name)))

/-- A text that is set and not empty. -/
def nonEmpty (text : Option Text) : Option Value :=
  (text.filter fun characters => !characters.isEmpty).map .text

end Document

namespace Definition

/-- The entries of the document of a definition. -/
def documentFields (definition : Definition) : List (Text × Value) :=
  List.flatten [[("name", .text definition.name)],
    Document.optional "tableName" (Document.nonEmpty definition.tableName),
    [("fields", .list (definition.fields.map Document.ofField))],
    Document.optional "ownerField" (Document.nonEmpty definition.ownerField),
    [("rbac", Document.ofGrants definition.grants)],
    Document.optional "createdAt" (definition.createdAt.map fun instant => .text instant.stamp),
    Document.optional "updatedAt" (definition.updatedAt.map fun instant => .text instant.stamp)]

/-- The document of a definition. -/
def toDocument (definition : Definition) : Value := .ofFields definition.documentFields

end Definition

end GovernedRecords
