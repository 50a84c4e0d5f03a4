import GovernedRecords.Validation.Coercion

/-!
# Table statements

A model becomes one statement that creates its table: an identifier column, the owner
column where the owner field is not declared, a column for each field with its constraints
and default, and two columns of stamps.

Identifiers stand between double quotes and literals between single ones; a quote inside
is written twice.  A default is written as the value it coerces to, and a date default
that is the word for the current instant as a call.
-/

set_option autoImplicit false

namespace GovernedRecords

namespace Table

/-- The column type of a field type. -/
def columnType : FieldType → Text
  | .string => "text"
  | .text => "text"
  | .number => "double precision"
  | .boolean => "boolean"
  | .date => "timestamptz"

/-- A name between double quotes. -/
def quoteName (name : Text) : Text :=
  Text.concat ["\"", name.replace '"' ['"', '"'], "\""]

/-- A text between single quotes. -/
def quoteLiteral (text : Text) : Text :=
  Text.concat ["'", text.replace '\'' ['\'', '\''], "'"]

/-- Puts an underscore between a small letter or digit and a capital letter. -/
def breakWords : Text → Text
  | [] => []
  | [only] => [only]
  | first :: second :: rest =>
    if (first.isLowerLetter || first.isDigit) && second.isUpperLetter then
      first :: '_' :: breakWords (second :: rest)
    else first :: breakWords (second :: rest)

/-- A default as an expression, if the field has one. -/
def defaultExpression (now : Instant) (field : Field) : Except CoercionError (Option Text) :=
  match field.default with
  | none => .ok none
  | some default =>
    if field.type = .date && Coercion.isNow default then .ok (some "now()")
    else
      match field.type.coerce now (.text default) with
      | .error error => .error error
      | .ok value =>
        match field.type with
        | .boolean => .ok (some (if value.isTruthy then "true" else "false"))
        | .number => .ok (some value.inspected)
        | _ => .ok (some (quoteLiteral value.display))

/-- The column of a field. -/
def column (now : Instant) (field : Field) : Except CoercionError Text := do
  let default ← defaultExpression now field
  return Text.join " " (List.flatten [[quoteName field.name, columnType field.type],
    if field.required then ["not null"] else [],
    if field.unique then ["unique"] else [],
    (default.map fun expression => Text.concat ["default ", expression]).toList])

/-- The columns of some fields. -/
def columns (now : Instant) : List Field → Except CoercionError (List Text)
  | [] => .ok []
  | field :: rest => do
    let first ← column now field
    let others ← columns now rest
    return first :: others

end Table

namespace Definition

/-- The name of the table: the one that is set, or the model's name in small letters with
an underscore between its words. -/
def tableText (definition : Definition) : Text :=
  match definition.tableName.filter fun name => !name.isEmpty with
  | some name => name
  | none => (Table.breakWords definition.name).lower

/-- The column for an owner field that is not declared. -/
def ownerColumn (definition : Definition) : List Text :=
  match definition.owner? with
  | none => []
  | some owner =>
    if (definition.field? owner).isSome then []
    else [Text.concat [Table.quoteName owner, " text not null"]]

/-- The statement that creates the table of a model. -/
def tableStatement (definition : Definition) (now : Instant) : Except CoercionError Text := do
  let declared ← Table.columns now definition.fields
  let columns : List Text := List.flatten [["\"id\" text primary key"],
    definition.ownerColumn, declared,
    ["\"created_at\" timestamptz not null default now()",
      "\"updated_at\" timestamptz not null default now()"]]
  return Text.concat ["create table if not exists ", Table.quoteName definition.tableText,
    " (\n  ", Text.join ",\n  " columns, "\n);\n"]

end Definition

end GovernedRecords
