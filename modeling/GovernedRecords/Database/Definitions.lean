import GovernedRecords.Database.Basic
import GovernedRecords.Database.Column
import GovernedRecords.Store.Definitions

/-!
# Definitions in the database

A document is written with its content hash and the instant of the change; what is read is
interpreted after the transaction has ended.
-/

set_option autoImplicit false

namespace GovernedRecords

namespace Database

variable [Host]

/-- The document of a row, which is an object. -/
def storedDefinition (name : Value) (row : Entries) : Except Fault Value :=
  match Column.require row "document" with
  | .error fault => .error fault
  | .ok column =>
    match Column.decode column with
    | .ok (.object entries) => .ok (.object entries)
    | .ok _ =>
      match name.toText with
      | .ok place => .error (.notObject place)
      | .error error => .error (.ofText error)
    | .error fault => .error fault

/-- The document under a name, if there is one. -/
def readDefinition (name : Value) : Task (Option Value) where
  Found := Option Entries
  work := fetchOne (some "model_definitions.get")
    "select document from model_definitions where name=%s" (.list [name])
  read := ifFound (storedDefinition name)

/-- Puts a document under a name. -/
def writeDefinition (now : Instant) (name document : Value) : Task Unit where
  Found := Value
  work := do
    let encoded ← .ofExcept (Column.encode document)
    let hash ← .ofExcept ((contentHash document).mapError Fault.ofHash)
    run (some "model_definitions.upsert")
      (Text.concat ["insert into model_definitions (name, document, definition_hash, updated_at) ",
        "values (%s,%s,%s,%s) on conflict (name) do update ",
        "set document = excluded.document, definition_hash = excluded.definition_hash, ",
        "updated_at = excluded.updated_at"])
      (.list [name, encoded, .text hash, .text now.stamp])
  read _ := .ok ()

/-- Removes the document under a name; whether there was one. -/
def deleteDefinition (name : Value) : Task Bool where
  Found := Value
  work := run (some "model_definitions.delete") "delete from model_definitions where name=%s"
    (.list [name])
  read := wasTouched

/-- The names that have a document. -/
def definitionNames : Task (List Value) where
  Found := List Entries
  work := fetchAll (some "model_definitions.list")
    "select name from model_definitions order by name" .null
  read rows := rows.mapM fun row => Column.require row "name"

/-- The store of definitions in the database. -/
def definitions : DefinitionStore Database where
  read name := (readDefinition (.text name)).perform
  write now name document := (writeDefinition now (.text name) document).perform
  delete name := (deleteDefinition (.text name)).perform
  names := return (← definitionNames.perform).filterMap Value.asText?

end Database

end GovernedRecords
