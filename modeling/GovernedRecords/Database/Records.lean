import GovernedRecords.Database.Basic
import GovernedRecords.Database.Column
import GovernedRecords.Store.Calls

/-!
# Records in the database

A record is inserted or updated only after each of its unique values was looked for among the
other records of the model and not found; a value that is found is refused, and the transaction
rolls back.

What identifies a record, its values and the names of its unique fields may be values of
any kind: the server decides what it makes of its parameters.

A row becomes a record by its document with the id and the two stamps over it.
-/

set_option autoImplicit false

namespace GovernedRecords

namespace Database

variable [Host]

/-- The record of a row. -/
def storedRecord (row : Entries) : Except Fault Entries := do
  let document ← Column.decode (← Column.require row "data")
  let document ← (if document.isTruthy then document else .null).copy
  let id ← Column.require row "record_id"
  let entries ← Column.entries document
  let createdAt ← Column.stamped (Entries.get row "created_at")
  let updatedAt ← Column.stamped (Entries.get row "updated_at")
  return Entries.put "updatedAt" updatedAt
    (Entries.put "createdAt" createdAt (Entries.put "id" id entries))

/-- The record of a row that has to be there. -/
def writtenRecord (row : Option Entries) : Except Fault Entries :=
  match row with
  | some row => storedRecord row
  | none => .error .unsupportedOperand

/-- The value of a field among some values; a field that is no text has none. -/
def valueOf (values field : Value) : Except Fault Value :=
  match values with
  | .object entries => field.asKey.map fun name => (name.map (Entries.get entries)).getD .null
  | _ => .error .missingOperation

/-- Looks for another record of a model that has some values. -/
def uniquenessQuery : Text :=
  Text.concat ["select record_id from model_records ",
    "where model=%s and data @> %s::jsonb and record_id <> %s limit 1"]

/-- Refuses the first of some fields whose value another record has; null is not looked
for. -/
def requireUnique (model values except : Value) : List Value → Operation Database Unit
  | [] => return ()
  | field :: rest => do
    let value ← .ofExcept (valueOf values field)
    if value.isNull then requireUnique model values except rest
    else
      let wanted ← .ofExcept (Column.encode (.object [(field, value)]))
      let other ← fetchOne (some "model_records.unique_check") uniquenessQuery
        (.list [model, wanted, except])
      match other with
      | some _ => .refuse (.notUnique (← .ofExcept (field.toText.mapError .ofText)))
      | none => requireUnique model values except rest

/-- A new record id, and the database after it was drawn. -/
def drawId (database : Database) : Value × Database :=
  (.text (Text.concat ["rec-", Text.ofNat (database.ids + 1)]),
    { database with ids := database.ids + 1 })

/-- Inserts a record. -/
def recordInsert : Text :=
  Text.concat ["insert into model_records (model, record_id, data, created_at, updated_at) ",
    "values (%s,%s,%s,%s,%s) returning record_id, data, created_at, updated_at"]

/-- Adds a record under an id. -/
def createRecord (now : Instant) (model id values unique : Value) : Task Entries where
  Found := Option Entries
  work := do
    requireUnique model values "" (← .ofExcept unique.membersOrNone)
    let encoded ← .ofExcept (Column.encode values)
    fetchOne (some "model_records.insert") recordInsert
      (.list [model, id, encoded, .text now.stamp, .text now.stamp])
  read := writtenRecord

/-- The record with an id, if there is one. -/
def getRecord (model id : Value) : Task (Option Entries) where
  Found := Option Entries
  work := fetchOne (some "model_records.get")
    (Text.concat ["select record_id, data, created_at, updated_at from model_records ",
      "where model=%s and record_id=%s"])
    (.list [model, id])
  read := ifFound storedRecord

/-- The records of a model, by their stamps of creation and then by id. -/
def listRecords (model : Value) : Task (List Entries) where
  Found := List Entries
  work := fetchAll (some "model_records.list")
    (Text.concat ["select record_id, data, created_at, updated_at from model_records ",
      "where model=%s order by created_at asc, record_id asc"])
    (.list [model])
  read rows := rows.mapM storedRecord

/-- The values of a record after some changes. -/
def changedValues (row : Entries) (changes : Value) : Except Fault Entries := do
  let existing ← Column.entries (← Column.decode (← Column.require row "data"))
  match changes with
  | .object entries => return Entries.merge existing entries
  | _ => .error .unsupportedOperand

/-- Updates a record. -/
def recordUpdate : Text :=
  Text.concat ["update model_records set data=%s, updated_at=%s ",
    "where model=%s and record_id=%s returning record_id, data, created_at, updated_at"]

/-- Changes some values of a record. -/
def updateRecord (now : Instant) (model id changes unique : Value) : Task Entries where
  Found := Option Entries
  work := do
    let existing ← fetchOne (some "model_records.get_for_update")
      "select data from model_records where model=%s and record_id=%s for update"
      (.list [model, id])
    match existing with
    | none => .fail .noRecord
    | some existing =>
      let values := Value.object (← .ofExcept (changedValues existing changes))
      requireUnique model values (if id.isTruthy then id else "")
        (← .ofExcept unique.membersOrNone)
      let encoded ← .ofExcept (Column.encode values)
      fetchOne (some "model_records.update") recordUpdate
        (.list [encoded, .text now.stamp, model, id])
  read := writtenRecord

/-- Removes a record; whether there was one. -/
def deleteRecord (model id : Value) : Task Bool where
  Found := Value
  work := run (some "model_records.delete")
    "delete from model_records where model=%s and record_id=%s" (.list [model, id])
  read := wasTouched

/-- The value of a field of a record; none when there is no record. -/
def fetchOwner (model id field : Value) : Task (Option Value) where
  Found := Option Entries
  work := fetchOne (some "model_records.fetch_owner")
    "select data->%s as owner from model_records where model=%s and record_id=%s"
    (.list [field, model, id])
  read := ifFound fun row => Column.require row "owner"

/-- The task of a request at an instant, under an id if it is a new record. -/
def recordTask (now : Instant) (id : Value) : StoreRequest → Task Value
  | .create model values unique => (createRecord now model id values unique).map .object
  | .get model id => (getRecord model id).map RecordCalls.recordValue
  | .list model => (listRecords model).map fun found => .list (found.map .object)
  | .update model id changes unique => (updateRecord now model id changes unique).map .object
  | .delete model id => (deleteRecord model id).map .bool
  | .fetchOwner model id field => (fetchOwner model id field).map RecordStore.ownerValue

/-- The id under which a request adds a record, null for any other request, and the database after
it was drawn. -/
def drawFor (request : StoreRequest) (database : Database) : Value × Database :=
  match request with
  | .create .. => database.drawId
  | _ => (.null, database)

/-- Does what is requested of the store of records. -/
def performRecord (now : Instant) (request : StoreRequest) : Operation Database Value := do
  (recordTask now (← .step (drawFor request)) request).perform

/-- The store of records in the database, at an instant. -/
def records (now : Instant) : RecordStore Database where
  create model values unique :=
    performRecord now (.create (.text model) (.object values) (.ofTexts unique))
  get model id := performRecord now (.get (.text model) id)
  list model := performRecord now (.list (.text model))
  update model id changes unique :=
    performRecord now (.update (.text model) id (.object changes) (.ofTexts unique))
  delete model id := performRecord now (.delete (.text model) id)
  fetchOwner model id field := performRecord now (.fetchOwner (.text model) id (.text field))

end Database

end GovernedRecords
