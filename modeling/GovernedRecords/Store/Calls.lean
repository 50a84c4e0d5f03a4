import GovernedRecords.Store.Observed
import GovernedRecords.Value.Display
import GovernedRecords.Value.Members

/-!
# Record stores under any arguments

A record store may be called with values of any kind in the place of names, ids and
records, and by the name of a method with a list of arguments, of which the unique fields
may be left out.  In memory a model goes by the text of its name.  The unique fields are the
members of a value, and only a text can be the name of a field that a record has; a value
that may not be a key ends the search among them where it stands.
-/

set_option autoImplicit false

namespace GovernedRecords

/-- What is requested of a record store, with values of any kind. -/
inductive StoreRequest where
  | create (model values unique : Value)
  | get (model id : Value)
  | list (model : Value)
  | update (model id changes unique : Value)
  | delete (model id : Value)
  | fetchOwner (model id field : Value)

namespace StoreRequest

/-- The request for a method with some arguments, whose number has to be right. -/
def ofArguments? (method : RecordMethod) (arguments : List Value) : Option StoreRequest :=
  match method, arguments with
  | .create, [model, values] => some (.create model values .null)
  | .create, [model, values, unique] => some (.create model values unique)
  | .get, [model, id] => some (.get model id)
  | .list, [model] => some (.list model)
  | .update, [model, id, changes] => some (.update model id changes .null)
  | .update, [model, id, changes, unique] => some (.update model id changes unique)
  | .delete, [model, id] => some (.delete model id)
  | .fetchOwner, [model, id, field] => some (.fetchOwner model id field)
  | _, _ => none

end StoreRequest

/-- The operations of a record store, on values of any kind. -/
structure RecordCalls (σ : Type) where
  /-- Adds a record of a model, with its values and its unique fields. -/
  create : Value → Value → Value → Operation σ Entries
  /-- The record of a model with an id, if there is one. -/
  get : Value → Value → Operation σ (Option Entries)
  /-- The records of a model. -/
  list : Value → Operation σ (List Entries)
  /-- Changes a record of a model with an id, by some values, with its unique fields. -/
  update : Value → Value → Value → Value → Operation σ Entries
  /-- Removes the record of a model with an id; whether there was one. -/
  delete : Value → Value → Operation σ Bool
  /-- The value that the record of a model with an id has under a field. -/
  fetchOwner : Value → Value → Value → Operation σ (Option Value)

namespace RecordCalls

variable {σ : Type}

/-- The value that shows a record, null for none. -/
def recordValue (record : Option Entries) : Value := (record.map Value.object).getD .null

/-- Does what is requested. -/
def perform (calls : RecordCalls σ) : StoreRequest → Operation σ Value
  | .create model values unique => .object <$> calls.create model values unique
  | .get model id => recordValue <$> calls.get model id
  | .list model => (fun found => .list (found.map .object)) <$> calls.list model
  | .update model id changes unique => .object <$> calls.update model id changes unique
  | .delete model id => .bool <$> calls.delete model id
  | .fetchOwner model id field => RecordStore.ownerValue <$> calls.fetchOwner model id field

/-- Calls a method with some arguments, whose number has to be right. -/
def call (calls : RecordCalls σ) (method : RecordMethod) (arguments : List Value) :
    Operation σ Value :=
  match StoreRequest.ofArguments? method arguments with
  | some request => calls.perform request
  | none => .fail .unsupportedOperand

end RecordCalls

namespace MemoryRecords

variable [Host]

/-- The text by which a model goes. -/
def modelText (model : Value) : Except Fault Text :=
  model.asKey.map fun _ => model.nameText

/-- The texts among some members, up to the first that may not be a key, and whether there
is such a one. -/
def fieldNames : List Value → List Text × Bool
  | [] => ([], false)
  | first :: rest =>
    match first.asKey with
    | .error _ => ([], true)
    | .ok name => ((name.toList ++ (fieldNames rest).1), (fieldNames rest).2)

/-- Refuses values that another record has under some members, and then a member that may
not be a key. -/
def requireKeys (records : MemoryRecords) (model : Text) (values : Entries)
    (members : List Value) (except : Option Text) : Except Fault (List Text) := do
  let (names, stuck) := fieldNames members
  records.requireFree model values names except
  if stuck then .error .unhashable else return names

/-- The names of the unique fields for a new record, whose values are free.  Only an object
has values under fields, and only for such a value is the model looked for. -/
def freeNames (records : MemoryRecords) (model values : Value) (members : List Value) :
    Except Fault (List Text) :=
  match values, modelText model with
  | .object entries, .ok name => records.requireKeys name entries members none
  | .object entries, .error fault =>
    let (names, stuck) := fieldNames members
    if stuck || names.any fun name => !(Entries.get entries name).isNull then .error fault
    else .ok names
  | _, _ => if members.isEmpty then .ok [] else .error .missingOperation

/-- Takes an id for a record that is not added after all. -/
def skipId (records : MemoryRecords) : MemoryRecords :=
  { records with created := records.created + 1 }

/-- Adds a record with values of any kind.  Values that turn out to be no record, and a
model that turns out to be none, have taken an id by then. -/
def createFrom (now : Instant) (model values unique : Value) (records : MemoryRecords) :
    Except Fault Entries × MemoryRecords :=
  let checked : Except Fault (List Text × Value) := do
    let members ← unique.membersOrNone
    let names ← records.freeNames model values members
    return (names, ← values.copy)
  match checked with
  | .error fault => (.error fault, records)
  | .ok (names, .object entries) =>
    match modelText model with
    | .ok name => create now name entries names records
    | .error fault => (.error fault, records.skipId)
  | .ok _ => (.error .unsupportedOperand, records.skipId)

/-- The names of the unique fields for a change of a record, which has to be there. -/
def changeNames (model : Text) (id changes unique : Value) (records : MemoryRecords) :
    Except Fault (Entries × List Text) := do
  match ← records.record? model id with
  | none => .error .noRecord
  | some existing =>
    match ← changes.copy with
    | .object entries =>
      let members ← unique.membersOrNone
      return (entries,
        ← records.requireKeys model (Entries.merge existing entries) members id.asText?)
    | _ => .error .unsupportedOperand

/-- Changes a record by values of any kind. -/
def updateFrom (now : Instant) (model id changes unique : Value) (records : MemoryRecords) :
    Except Fault Entries × MemoryRecords :=
  match (do
    let name ← modelText model
    return (name, ← changeNames name id changes unique records)) with
  | .error fault => (.error fault, records)
  | .ok (name, entries, names) => update now name id entries names records

/-- The value that a record has under a field. -/
def ownerFrom (model id field : Value) (records : MemoryRecords) :
    Except Fault (Option Value) := do
  match ← records.record? (← modelText model) id with
  | none => return none
  | some entries =>
    match ← field.asKey with
    | some name => return some (Entries.get entries name)
    | none => return some .null

/-- The calls of the store in memory at an instant. -/
def calls (now : Instant) : RecordCalls MemoryRecords where
  create model values unique := .of (createFrom now model values unique)
  get model id := .of fun records =>
    ((modelText model).bind fun name => records.record? name id, records)
  list model := .of fun records => ((modelText model).map records.list, records)
  update model id changes unique := .of (updateFrom now model id changes unique)
  delete model id := do .of (delete (← .ofExcept (modelText model)) id)
  fetchOwner model id field := .of fun records => (ownerFrom model id field records, records)

end MemoryRecords

end GovernedRecords
