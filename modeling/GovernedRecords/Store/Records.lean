import GovernedRecords.Keyed
import GovernedRecords.Operation
import GovernedRecords.Text.Order
import GovernedRecords.Value.Copy
import GovernedRecords.Value.Equality

/-!
# Record stores

A record store keeps the records of every model under ids.  It is a state together with
six operations.  The store in memory numbers the records it creates; a record carries its
id and two stamps among its values, and those of a caller under the same keys give way.

A value of a unique field that is not null may occur once among the records of a model.
-/

set_option autoImplicit false

namespace GovernedRecords

variable [Host]

/-- Records of models under ids, as operations on a state.  Every operation answers with a
value; a record is shown as an object. -/
structure RecordStore (σ : Type) where
  /-- Adds a record with some values, of which those of some fields are unique, and answers
  with the record. -/
  create : Text → Entries → List Text → Operation σ Value
  /-- The record with an id, null when there is none. -/
  get : Text → Value → Operation σ Value
  /-- The list of the records of a model. -/
  list : Text → Operation σ Value
  /-- Changes some values of a record, and answers with the record. -/
  update : Text → Value → Entries → List Text → Operation σ Value
  /-- Removes a record; whether there was one. -/
  delete : Text → Value → Operation σ Value
  /-- Whether there is a record, and the value of a field of it, which is null when the
  record does not have it. -/
  fetchOwner : Text → Value → Text → Operation σ Value

namespace RecordStore

variable {σ τ : Type}

/-- The store on a part of a larger state. -/
def within (part : τ → σ) (replace : τ → σ → τ) (store : RecordStore σ) : RecordStore τ where
  create model values unique := .within part replace (store.create model values unique)
  get model id := .within part replace (store.get model id)
  list model := .within part replace (store.list model)
  update model id changes unique := .within part replace (store.update model id changes unique)
  delete model id := .within part replace (store.delete model id)
  fetchOwner model id field := .within part replace (store.fetchOwner model id field)

/-- The store on the second of two states. -/
def onSecond (store : RecordStore σ) : RecordStore (τ × σ) :=
  within Prod.snd (fun pair state => (pair.1, state)) store

/-- The value that tells whether there is a record, with the value of a field of it. -/
def ownerValue (owner : Option Value) : Value :=
  .tuple [.bool owner.isSome, owner.getD .null]

end RecordStore

namespace Refusal

/-- The refusal of a value that another record has. -/
def notUnique (field : Text) : Refusal :=
  .plain .uniqueViolation (Text.concat [field, " must be unique"]) (some field)
    (.ofFields [("field", .text field)])

end Refusal

/-- Records in memory, by model and id, and the number of records created so far. -/
structure MemoryRecords where
  tables : Keyed (Keyed Entries)
  created : Nat

namespace MemoryRecords

/-- No record. -/
def empty : MemoryRecords := ⟨[], 0⟩

/-- The records of a model under their ids, in order of creation. -/
def table (records : MemoryRecords) (model : Text) : Keyed Entries :=
  (Keyed.get? records.tables model).getD []

/-- The record of a model with an id. -/
def record? (records : MemoryRecords) (model : Text) (id : Value) :
    Except Fault (Option Entries) :=
  id.asKey.map fun key => key.bind (Keyed.get? (records.table model))

/-- Puts a record under an id. -/
def putRecord (records : MemoryRecords) (model id : Text) (record : Entries) : MemoryRecords :=
  { records with
    tables := Keyed.put model (Keyed.put id record (records.table model)) records.tables }

/-- The id of a new record. -/
def newId (records : MemoryRecords) : Text :=
  Text.concat ["rec-", Text.ofNat (records.created + 1)]

/-- Whether a record other than the one with an id has a value under a field. -/
def isTaken (records : MemoryRecords) (model field : Text) (value : Value) (except : Option Text) :
    Bool :=
  (records.table model).any fun row =>
    !(some row.1 == except) && (Entries.get row.2 field).equals value

/-- The first of some fields whose value another record has. -/
def takenField? (records : MemoryRecords) (model : Text) (values : Entries)
    (unique : List Text) (except : Option Text) : Option Text :=
  unique.find? fun field =>
    let value := Entries.get values field
    !value.isNull && records.isTaken model field value except

/-- Refuses values that another record has under some fields. -/
def requireFree (records : MemoryRecords) (model : Text) (values : Entries) (unique : List Text)
    (except : Option Text) : Except Fault Unit :=
  match records.takenField? model values unique except with
  | some field => .error (.refused (.notUnique field))
  | none => .ok ()

/-- A record with its id and its two stamps. -/
def stamped (id : Text) (createdAt updatedAt : Value) (values : Entries) : Entries :=
  Entries.put "updatedAt" updatedAt
    (Entries.put "createdAt" createdAt (Entries.put "id" (.text id) values))

/-- Adds a record under an id. -/
def createUnder (id : Text) (now : Instant) (model : Text) (values : Entries) (unique : List Text)
    (records : MemoryRecords) : Except Fault Entries × MemoryRecords :=
  match records.requireFree model values unique none, values.copy with
  | .error fault, _ => (.error fault, records)
  | .ok _, .error fault => (.error fault, records)
  | .ok _, .ok values =>
    let stamp : Value := .text now.stamp
    let record := stamped id stamp stamp values
    let changed := records.putRecord model id record
    (.ok record, { changed with created := records.created + 1 })

/-- Adds a record under the id of a new one. -/
def create (now : Instant) (model : Text) (values : Entries) (unique : List Text)
    (records : MemoryRecords) : Except Fault Entries × MemoryRecords :=
  createUnder records.newId now model values unique records

/-- The stamp of creation of a record, empty when it has none. -/
def creationText (record : Entries) : Text :=
  ((Entries.get record "createdAt").asText?).getD []

/-- The records of a model by their stamps of creation, those with equal stamps in order of
creation. -/
def list (records : MemoryRecords) (model : Text) : List Entries :=
  arrange (fun first second => Text.le (creationText first) (creationText second))
    ((records.table model).map (·.2))

/-- Changes a record. -/
def update (now : Instant) (model : Text) (id : Value) (changes : Entries) (unique : List Text)
    (records : MemoryRecords) : Except Fault Entries × MemoryRecords :=
  match id.asKey with
  | .error fault => (.error fault, records)
  | .ok none => (.error .noRecord, records)
  | .ok (some key) =>
    match Keyed.get? (records.table model) key with
    | none => (.error .noRecord, records)
    | some existing =>
      match changes.copy with
      | .error fault => (.error fault, records)
      | .ok changes =>
        let merged := Entries.merge existing changes
        match records.requireFree model merged unique (some key) with
        | .error fault => (.error fault, records)
        | .ok _ =>
          let record := stamped key (Entries.get existing "createdAt") (.text now.stamp) merged
          (.ok record, records.putRecord model key record)

/-- Removes a record.  Where there is no record, nothing is looked for. -/
def delete (model : Text) (id : Value) (records : MemoryRecords) :
    Except Fault Bool × MemoryRecords :=
  if (records.table model).isEmpty then (.ok false, records)
  else
    match id.asKey with
    | .error fault => (.error fault, records)
    | .ok none => (.ok false, records)
    | .ok (some key) =>
      if Keyed.has (records.table model) key then
        (.ok true, { records with
          tables := Keyed.put model (Keyed.erase key (records.table model)) records.tables })
      else (.ok false, records)

/-- The value of a field of a record. -/
def owner? (model : Text) (id : Value) (field : Text) (records : MemoryRecords) :
    Except Fault (Option Value) :=
  (records.record? model id).map fun record => record.map fun entries => Entries.get entries field

/-- The store in memory at an instant. -/
def store (now : Instant) : RecordStore MemoryRecords where
  create model values unique := .object <$> .of (create now model values unique)
  get model id := .of fun records =>
    ((records.record? model id).map fun record => (record.map Value.object).getD .null, records)
  list model := .of fun records => (.ok (.list ((records.list model).map .object)), records)
  update model id changes unique := .object <$> .of (update now model id changes unique)
  delete model id := .bool <$> .of (delete model id)
  fetchOwner model id field := .of fun records =>
    ((owner? model id field records).map RecordStore.ownerValue, records)

/-- The number of records of each model that ever had one. -/
def counts (records : MemoryRecords) : Keyed Nat :=
  records.tables.map fun row => (row.1, row.2.length)

end MemoryRecords

end GovernedRecords
