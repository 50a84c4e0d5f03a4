import GovernedRecords.Database.Definitions
import GovernedRecords.Database.Drafts
import GovernedRecords.Database.Records
import GovernedRecords.Database.Tables

/-!
# Calls of the database

The database holds three stores: of definitions, of records and of drafts.  A call names a
method of one of them and comes with a list of arguments, of which the last may be left out
where it says who changed a draft or which fields are unique.  Any other number of
arguments is a fault, before anything is done.
-/

set_option autoImplicit false

namespace GovernedRecords

namespace Database

variable [Host]

/-- The methods of the store of definitions. -/
inductive DefinitionMethod where
  | read
  | write
  | delete
  | names
  deriving DecidableEq

/-- The name of a method. -/
def DefinitionMethod.name : DefinitionMethod → Text
  | .read => "read"
  | .write => "write"
  | .delete => "delete"
  | .names => "list_names"

/-- All methods. -/
def DefinitionMethod.all : List DefinitionMethod := [.read, .write, .delete, .names]

/-- The methods of the store of drafts. -/
inductive DraftMethod where
  | list
  | get
  | put
  | publish
  | delete
  deriving DecidableEq

/-- The name of a method. -/
def DraftMethod.name : DraftMethod → Text
  | .list => "list_drafts"
  | .get => "get_draft"
  | .put => "upsert_draft"
  | .publish => "mark_published"
  | .delete => "delete_draft"

/-- All methods. -/
def DraftMethod.all : List DraftMethod := [.list, .get, .put, .publish, .delete]

/-- A method of one of the stores. -/
inductive Method where
  | definitions (method : DefinitionMethod)
  | records (method : RecordMethod)
  | drafts (method : DraftMethod)
  deriving DecidableEq

/-- The method with a name, which begins with that of its store. -/
def Method.ofName? (name : Text) : Option Method := do
  let (store, method) ← name.splitFirst? (CodePoint.ofChar '.')
  if store = ("defs" : Text) then
    (DefinitionMethod.all.find? fun each => each.name == method).map .definitions
  else if store = ("recs" : Text) then (RecordMethod.ofName? method).map .records
  else if store = ("drafts" : Text) then
    (DraftMethod.all.find? fun each => each.name == method).map .drafts
  else none

/-- What is requested of one of the stores, with values of any kind. -/
inductive Request where
  | readDefinition (name : Value)
  | writeDefinition (name document : Value)
  | deleteDefinition (name : Value)
  | definitionNames
  | ofRecords (request : StoreRequest)
  | listDrafts
  | getDraft (name : Value)
  | putDraft (name definition updatedBy : Value)
  | publishDraft (name hash : Value)
  | deleteDraft (name : Value)

namespace Request

/-- The request for a method with some arguments, whose number has to be right. -/
def ofArguments? (method : Method) (arguments : List Value) : Option Request :=
  match method, arguments with
  | .definitions .read, [name] => some (.readDefinition name)
  | .definitions .write, [name, document] => some (.writeDefinition name document)
  | .definitions .delete, [name] => some (.deleteDefinition name)
  | .definitions .names, [] => some .definitionNames
  | .records method, arguments =>
    (StoreRequest.ofArguments? method arguments).map .ofRecords
  | .drafts .list, [] => some .listDrafts
  | .drafts .get, [name] => some (.getDraft name)
  | .drafts .put, [name, definition] => some (.putDraft name definition .null)
  | .drafts .put, [name, definition, updatedBy] => some (.putDraft name definition updatedBy)
  | .drafts .publish, [name, hash] => some (.publishDraft name hash)
  | .drafts .delete, [name] => some (.deleteDraft name)
  | _, _ => none

/-- The task of a request at an instant, under an id if it is for a new record. -/
def task (now : Instant) (id : Value) : Request → Task Value
  | .readDefinition name => (Database.readDefinition name).map fun found => found.getD .null
  | .writeDefinition name document =>
    (Database.writeDefinition now name document).map fun _ => .null
  | .deleteDefinition name => (Database.deleteDefinition name).map .bool
  | .definitionNames => Database.definitionNames.map .list
  | .ofRecords request => recordTask now id request
  | .listDrafts => Database.listDrafts.map fun found => .list (found.map .object)
  | .getDraft name => (Database.getDraft name).map RecordCalls.recordValue
  | .putDraft name definition updatedBy =>
    (Database.putDraft now name definition updatedBy).map .object
  | .publishDraft name hash => (Database.publishDraft now name hash).map RecordCalls.recordValue
  | .deleteDraft name => (Database.deleteDraft name).map .bool

/-- The id that is drawn for a request, and the database after it was drawn. -/
def draw (request : Request) (database : Database) : Value × Database :=
  match request with
  | .ofRecords request => drawFor request database
  | _ => (.null, database)

/-- Does what is requested. -/
def perform (now : Instant) (request : Request) : Operation Database Value := do
  (request.task now (← .step request.draw)).perform

end Request

/-- Calls a method of any store. -/
def call (now : Instant) (method : Method) (arguments : List Value) : Operation Database Value :=
  match Request.ofArguments? method arguments with
  | some request => request.perform now
  | none => .fail .unsupportedOperand

end Database

end GovernedRecords
