import GovernedRecords.Pipeline.Request
import GovernedRecords.Store.Records
import GovernedRecords.Validation.Payload
import GovernedRecords.Value.Members

/-!
# Running record requests

A request enters its stages one after another and ends at the first refusal: the model is
resolved, the action authorized, the payload of a create or update validated, the record
store called, and the response made.  Authorization comes before validation, so a caller
learns nothing about a payload for an action that is not permitted.

A cancel flag is looked at before each stage up to the call of the record store.
-/

set_option autoImplicit false

namespace GovernedRecords

/-- A request on its way: the state it works on, and the stages it has entered so far. -/
structure Run (τ : Type) where
  state : τ
  trail : List Stage

namespace Run

variable [Host] {τ α : Type}

/-- An operation on the state. -/
def onState (operation : Operation τ α) : Operation (Run τ) α :=
  .within Run.state (fun run state => { run with state := state }) operation

/-- Notes a stage. -/
def note (stage : Stage) : Operation (Run τ) Unit :=
  modify fun run => { run with trail := run.trail ++ [stage] }

/-- The refusal of a request that was cancelled before a stage. -/
def cancelled (stage : Stage) : Refusal :=
  .plain .requestCancelled "Request cancelled" none (.ofFields [("state", .text stage.name)])

/-- Enters a stage unless the request is cancelled.  The flag is read once before each
stage, so the stages entered count its readings. -/
def enter (cancel : Nat → Bool) (stage : Stage) : Operation (Run τ) Unit := do
  if cancel (← get).trail.length then .refuse (cancelled stage) else note stage

/-- The refusal of a record that is not there. -/
def recordNotFound : Refusal := .about .resourceNotFound "Record not found" "resource_id"

/-- The refusal of a record store that failed, with the part of the request it concerns. -/
def storeFailed (path : Text) : Refusal := .about .persistence "Record store failed" path

/-! ## Authorization -/

/-- What a record store answers about an owner: two members, of which the first tells
whether there is a record. -/
def ownerOf (answer : Value) : Except Fault Value :=
  match answer.members with
  | .ok [found, owner] => if found.isTruthy then .ok owner else .error (.refused recordNotFound)
  | .ok _ => .error .unsupportedOperand
  | .error fault => .error fault

/-- The owner of the record of a request; null when the request names no record. -/
def fetchOwner (store : RecordStore τ) (definition : Definition) (request : RecordRequest) :
    Operation (Run τ) Value := do
  if request.id.isTruthy then
    let answer ← (onState (store.fetchOwner definition.name request.id
      (definition.ownerField.getD []))).attempt
    match answer.bind ownerOf with
    | .ok owner => return owner
    | .error (.refused refusal) => .refuse refusal
    | .error _ => .refuse (storeFailed "resource_id")
  else return .null

/-- The owner that a payload names for a new record. -/
def payloadOwner (definition : Definition) (payload : Value) : Value :=
  match definition.owner?, payload with
  | some owner, .object entries => Entries.get entries owner
  | _, _ => .null

/-- Whether a principal may not create a record with the owner that a payload names. -/
def createsForOther (definition : Definition) (request : RecordRequest) : Except TextError Bool :=
  let owner := payloadOwner definition request.payload
  if definition.owner?.isSome && !request.principal.isAdmin && !owner.isMissing then
    (owner.sameText request.principal.id).map Bool.not
  else .ok false

/-- Refuses an action that the principal may not perform. -/
def authorize (store : RecordStore τ) (definition : Definition) (request : RecordRequest)
    (action : Option Action) : Operation (Run τ) Unit := do
  if definition.evaluate request.principal action .null
      = .denied .insufficientPermission then
    .refuse Denial.insufficientPermission.refusal
  let owner ←
    if definition.needsOwner request.principal action then fetchOwner store definition request
    else pure .null
  match definition.evaluate request.principal action owner with
  | .denied reason => .refuse reason.refusal
  | .failed error => .fail (.ofText error)
  | .allowed =>
    if action = some .create then
      if ← .ofExcept ((createsForOther definition request).mapError .ofText) then
        .refuse (.about .notOwner "You can only create records you own"
          (definition.ownerField.getD []))

/-! ## Validation -/

/-- The owner column that is not declared takes the owner that the payload names, as text. -/
def keepOwner (definition : Definition) (payload : Value) (values : Entries) :
    Except TextError Entries :=
  match definition.owner? with
  | none => .ok values
  | some owner =>
    let named := payloadOwner definition payload
    if (definition.field? owner).isNone && !named.isMissing then
      named.toText.map fun text => Entries.put owner (.text text) values
    else .ok values

/-- A new record without an owner belongs to the principal. -/
def stampOwner (definition : Definition) (principal : Principal) (action : Action)
    (values : Entries) : Entries :=
  match definition.owner? with
  | none => values
  | some owner =>
    if action = .create && (Entries.get values owner).isMissing then
      Entries.put owner principal.id values
    else values

/-- The values of a payload with the owner settled, and the unique fields. -/
def validated (now : Instant) (definition : Definition) (request : RecordRequest)
    (action : Action) : Except Fault NormalizedRecord :=
  match definition.validate now request.payload (if action = .create then .create else .update) with
  | .error cause => .error (.outOfRange cause)
  | .ok (.invalid errors) => .error (.refused (.validationFailed errors))
  | .ok (.valid record) =>
    match keepOwner definition request.payload record.values with
    | .error error => .error (.ofText error)
    | .ok values =>
      .ok { record with values := stampOwner definition request.principal action values }

/-! ## Execution -/

/-- Calls the record store.  What the store refuses is refused, a record that is not there
is not found, and any other fault of the store is a failure to persist. -/
def call (operation : Operation τ α) : Operation (Run τ) α := do
  match ← (onState operation).attempt with
  | .ok result => return result
  | .error (.refused refusal) => .refuse refusal
  | .error fault =>
    if fault.isMissingKey then .refuse recordNotFound else .refuse (storeFailed "record")

/-- Performs an action with the values of a valid payload; what the record store answers,
or the id of the record that was removed. -/
def execute (store : RecordStore τ) (definition : Definition) (request : RecordRequest)
    (action : Action) (record : NormalizedRecord) : Operation (Run τ) Value := do
  match action with
  | .create => call (store.create definition.name record.values record.uniqueFields)
  | .read =>
    if request.id.isTruthy then
      let found ← call (store.get definition.name request.id)
      if found.isNull then .refuse recordNotFound else return found
    else call (store.list definition.name)
  | .update =>
    if request.id.isTruthy then
      call (store.update definition.name request.id record.values record.uniqueFields)
    else .refuse (.about .resourceNotFound "Record id is required" "resource_id")
  | .delete =>
    if request.id.isTruthy then
      let removed ← call (store.delete definition.name request.id)
      if removed.isTruthy then return request.id else .refuse recordNotFound
    else .refuse recordNotFound

/-! ## All stages -/

/-- The values that an action needs: those of a valid payload for a create or update, and
none otherwise. -/
def prepare (now : Instant) (cancel : Nat → Bool) (definition : Definition)
    (request : RecordRequest) (action : Action) : Operation (Run τ) NormalizedRecord := do
  if action = .create || action = .update then
    enter cancel .validatePayload
    .ofExcept (validated now definition request action)
  else return ⟨[], []⟩

/-- Performs an action and responds. -/
def perform (store : RecordStore τ) (cancel : Nat → Bool) (definition : Definition)
    (request : RecordRequest) (action : Action) (record : NormalizedRecord) :
    Operation (Run τ) Response := do
  enter cancel .execute
  let answer ← execute store definition request action record
  note .respond
  .ofExcept (Response.ofAnswer action answer)

/-- The stages of a request.  The model is resolved by the given operation. -/
def stages (resolve : Value → Operation τ Definition) (store : RecordStore τ) (now : Instant)
    (cancel : Nat → Bool) (request : RecordRequest) : Operation (Run τ) Response := do
  enter cancel .resolveModel
  let definition ← onState (resolve request.model)
  let action := Action.ofValue? request.action
  enter cancel .authorize
  authorize store definition request action
  match action with
  | none => .refuse Denial.insufficientPermission.refusal
  | some action =>
    let record ← prepare now cancel definition request action
    perform store cancel definition request action record

end Run

/-- Runs a request; a refusal is an outcome like any other. -/
def RecordRequest.run [Host] {τ : Type} (resolve : Value → Operation τ Definition)
    (store : RecordStore τ) (now : Instant) (cancel : Nat → Bool) (request : RecordRequest) :
    Operation τ Outcome :=
  .of fun state =>
    let (result, run) := (Run.stages resolve store now cancel request).on ⟨state, []⟩
    match result with
    | .ok response => (.ok ⟨run.trail, .ok response⟩, run.state)
    | .error (.refused refusal) => (.ok ⟨run.trail, .error refusal⟩, run.state)
    | .error fault => (.error fault, run.state)

end GovernedRecords
