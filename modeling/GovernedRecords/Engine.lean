import GovernedRecords.Pipeline.Run
import GovernedRecords.Registry.Named
import GovernedRecords.Schema.Table

/-!
# The engine

The operations that a transport offers: keeping definitions, asking for permissions,
checking payloads, rendering tables, and handling requests for records.  The registry and
the record store are two states side by side.
-/

set_option autoImplicit false

namespace GovernedRecords

/-- The definition of a document, whose problems are a refusal. -/
def Definition.coerce [Host] (document : Value) : Except Fault Definition :=
  match ofDocument document with
  | .ok definition => .ok definition
  | .error (.issues problems) =>
    .error (.refused (.invalidDefinition "Definition is invalid" problems))
  | .error cause => .error (.ofDocument cause)

namespace Engine

variable [Host] {σ ρ : Type}

/-- Saves the definition that a document holds. -/
def saveDocument (store : DefinitionStore σ) (now : Instant) (document actor : Value) :
    Operation (Registry σ) Definition := do
  Registry.save store now (← .ofExcept (Definition.coerce document)) actor

/-- Whether a principal may perform an action under a model. -/
def authorize (store : DefinitionStore σ) (now : Instant) (name : Value) (principal : Principal)
    (action owner : Value) : Operation (Registry σ) Verdict := do
  match (← Registry.loadValue store now name).evaluate principal (Action.ofValue? action) owner with
  | .failed error => .fail (.ofText error)
  | verdict => return verdict

/-- Checks a payload under a model, in a mode given by its word. -/
def validate (store : DefinitionStore σ) (now : Instant) (name payload mode : Value) :
    Operation (Registry σ) Validation := do
  let definition ← Registry.loadValue store now name
  let mode ← .ofExcept (Mode.ofValue mode)
  match definition.validate now payload mode with
  | .ok validation => return validation
  | .error cause => .fail (.outOfRange cause)

/-- The statement that creates the table of a model. -/
def schema (store : DefinitionStore σ) (now : Instant) (name : Value) :
    Operation (Registry σ) Text := do
  let definition ← Registry.loadValue store now name
  match definition.tableStatement now with
  | .ok statement => return statement
  | .error error => .fail (.ofCoercion error)

/-- Handles a request for records. -/
def handle (store : DefinitionStore σ) (records : RecordStore ρ) (now : Instant)
    (cancel : Nat → Bool) (request : RecordRequest) : Operation (Registry σ × ρ) Outcome :=
  request.run (fun name => (Registry.loadValue store now name).onFirst) records.onSecond now cancel

/-- Handles a request for records that are in the same store as the definitions. -/
def handleWithin (store : DefinitionStore σ) (records : RecordStore σ) (now : Instant)
    (cancel : Nat → Bool) (request : RecordRequest) : Operation (Registry σ) Outcome :=
  request.run (Registry.loadValue store now)
    (records.within Registry.store fun registry store => { registry with store := store })
    now cancel

end Engine

end GovernedRecords
