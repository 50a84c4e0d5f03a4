import GovernedRecords.Fault

/-!
# Operations

An operation works on a state and ends with a result or a fault.  What it did to the state
before a fault stays done.
-/

set_option autoImplicit false

namespace GovernedRecords

/-- A step on a state that ends with a result or a fault. -/
abbrev Operation (σ α : Type) := ExceptT Fault (StateM σ) α

namespace Operation

variable {σ τ α : Type}

/-- The operation with a given effect. -/
def of (effect : σ → Except Fault α × σ) : Operation σ α := ExceptT.mk (StateT.mk effect)

/-- The result of an operation on a state, and the state it leaves. -/
def on (operation : Operation σ α) (state : σ) : Except Fault α × σ :=
  (ExceptT.run operation).run state

/-- The operation that always has a result. -/
def step (effect : σ → α × σ) : Operation σ α :=
  of fun state =>
    let (result, state) := effect state
    (.ok result, state)

/-- Ends with a fault. -/
def fail (fault : Fault) : Operation σ α := throw fault

/-- Ends with a refusal. -/
def refuse (refusal : Refusal) : Operation σ α := throw (.refused refusal)

/-- A result that needs no state. -/
def ofExcept (result : Except Fault α) : Operation σ α :=
  match result with
  | .ok value => pure value
  | .error fault => throw fault

/-- The result of an operation, its fault included. -/
def attempt (operation : Operation σ α) : Operation σ (Except Fault α) :=
  of fun state =>
    let (result, state) := operation.on state
    (.ok result, state)

/-- An operation on a part of a larger state. -/
def within (part : τ → σ) (replace : τ → σ → τ) (operation : Operation σ α) : Operation τ α :=
  of fun whole =>
    let (result, state) := operation.on (part whole)
    (result, replace whole state)

/-- An operation on the first of two states. -/
def onFirst (operation : Operation σ α) : Operation (σ × τ) α :=
  within Prod.fst (fun pair state => (state, pair.2)) operation

/-- An operation on the second of two states. -/
def onSecond (operation : Operation τ α) : Operation (σ × τ) α :=
  within Prod.snd (fun pair state => (pair.1, state)) operation

end Operation

/-- A value that is used as a key: a text, or another value that may be one; values that
may not are a fault. -/
def Value.asKey (value : Value) : Except Fault (Option Text) :=
  match value with
  | .text name => .ok (some name)
  | other => if other.isHashable then .ok none else .error .unhashable

/-- The text that a value goes by when it is used as a name. -/
def Value.nameText : Value → Text
  | .text name => name
  | .null => "null"
  | .bool truth => if truth then "true" else "false"
  | other => other.display

/-- The identifier that a value is. -/
def Value.modelName [Host] (value : Value) : Except Fault Text :=
  match value with
  | .text name => if name.isModelName then .ok name else .error (.invalidName (.text name))
  | other => .error (.showing other (.invalidName other))

/-- The stamp of a moment, which is all that has one. -/
def Value.stamp (value : Value) : Except Fault Text :=
  match value with
  | .datetime moment =>
    match moment.instant? with
    | some instant => .ok instant.stamp
    | none => .error (.outOfRange .instant)
  | _ => .error .missingOperation

end GovernedRecords
