import GovernedRecords.Registry.Basic

/-!
# The registry under any name

A caller may name a model by a value of any kind.  Only texts name models; any other value
that may be a key names none, and one that may not is a fault.
-/

set_option autoImplicit false

namespace GovernedRecords

namespace Registry

variable [Host] {σ α : Type}

/-- Runs an operation on a name, or another one where the value is no text. -/
def named (value : Value) (unnamed : Operation (Registry σ) α)
    (run : Text → Operation (Registry σ) α) : Operation (Registry σ) α := do
  match ← .ofExcept value.asKey with
  | some name => run name
  | none => unnamed

/-- The definition of the model that a value names. -/
def loadValue (store : DefinitionStore σ) (now : Instant) (name : Value) :
    Operation (Registry σ) Definition :=
  named name (.refuse noSuchName) (load store now)

/-- Whether a value names a model. -/
def existsValue (store : DefinitionStore σ) (name : Value) : Operation (Registry σ) Bool :=
  named name (return false) (exists? store)

/-- Changes parts of the definition that a value names. -/
def updateValue (store : DefinitionStore σ) (now : Instant) (name changes actor : Value) :
    Operation (Registry σ) Definition :=
  named name (.refuse noSuchName) fun text => update store now text changes actor

/-- Removes the definition that a value names; nothing but a text names one. -/
def deleteValue (store : DefinitionStore σ) (now : Instant) (name actor : Value) :
    Operation (Registry σ) Unit :=
  match name with
  | .text characters => delete store now characters actor
  | _ => .refuse noSuchName

/-- Drops the definition that a value names from the cache.  In an empty cache nothing is
looked for. -/
def invalidateValue (name : Value) : Operation (Registry σ) Unit := do
  if (← get).cache.isEmpty then return () else named name (return ()) invalidate

/-- The history of the model that a value names. -/
def historyValue (name : Value) : Operation (Registry σ) (List AuditEntry) :=
  named name (return []) history

end Registry

end GovernedRecords
