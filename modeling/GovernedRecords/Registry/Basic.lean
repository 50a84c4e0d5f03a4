import GovernedRecords.Store.Definitions
import GovernedRecords.Value.Copy

/-!
# The registry of definitions

The registry stands in front of a definition store.  It keeps the definitions it has read
or saved in a cache, checks every document it reads, stamps every definition it saves, and
keeps a history of saves and removals, newest first.

A definition is saved with the stamp of creation of the one before it and a stamp of
change later than that one's, by a microsecond if the clock has not moved on.
-/

set_option autoImplicit false

namespace GovernedRecords

/-- What an entry of the history records. -/
inductive AuditAction where
  | save
  | delete
  deriving DecidableEq

/-- The word for an action. -/
def AuditAction.name : AuditAction → Text
  | .save => "save"
  | .delete => "delete"

/-- One entry of the history of a model. -/
structure AuditEntry where
  number : Nat
  name : Text
  action : AuditAction
  hash : Option Text
  actor : Value
  stamp : Text

namespace AuditEntry

/-- The object that shows an entry. -/
def toValue (entry : AuditEntry) : Value :=
  .ofFields [("audit_id", .text (Text.concat ["audit-", Text.ofNat entry.number])),
    ("name", .text entry.name), ("action", .text entry.action.name),
    ("definition_hash", Value.ofText? entry.hash), ("actor", entry.actor),
    ("at", .text entry.stamp)]

end AuditEntry

/-- A store with the registry's cache and history. -/
structure Registry (σ : Type) where
  store : σ
  cache : Keyed Definition
  histories : Keyed (List AuditEntry)
  entries : Nat

namespace Registry

variable [Host] {σ α : Type}

/-- A registry with nothing in its cache and history. -/
def ofStore (store : σ) : Registry σ := ⟨store, [], [], 0⟩

/-- An operation of the store. -/
def onStore (operation : Operation σ α) : Operation (Registry σ) α :=
  .within Registry.store (fun registry store => { registry with store := store }) operation

/-- A step that changes the registry. -/
def change (step : Registry σ → Registry σ) : Operation (Registry σ) Unit := modify step

/-- Keeps a definition in the cache. -/
def keep (name : Text) (definition : Definition) (registry : Registry σ) : Registry σ :=
  { registry with cache := Keyed.put name definition registry.cache }

/-- Drops a definition from the cache. -/
def drop (name : Text) (registry : Registry σ) : Registry σ :=
  { registry with cache := Keyed.erase name registry.cache }

/-- The history of a model, newest first. -/
def historyOf (registry : Registry σ) (name : Text) : List AuditEntry :=
  (Keyed.get? registry.histories name).getD []

/-- Puts an entry in front of the history of a model. -/
def record (now : Instant) (name : Text) (action : AuditAction) (hash : Option Text)
    (actor : Value) (registry : Registry σ) : Registry σ :=
  let entry : AuditEntry := ⟨registry.entries + 1, name, action, hash, actor, now.stamp⟩
  { registry with
    histories := Keyed.put name (entry :: registry.historyOf name) registry.histories
    entries := registry.entries + 1 }

/-- The actor that a history shows, a copy of the one that is given. -/
def shownActor (actor : Value) : Except Fault Value :=
  if actor.isTruthy then actor.copy else .ok .null

/-- Records what an actor did.  An actor of whom there is no copy is a fault, whatever was done
before. -/
def audit (now : Instant) (name : Text) (action : AuditAction) (hash : Option Text)
    (actor : Value) : Operation (Registry σ) Unit := do
  let shown ← .ofExcept (shownActor actor)
  change (record now name action hash shown)

/-! ## Refusals -/

/-- The detail that names a model. -/
def nameDetail (name : Text) : Value := .ofFields [("name", .text name)]

/-- No model can have the name. -/
def noSuchName : Refusal := .about .modelNotFound "Model not found" "name"

/-- No document is stored under the name. -/
def notFound (name : Text) : Refusal :=
  .plain .modelNotFound (Text.concat ["Model not found: ", name]) (some "name") (nameDetail name)

/-- The stored document is of no use; the words say why. -/
def corrupt (name reason : Text) : Refusal :=
  .plain .corruptDefinition (Text.concat ["Stored definition for ", name, " ", reason])
    (some "name") (nameDetail name)

/-- Whether a fault means that a definition cannot be loaded, and others still can. -/
def isSkipped : Fault → Bool
  | .refused (.plain .modelNotFound _ _ _) => true
  | .refused (.plain .corruptDefinition _ _ _) => true
  | _ => false

/-! ## Loading -/

/-- The definition that a stored document holds, checked at an instant. -/
def checked (now : Instant) (name : Text) (document : Value) : Except Fault Definition :=
  match Definition.ofDocument document with
  | .error (.issues _) => .error (.refused (corrupt name "is invalid"))
  | .error cause => .error (.ofDocument cause)
  | .ok definition =>
    match definition.problems now with
    | .error cause => .error (.outOfRange cause)
    | .ok problems =>
      if problems.isEmpty && definition.name == name then .ok definition
      else .error (.refused (corrupt name "breaks its invariants"))

/-- Reads a definition from the store. -/
def read (store : DefinitionStore σ) (now : Instant) (name : Text) :
    Operation (Registry σ) Definition := do
  match ← (onStore (store.read name)).attempt with
  | .error fault =>
    if fault.isUnreadable then .refuse (corrupt name "is unreadable") else .fail fault
  | .ok none => .refuse (notFound name)
  | .ok (some document) => .ofExcept (checked now name document)

/-- The definition of a model, from the cache if it is there. -/
def load (store : DefinitionStore σ) (now : Instant) (name : Text) :
    Operation (Registry σ) Definition := do
  match Keyed.get? (← get).cache name with
  | some definition => return definition
  | none =>
    if name.isModelName then
      let definition ← read store now name
      change (keep name definition)
      return definition
    else .refuse noSuchName

/-- Whether there is a model with a name, even one whose document is of no use. -/
def exists? (store : DefinitionStore σ) (name : Text) : Operation (Registry σ) Bool := do
  if Keyed.has (← get).cache name then return true
  else if name.isModelName then
    match ← (onStore (store.read name)).attempt with
    | .ok document => return document.isSome
    | .error fault => if fault.isUnreadable then return true else .fail fault
  else return false

/-- The definitions of some models, without those that cannot be loaded. -/
def loadAll (store : DefinitionStore σ) (now : Instant) :
    List Text → Operation (Registry σ) (List Definition)
  | [] => return []
  | name :: rest => do
    match ← (load store now name).attempt with
    | .ok definition => return definition :: (← loadAll store now rest)
    | .error fault => if isSkipped fault then loadAll store now rest else .fail fault

/-- All definitions that can be loaded, by name. -/
def list (store : DefinitionStore σ) (now : Instant) :
    Operation (Registry σ) (List Definition) := do
  loadAll store now (← onStore store.names)

/-! ## Saving -/

/-- The definition that is replaced by a save; one of no use is replaced like none. -/
def previous? (store : DefinitionStore σ) (now : Instant) (name : Text) :
    Operation (Registry σ) (Option Definition) := do
  match ← (load store now name).attempt with
  | .ok definition => return some definition
  | .error fault => if isSkipped fault then return none else .fail fault

/-- The stamp of change after a previous one: the present instant, or the next microsecond
when the clock has not moved on. -/
def nextStamp (now : Instant) (previous : Option Instant) : Except Fault Instant :=
  match previous with
  | none => .ok now
  | some stamp =>
    if now.le stamp then
      match stamp.advance? 1 with
      | some next => .ok next
      | none => .error (.outOfRange .instant)
    else .ok now

/-- The refusal of a definition with problems. -/
def invalid (name : Text) (problems : List Issue) : Refusal :=
  .invalidDefinition (Text.concat ["Definition ", name, " is invalid"]) problems

/-- Saves a definition for an actor. -/
def save (store : DefinitionStore σ) (now : Instant) (definition : Definition) (actor : Value) :
    Operation (Registry σ) Definition := do
  match definition.problems now with
  | .error cause => .fail (.outOfRange cause)
  | .ok (problem :: problems) =>
    .refuse (invalid (if definition.name.isEmpty then "?" else definition.name)
      (problem :: problems))
  | .ok [] =>
    let previous ← previous? store now definition.name
    let stamp ← .ofExcept (nextStamp now (previous.bind Definition.updatedAt))
    let createdAt := (previous.bind Definition.createdAt).getD stamp
    let stored := definition.withStamps (some createdAt) (some stamp)
    onStore (store.write now stored.name stored.toDocument)
    change (keep stored.name stored)
    let hash ← .ofExcept stored.hash
    audit now stored.name .save (some hash) actor
    return stored

/-- The entries of a document after one change. -/
def applyChange (entries : Entries) (change : Value × Value) : Except Fault Entries :=
  match change.1.asText? with
  | none => .ok entries
  | some key =>
    if key = ("name" : Text) || key = ("createdAt" : Text) || key = ("updatedAt" : Text) then
      .ok entries
    else if change.2.isNull then .ok (Entries.erase key entries)
    else change.2.copy.map fun value => Entries.put key value entries

/-- The entries of a document after some changes: null removes an entry, and the name and
the stamps stay as they are. -/
def applyChanges (changes entries : Entries) : Except Fault Entries :=
  changes.foldlM applyChange entries

/-- The entries of some changes: any value that counts as absent changes nothing. -/
def changeEntries (changes : Value) : Except Fault Entries :=
  if changes.isTruthy then
    match changes with
    | .object entries => .ok entries
    | _ => .error .missingOperation
  else .ok []

/-- Changes parts of a definition and saves it. -/
def update (store : DefinitionStore σ) (now : Instant) (name : Text) (changes actor : Value) :
    Operation (Registry σ) Definition := do
  let current ← load store now name
  let entries ← .ofExcept (changeEntries changes)
  let changed ← .ofExcept (applyChanges entries (current.toDocument.asObject?.getD []))
  match Definition.ofDocument (.object changed) with
  | .error (.issues problems) => .refuse (invalid name problems)
  | .error cause => .fail (.ofDocument cause)
  | .ok updated => save store now updated actor

/-! ## Removing -/

/-- Removes the definition of a model. -/
def delete (store : DefinitionStore σ) (now : Instant) (name : Text) (actor : Value) :
    Operation (Registry σ) Unit := do
  if name.isModelName then
    if ← onStore (store.delete name) then
      change (drop name)
      audit now name .delete none actor
    else
      change (drop name)
      .refuse (notFound name)
  else .refuse noSuchName

/-- Drops a definition from the cache. -/
def invalidate (name : Text) : Operation (Registry σ) Unit := change (drop name)

/-- The history of a model, newest first, as long as there is a copy of it. -/
def history (name : Text) : Operation (Registry σ) (List AuditEntry) := do
  let entries := (← get).historyOf name
  let _ ← .ofExcept (Value.list (entries.map AuditEntry.toValue)).copy
  return entries

end Registry

end GovernedRecords
