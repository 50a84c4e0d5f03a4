import GovernedRecords.Keyed
import GovernedRecords.Operation
import GovernedRecords.Text.Order
import GovernedRecords.Value.Copy

/-!
# Definition stores

A definition store keeps documents under model names.  It is a state together with four
operations; the store in memory keeps copies of the documents, and gives out copies of what it
keeps.  Two stores make one that works on whichever state it is given.
-/

set_option autoImplicit false

namespace GovernedRecords

/-- Documents under names, as operations on a state. -/
structure DefinitionStore (σ : Type) where
  /-- The document under a name, if there is one. -/
  read : Text → Operation σ (Option Value)
  /-- Puts a document under a name, at an instant. -/
  write : Instant → Text → Value → Operation σ Unit
  /-- Removes the document under a name; whether there was one. -/
  delete : Text → Operation σ Bool
  /-- The names that have a document, in ascending order. -/
  names : Operation σ (List Text)

/-- Documents in memory. -/
abbrev MemoryDefinitions := Keyed Value

namespace MemoryDefinitions

/-- The document under a name; a document that is null counts as none. -/
def document? (documents : MemoryDefinitions) (name : Text) : Option Value :=
  (Keyed.get? documents name).filter fun document => !document.isNull

/-- Removes a document. -/
def delete (name : Text) (documents : MemoryDefinitions) : Bool × MemoryDefinitions :=
  (Keyed.has documents name, Keyed.erase name documents)

/-- The store in memory. -/
def store [Host] : DefinitionStore MemoryDefinitions where
  read name := .of fun documents => ((document? documents name).mapM Value.copy, documents)
  write _ name document := .of fun documents =>
    if name.isModelName then
      match document.copy with
      | .ok copied => (.ok (), Keyed.put name copied documents)
      | .error fault => (.error fault, documents)
    else (.error (.invalidName (.text name)), documents)
  delete name := .of fun documents => (.ok (delete name documents).1, (delete name documents).2)
  names := .of fun documents => (.ok (Text.sorted (Keyed.names documents)), documents)

end MemoryDefinitions

namespace DefinitionStore

variable {σ τ : Type}

/-- An operation on whichever of two states there is. -/
def either {α : Type} (first : Operation σ α) (second : Operation τ α) : Operation (σ ⊕ τ) α :=
  .of fun
    | .inl state => let (result, state) := first.on state; (result, .inl state)
    | .inr state => let (result, state) := second.on state; (result, .inr state)

/-- The store that works on whichever of two states there is. -/
def sum (first : DefinitionStore σ) (second : DefinitionStore τ) : DefinitionStore (σ ⊕ τ) where
  read name := either (first.read name) (second.read name)
  write now name document := either (first.write now name document) (second.write now name document)
  delete name := either (first.delete name) (second.delete name)
  names := either first.names second.names

/-- The store with a count of the reads so far. -/
def counted (store : DefinitionStore σ) : DefinitionStore (σ × Nat) where
  read name := .of fun state =>
    let (result, inner) := (store.read name).on state.1
    (result, (inner, state.2 + 1))
  write now name document := (store.write now name document).onFirst
  delete name := (store.delete name).onFirst
  names := store.names.onFirst

end DefinitionStore

end GovernedRecords
