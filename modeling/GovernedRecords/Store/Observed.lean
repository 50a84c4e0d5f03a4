import GovernedRecords.Store.Records

/-!
# Observed record stores

A record store can be watched: every call leaves the name of its method in a trace, and a
method may be made to fail whenever it is called.
-/

set_option autoImplicit false

namespace GovernedRecords

/-- The methods of a record store. -/
inductive RecordMethod where
  | create
  | get
  | list
  | update
  | delete
  | fetchOwner
  deriving DecidableEq

/-- The name of a method. -/
def RecordMethod.name : RecordMethod → Text
  | .create => "create"
  | .get => "get"
  | .list => "list"
  | .update => "update"
  | .delete => "delete"
  | .fetchOwner => "fetch_owner"

/-- All methods. -/
def RecordMethod.all : List RecordMethod := [.create, .get, .list, .update, .delete, .fetchOwner]

/-- The method with a name. -/
def RecordMethod.ofName? (name : Text) : Option RecordMethod :=
  RecordMethod.all.find? fun method => method.name == name

namespace RecordStore

variable {σ : Type}

/-- Traces a call, and fails in its place where a fault is set for its method. -/
def watch {α : Type} (faults : RecordMethod → Option Fault) (method : RecordMethod)
    (call : Operation σ α) : Operation (σ × List RecordMethod) α :=
  .of fun state =>
    let trace := state.2 ++ [method]
    match faults method with
    | some fault => (.error fault, (state.1, trace))
    | none =>
      let (result, inner) := call.on state.1
      (result, (inner, trace))

/-- The store with a trace of its calls. -/
def observed (faults : RecordMethod → Option Fault) (store : RecordStore σ) :
    RecordStore (σ × List RecordMethod) where
  create model values unique := watch faults .create (store.create model values unique)
  get model id := watch faults .get (store.get model id)
  list model := watch faults .list (store.list model)
  update model id changes unique := watch faults .update (store.update model id changes unique)
  delete model id := watch faults .delete (store.delete model id)
  fetchOwner model id field := watch faults .fetchOwner (store.fetchOwner model id field)

end RecordStore

end GovernedRecords
