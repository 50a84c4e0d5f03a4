import GovernedRecords.Operation
import GovernedRecords.Value.Arithmetic
import GovernedRecords.Value.Members

/-!
# The database

The database is a server that answers statements.  What it answers may depend on all that
happened before, so a server is a function of the history, and a history is a list of
events: connections taken and given back, statements sent, row counts noted, and the ends
of transactions.  Each event is part of the history before the server answers it.

A statement and the end of a transaction may fail; a failure is a fault like any other.
Rows and row counts are whatever the server gives: a row that counts as present has to
become an object, and a row count that is compared has to be a number.

Every operation of a store is a task.  Its work is done in one transaction on a connection of its
own, and what the work found is read when the transaction has ended, so that a row which cannot be
read is a fault that undoes nothing.
-/

set_option autoImplicit false

namespace GovernedRecords

/-- A statement with its parameters, and whether its rows come as objects. -/
structure Statement where
  sql : Text
  parameters : Value
  givesObjects : Bool

/-- The rows that a statement gives, and the number of rows it touched. -/
structure Answer where
  rows : List Value
  rowCount : Value

/-- How a transaction ends. -/
inductive Ending where
  | commit
  | rollback
  deriving DecidableEq

/-- What happens between the library and the server. -/
inductive Event where
  /-- A connection is taken from the pool. -/
  | taken
  /-- A statement is sent. -/
  | sent (statement : Statement)
  /-- A statement was answered; the log has its name and row count. -/
  | noted (query : Option Text) (rowCount : Value)
  /-- The end of a transaction is asked for. -/
  | ended (ending : Ending)
  /-- The connection is given back. -/
  | givenBack

/-- What the server answers after a history. -/
structure Server where
  answer : List Event → Statement → Except Fault Answer
  finish : List Event → Ending → Except Fault Unit

/-- A server, the history so far, and the number of record ids handed out. -/
structure Database where
  server : Server
  history : List Event
  ids : Nat

namespace Event

/-- Whether a statement was answered. -/
def isNoted : Event → Bool
  | .noted _ _ => true
  | _ => false

end Event

namespace Database

/-- A server with which nothing happened. -/
def ofServer (server : Server) : Database := ⟨server, [], 0⟩

/-- The number of statements answered. -/
def queries (database : Database) : Nat := database.history.countP Event.isNoted

/-- Adds an event to the history. -/
def happen (event : Event) : Operation Database Unit :=
  modify fun database => { database with history := database.history ++ [event] }

/-- The statement with some parameters; parameters that count as absent are none. -/
def prepared (sql : Text) (parameters : Value) (givesObjects : Bool) : Statement :=
  ⟨sql, if parameters.isTruthy then parameters else .list [], givesObjects⟩

/-- Sends a statement under a name, takes its answer, and notes its row count. -/
def send {α : Type} (query : Option Text) (statement : Statement)
    (take : Answer → Except Fault α) : Operation Database α := do
  happen (.sent statement)
  let database ← get
  let answer ← .ofExcept (database.server.answer database.history statement)
  let taken ← .ofExcept (take answer)
  happen (.noted query answer.rowCount)
  return taken

/-- The first row that a statement gives; a row that counts as absent is none. -/
def fetchOne (query : Option Text) (sql : Text) (parameters : Value) :
    Operation Database (Option Entries) := do
  match ← send query (prepared sql parameters true) fun answer => .ok answer.rows.head? with
  | none => return none
  | some row => if row.isTruthy then return some (← .ofExcept row.toEntries) else return none

/-- All rows that a statement gives. -/
def fetchAll (query : Option Text) (sql : Text) (parameters : Value) :
    Operation Database (List Entries) :=
  send query (prepared sql parameters true) fun answer => answer.rows.mapM Value.toEntries

/-- The number of rows that a statement touches. -/
def run (query : Option Text) (sql : Text) (parameters : Value) : Operation Database Value :=
  send query (prepared sql parameters false) fun answer => .ok answer.rowCount

/-- Whether a row count says that a row was touched. -/
def wasTouched (rowCount : Value) : Except Fault Bool :=
  rowCount.toNumeric.map fun count => (Value.Numeric.integer 0).lt count

/-! ## Transactions -/

/-- Ends the transaction. -/
def finish (ending : Ending) : Operation Database Unit := do
  happen (.ended ending)
  let database ← get
  .ofExcept (database.server.finish database.history ending)

/-- Does some work and commits it. -/
def committed {α : Type} (work : Operation Database α) : Operation Database α := do
  let result ← work
  finish .commit
  return result

/-- Does some work and commits it, or rolls back what a fault interrupted.  A fault of
the rollback takes the place of the first one. -/
def settled {α : Type} (work : Operation Database α) : Operation Database α := do
  match ← (committed work).attempt with
  | .ok result => return result
  | .error fault =>
    finish .rollback
    .fail fault

/-- Does some work in a transaction on a connection of its own. -/
def transaction {α : Type} (work : Operation Database α) : Operation Database α := do
  happen .taken
  let result ← (settled work).attempt
  happen .givenBack
  .ofExcept result

/-! ## Tasks -/

/-- An operation of a store: some work in a transaction, and how what it found is read after the
transaction has ended. -/
structure Task (β : Type) where
  Found : Type
  work : Operation Database Found
  read : Found → Except Fault β

namespace Task

variable {β γ : Type}

/-- Does the work of a task and reads what it found. -/
def perform (task : Task β) : Operation Database β := do
  .ofExcept (task.read (← transaction task.work))

/-- The task that gives a change of the result. -/
def map (change : β → γ) (task : Task β) : Task γ :=
  { task with read := fun found => (task.read found).map change }

end Task

/-- Reads a row, if there is one. -/
def ifFound {β : Type} (read : Entries → Except Fault β) :
    Option Entries → Except Fault (Option β)
  | none => .ok none
  | some row => (read row).map some

end Database

end GovernedRecords
