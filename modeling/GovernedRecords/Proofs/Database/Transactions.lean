import GovernedRecords.Proofs.Database.Statements

/-!
# Transactions

A task is done on one connection, which is taken first and given back last.  In between stand the
statements of its work and then the ends of its transaction (`Transacted`): a commit when the work
ended without a fault, and a rollback when a fault interrupted the work or the commit failed.  Every
request is such a task (`Request.done_in_one_transaction`).

Two things do not interrupt a work.  A row that counts as absent is no row for a uniqueness query;
and what a work found is read when the transaction has ended, so that a row which cannot be read is
a fault after a commit (`absent_row_and_unread_row`).
-/

set_option autoImplicit false

namespace GovernedRecords.Database

open Operation

variable {α β : Type} {database : Database}

/-! ## How a transaction ends -/

/-- The fault that is seen when one is followed by a rollback: that of the rollback takes its
place. -/
def surfacing (server : Server) (history : List Event) (fault : Fault) : Fault :=
  match server.finish (history ++ [.ended .rollback]) .rollback with
  | .ok _ => fault
  | .error other => other

/-- How a transaction ends after a work with some outcome: its ends, and the result. -/
inductive Ends (server : Server) (history : List Event) :
    Except Fault α → List Event → Except Fault α → Prop where
  /-- The work is committed. -/
  | committed {found : α}
      (done : server.finish (history ++ [.ended .commit]) .commit = .ok ()) :
      Ends server history (.ok found) [.ended .commit] (.ok found)
  /-- The commit fails. -/
  | uncommitted {found : α} {fault : Fault}
      (failed : server.finish (history ++ [.ended .commit]) .commit = .error fault) :
      Ends server history (.ok found) [.ended .commit, .ended .rollback]
        (.error (surfacing server (history ++ [.ended .commit]) fault))
  /-- A fault interrupted the work. -/
  | interrupted {fault : Fault} :
      Ends server history (.error fault) [.ended .rollback]
        (.error (surfacing server history fault))

theorem on_finish (ending : Ending) :
    (finish ending).on database =
      (database.server.finish (database.history ++ [.ended ending]) ending,
        database.goOn [.ended ending]) := by
  simp only [finish, on_bind, on_happen, on_get, on_ofExcept, goOn_server, goOn_history]

/-- Rolling back for a fault. -/
theorem on_rollBack (fault : Fault) :
    (do finish .rollback; fail fault : Operation Database α).on database =
      (.error (surfacing database.server database.history fault),
        database.goOn [.ended .rollback]) := by
  rw [on_bind, on_finish, surfacing]
  cases database.server.finish (database.history ++ [.ended .rollback]) .rollback <;> rfl

/-- Committing what was found. -/
theorem on_commit (found : α) :
    (do finish .commit; return found : Operation Database α).on database =
      ((database.server.finish (database.history ++ [.ended .commit]) .commit).map fun _ => found,
        database.goOn [.ended .commit]) := by
  rw [on_bind, on_finish]
  cases database.server.finish (database.history ++ [.ended .commit]) .commit <;> rfl

/-- What settling a work does. -/
theorem settled_ends (work : Operation Database α) (database : Database) :
    ∃ endings,
      ((settled work).on database).2 = (work.on database).2.goOn endings ∧
      Ends (work.on database).2.server (work.on database).2.history (work.on database).1 endings
        ((settled work).on database).1 := by
  rw [settled, on_bind, on_attempt, committed, on_bind]
  cases work.on database with
  | mk outcome between =>
      cases outcome with
      | error fault =>
          simp only [on_rollBack]
          exact ⟨_, rfl, .interrupted⟩
      | ok found =>
          simp only [on_commit]
          cases done : between.server.finish (between.history ++ [.ended .commit]) .commit with
          | ok nothing => exact ⟨_, rfl, .committed done⟩
          | error fault =>
              simp only [Except.map, on_rollBack, goOn_server, goOn_history]
              exact ⟨_, (goOn_append between _ _).symm, .uncommitted done⟩

/-- A transaction settles its work on a connection of its own. -/
theorem on_transaction (work : Operation Database α) (database : Database) :
    (transaction work).on database =
      (((settled work).on (database.goOn [.taken])).1,
        ((settled work).on (database.goOn [.taken])).2.goOn [.givenBack]) := by
  simp only [transaction, on_bind, on_happen, on_attempt, on_ofExcept]

/-! ## Tasks -/

/-- What performing a task does to a database: what it ends with, given the statements of its work
and the ends of its transaction. -/
structure Transacted (task : Task β) (database : Database) (statements endings : List Event)
    (ended : Except Fault β × Database) : Prop where
  /-- A connection is taken, then the work is done, its transaction is ended, and the connection is
  given back. -/
  events : ended.2 = database.goOn (.taken :: (statements ++ (endings ++ [.givenBack])))
  /-- Only statements are sent and noted during the work. -/
  only : ∀ event ∈ statements, (∃ statement, event = .sent statement) ∨
    ∃ query rowCount, event = .noted query rowCount
  /-- The work goes on only while statements are answered and checks succeed. -/
  progress : Progress database.server (database.history ++ [.taken]) statements
    (fault? (task.work.on (database.goOn [.taken])).1)
  /-- Where a statement follows a uniqueness query, as the insert or the update of a record does,
  the query found no row. -/
  guarded : ∀ earlier query later next, statements = earlier ++ .sent query :: later →
    query.sql = uniquenessQuery → .sent next ∈ later →
    ∃ answer, database.server.answer
        (database.history ++ [.taken] ++ earlier ++ [.sent query]) query = .ok answer ∧
      FindsNone answer
  /-- The transaction ends as the work did, and then what was found is read. -/
  ends : ∃ settled, Ends database.server (database.history ++ .taken :: statements)
      (task.work.on (database.goOn [.taken])).1 endings settled ∧
    ended.1 = settled.bind task.read
  /-- There is a value only when the commit succeeded. -/
  value : ∀ value, ended.1 = .ok value → endings = [.ended .commit] ∧
    database.server.finish (database.history ++ .taken :: (statements ++ [.ended .commit])) .commit =
      .ok ()

theorem Task.on_perform (task : Task β) (database : Database) :
    task.perform.on database =
      (((settled task.work).on (database.goOn [.taken])).1.bind task.read,
        ((settled task.work).on (database.goOn [.taken])).2.goOn [.givenBack]) := by
  rw [perform, on_bind, on_transaction]
  cases ((settled task.work).on (database.goOn [.taken])).1 with
  | error fault => rfl
  | ok found => exact on_ofExcept _ _

/-- There is a result only of a work that was committed. -/
theorem Ends.committed_of_ok {server : Server} {history endings : List Event}
    {outcome : Except Fault α} {found : α}
    (ends : Ends server history outcome endings (.ok found)) :
    endings = [.ended .commit] ∧
      server.finish (history ++ [.ended .commit]) .commit = .ok () := by
  cases ends with
  | committed done => exact ⟨rfl, done⟩

theorem Task.transacted (task : Task β) (sends : Sends task.work) (database : Database) :
    ∃ statements endings,
      Transacted task database statements endings (task.perform.on database) := by
  obtain ⟨statements, after, leads⟩ := sends (database.goOn [.taken])
  obtain ⟨endings, settled, ends⟩ := settled_ends task.work (database.goOn [.taken])
  have progress : Progress database.server (database.history ++ [.taken]) statements
      (fault? (task.work.on (database.goOn [.taken])).1) := leads.progress
  rw [after] at settled ends
  simp only [goOn_server, goOn_history, List.append_assoc, List.singleton_append] at ends
  rw [on_perform]
  refine ⟨statements, endings, ?_, progress.statements, progress, ?_, ⟨_, ends, rfl⟩, ?_⟩
  · rw [settled]
    simp only [← goOn_append, List.append_assoc, List.cons_append, List.nil_append]
  · intro earlier query later next sent asks follows
    exact progress.guarded sent asks follows
  · intro value ended
    cases result : ((Database.settled task.work).on (database.goOn [.taken])).1 with
    | error fault =>
        rw [result] at ended
        cases ended
    | ok found =>
        rw [result] at ends
        obtain ⟨only, done⟩ := ends.committed_of_ok
        exact ⟨only, by simpa using done⟩

/-- **Every request is done in one transaction.** -/
theorem Request.done_in_one_transaction [Host] (now : Instant) (request : Request)
    (database : Database) :
    let (id, drawn) := request.draw database
    drawn.server = database.server ∧ drawn.history = database.history ∧
      ∃ statements endings, Transacted (request.task now id) drawn statements endings
        ((request.perform now).on database) := by
  refine ⟨?_, ?_, ?_⟩
  · cases request with
    | ofRecords request => cases request <;> rfl
    | _ => rfl
  · cases request with
    | ofRecords request => cases request <;> rfl
    | _ => rfl
  · have performed : (request.perform now).on database =
        (request.task now (request.draw database).1).perform.on (request.draw database).2 := by
      rw [perform, on_bind]
      rfl
    rw [performed]
    exact Task.transacted _ (sends_task now _ request) _

/-! ## Rows that do not interrupt a work -/

/-- A server that answers every statement with one row. -/
def giving (row : Value) : Server where
  answer _ _ := .ok ⟨[row], .int 1⟩
  finish _ _ := .ok ()

/-- The statement that an event sends. -/
def sql? : Event → Option Text
  | .sent statement => some statement.sql
  | _ => none

/-- The end of a transaction that an event asks for. -/
def ending? : Event → Option Ending
  | .ended ending => some ending
  | _ => none

/-- The moment of the requests below. -/
def dawn : Instant := ⟨63840031200000000, by decide⟩

/-- A request to a server that answers every statement with one row. -/
def ranWith (row : Value) (request : Request) : Except Fault Value × Database :=
  (request.perform dawn).on (.ofServer (giving row))

/-- A note whose title is unique. -/
def plannedNote : Request :=
  .ofRecords (.create "note" (.ofFields [("title", "Plan")]) (.list ["title"]))

/-- The row of a document that is no object. -/
def listedRow : Value := .ofFields [("document", .list [.int 1])]

/-- A record is inserted although its uniqueness query gave a row, which was empty; and a document
that is no object is refused after a commit, without a rollback. -/
theorem absent_row_and_unread_row :
    (giving (.ofFields [])).answer [] = (fun _ => .ok ⟨[.ofFields []], .int 1⟩) ∧
      (ranWith (.ofFields []) plannedNote).2.history.filterMap sql? =
        [uniquenessQuery, recordInsert] ∧
      (ranWith listedRow (.readDefinition "note")).1 = .error (.notObject "note") ∧
      (ranWith listedRow (.readDefinition "note")).2.history.filterMap ending? = [.commit] := by
  refine ⟨rfl, ?_, rfl, rfl⟩
  decide +kernel

end GovernedRecords.Database
