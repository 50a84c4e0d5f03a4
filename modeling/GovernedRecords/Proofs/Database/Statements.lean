import GovernedRecords.Database.Calls
import GovernedRecords.Proofs.Operation

/-!
# The statements of a work

The work of a task sends one statement after another, and goes on only while statements are
answered and checks succeed (`Progress`).  A statement that fails is the last one, and so is a
uniqueness query that finds a row.

A work is built from statements and checks.  The parts before its last statement are clear
(`Clears`): when they end without a fault, none of their uniqueness queries found a row.  So the
work of every request makes progress from wherever it begins (`sends_task`).
-/

set_option autoImplicit false

namespace GovernedRecords.Database

open Operation

variable {α β : Type} {database : Database}

/-- The database after some more events. -/
def goOn (database : Database) (events : List Event) : Database :=
  { database with history := database.history ++ events }

@[simp] theorem goOn_server (database : Database) (events : List Event) :
    (database.goOn events).server = database.server := rfl

@[simp] theorem goOn_history (database : Database) (events : List Event) :
    (database.goOn events).history = database.history ++ events := rfl

theorem goOn_nil (database : Database) : database.goOn [] = database := by
  rw [goOn, List.append_nil]

theorem goOn_append (database : Database) (events more : List Event) :
    database.goOn (events ++ more) = (database.goOn events).goOn more := by
  rw [goOn, goOn, goOn, List.append_assoc]

@[simp] theorem on_happen (event : Event) (database : Database) :
    (happen event).on database = (.ok (), database.goOn [event]) := rfl

/-! ## Progress -/

/-- An answer has no row, or a first one that counts as absent. -/
def FindsNone (answer : Answer) : Prop := ∀ row ∈ answer.rows.head?, row.isTruthy = false

/-- What a work sends after a history, and the fault that it ends with, if any. -/
inductive Progress (server : Server) : List Event → List Event → Option Fault → Prop where
  /-- Nothing is left to do. -/
  | done {history : List Event} : Progress server history [] none
  /-- A check fails. -/
  | refused {history : List Event} (fault : Fault) : Progress server history [] (some fault)
  /-- A statement fails. -/
  | failed {history : List Event} {statement : Statement} {fault : Fault}
      (given : server.answer (history ++ [.sent statement]) statement = .error fault) :
      Progress server history [.sent statement] (some fault)
  /-- The rows that a statement gives cannot be fetched. -/
  | unfetched {history : List Event} {statement : Statement} {answer : Answer} {fault : Fault}
      (given : server.answer (history ++ [.sent statement]) statement = .ok answer)
      (unread : answer.rows.mapM Value.toEntries = .error fault) :
      Progress server history [.sent statement] (some fault)
  /-- A statement is answered, and the work goes on; after a uniqueness query that finds a row it
  sends nothing more. -/
  | answered {history : List Event} {statement : Statement} {query : Option Text} {answer : Answer}
      {events : List Event} {ending : Option Fault}
      (given : server.answer (history ++ [.sent statement]) statement = .ok answer)
      (unique : statement.sql = uniquenessQuery → FindsNone answer ∨ events = [])
      (later : Progress server (history ++ [.sent statement, .noted query answer.rowCount]) events
        ending) :
      Progress server history (.sent statement :: .noted query answer.rowCount :: events) ending

/-- All statements were answered, and no uniqueness query among them found a row. -/
inductive Clear (server : Server) : List Event → List Event → Prop where
  | done {history : List Event} : Clear server history []
  | answered {history : List Event} {statement : Statement} {query : Option Text} {answer : Answer}
      {events : List Event}
      (given : server.answer (history ++ [.sent statement]) statement = .ok answer)
      (unique : statement.sql = uniquenessQuery → FindsNone answer)
      (later : Clear server (history ++ [.sent statement, .noted query answer.rowCount]) events) :
      Clear server history (.sent statement :: .noted query answer.rowCount :: events)

namespace Clear

variable {server : Server} {history first second : List Event} {ending : Option Fault}

theorem append (clear : Clear server history first)
    (later : Clear server (history ++ first) second) : Clear server history (first ++ second) := by
  induction clear with
  | done => simpa using later
  | answered given unique _ ih => exact .answered given unique (ih (by simpa using later))

/-- After clear statements a work may go on in any way. -/
theorem progress (clear : Clear server history first)
    (later : Progress server (history ++ first) second ending) :
    Progress server history (first ++ second) ending := by
  induction clear with
  | done => simpa using later
  | answered given unique _ ih =>
      exact .answered given (fun asked => .inl (unique asked)) (ih (by simpa using later))

end Clear

namespace Progress

variable {server : Server} {history events : List Event} {ending : Option Fault}

/-- Between the ends of a work there are only statements. -/
theorem statements (progress : Progress server history events ending) :
    ∀ event ∈ events, (∃ statement, event = .sent statement) ∨
      ∃ query rowCount, event = .noted query rowCount := by
  induction progress with
  | done => simp
  | refused => simp
  | failed => simp
  | unfetched => simp
  | answered _ _ _ ih => simpa using ih

theorem last_of_singleton {event other : Event} {earlier later : List Event}
    (single : [event] = earlier ++ other :: later) : later = [] := by
  have lengths := congrArg List.length single
  simp only [List.length_nil, List.length_append, List.length_cons] at lengths
  exact List.eq_nil_of_length_eq_zero (by omega)

/-- A statement is sent after a uniqueness query only if the query found no row. -/
theorem guarded (progress : Progress server history events ending) {earlier later : List Event}
    {query next : Statement} (sent : events = earlier ++ .sent query :: later)
    (asks : query.sql = uniquenessQuery) (follows : .sent next ∈ later) :
    ∃ answer, server.answer (history ++ earlier ++ [.sent query]) query = .ok answer ∧
      FindsNone answer := by
  induction progress generalizing earlier with
  | done => simp at sent
  | refused => simp at sent
  | failed =>
      rw [last_of_singleton sent] at follows
      cases follows
  | unfetched =>
      rw [last_of_singleton sent] at follows
      cases follows
  | @answered _ statement noted answer events _ given unique _ ih =>
      match earlier with
      | [] =>
          obtain ⟨same, rest⟩ := List.cons.inj sent
          cases same
          subst rest
          rcases unique asks with found | nothing
          · exact ⟨answer, by simpa using given, found⟩
          · rw [nothing] at follows
            simp at follows
      | [_] => simp at sent
      | _ :: _ :: rest =>
          simp only [List.cons_append, List.cons.injEq] at sent
          obtain ⟨rfl, rfl, rest⟩ := sent
          simpa using ih rest

end Progress

/-! ## Works -/

/-- The fault that a result is. -/
def fault? : Except Fault α → Option Fault
  | .ok _ => none
  | .error fault => some fault

/-- Statements of some sort lead to a result, or statements that make progress lead to a fault. -/
def Leads (finished : Server → List Event → List Event → Prop) (server : Server)
    (history events : List Event) : Except Fault α → Prop
  | .ok _ => finished server history events
  | .error fault => Progress server history events (some fault)

namespace Leads

variable {finished other : Server → List Event → List Event → Prop} {server : Server}
  {history before events more : List Event} {result : Except Fault α}

theorem imp (leads : Leads finished server history events result)
    (done : finished server history events → other server before more)
    (failed : ∀ {fault}, Progress server history events (some fault) →
      Progress server before more (some fault)) :
    Leads other server before more result := by
  cases result with
  | ok value => exact done leads
  | error fault => exact failed leads

theorem progress
    (leads : Leads (fun server history events => Progress server history events none) server
      history events result) :
    Progress server history events (fault? result) := by
  cases result with
  | ok value => exact leads
  | error fault => exact leads

end Leads

/-- From wherever a work begins, it ends with a result after statements of some sort, or with a
fault. -/
def Works (finished : Server → List Event → List Event → Prop) (work : Operation Database α) :
    Prop :=
  ∀ database : Database, ∃ events, (work.on database).2 = database.goOn events ∧
    Leads finished database.server database.history events (work.on database).1

/-- A work that is clear when it ends without a fault, so that another may follow it. -/
abbrev Clears (work : Operation Database α) : Prop := Works Clear work

/-- A work that makes progress, from wherever it begins. -/
abbrev Sends (work : Operation Database α) : Prop :=
  Works (fun server history events => Progress server history events none) work

theorem Works.bind {finished : Server → List Event → List Event → Prop}
    {first : Operation Database α} {next : α → Operation Database β} (clears : Clears first)
    (append : ∀ {server history events more}, Clear server history events →
      finished server (history ++ events) more → finished server history (events ++ more))
    (later : ∀ value, Works finished (next value)) : Works finished (first >>= next) := by
  intro database
  obtain ⟨events, after, leads⟩ := clears database
  rw [on_bind]
  cases run : first.on database with
  | mk result between =>
      rw [run] at after leads
      cases result with
      | error fault => exact ⟨events, after, leads⟩
      | ok value =>
          have clear : Clear database.server database.history events := leads
          obtain rfl : between = database.goOn events := after
          obtain ⟨more, ended, further⟩ := later value (database.goOn events)
          refine ⟨events ++ more, by rw [goOn_append]; exact ended, ?_⟩
          exact further.imp (append clear) clear.progress

section Bind

variable {first : Operation Database α} {next : α → Operation Database β}

theorem Clears.bind (clears : Clears first) (later : ∀ value, Clears (next value)) :
    Clears (first >>= next) :=
  Works.bind clears Clear.append later

theorem Sends.bind (clears : Clears first) (later : ∀ value, Sends (next value)) :
    Sends (first >>= next) :=
  Works.bind clears Clear.progress later

end Bind

theorem Clears.sends {work : Operation Database α} (clears : Clears work) : Sends work := by
  intro database
  obtain ⟨events, after, leads⟩ := clears database
  refine ⟨events, after, leads.imp (fun clear => ?_) id⟩
  exact List.append_nil events ▸ clear.progress .done

theorem Clears.ofExcept (result : Except Fault α) : Clears (Operation.ofExcept result) := by
  intro database
  refine ⟨[], ?_, ?_⟩
  · rw [on_ofExcept, goOn_nil]
  · rw [on_ofExcept]
    cases result with
    | ok value => exact .done
    | error fault => exact .refused fault

/-! ## Single statements -/

section Single

variable {query : Option Text} {sql : Text} {parameters : Value}

/-- What sending a statement does. -/
theorem on_send (statement : Statement) (take : Answer → Except Fault α) :
    (send query statement take).on database =
      match database.server.answer (database.history ++ [.sent statement]) statement with
      | .error fault => (.error fault, database.goOn [.sent statement])
      | .ok answer =>
        match take answer with
        | .error fault => (.error fault, database.goOn [.sent statement])
        | .ok taken =>
          (.ok taken, database.goOn [.sent statement, .noted query answer.rowCount]) := by
  have noted : ∀ event, database.goOn [.sent statement, event] =
      (database.goOn [.sent statement]).goOn [event] := fun event =>
    goOn_append database [.sent statement] [event]
  simp only [send, on_bind, on_happen, on_get, on_ofExcept, goOn_server, goOn_history]
  cases database.server.answer (database.history ++ [.sent statement]) statement with
  | error fault => rfl
  | ok answer =>
      cases taken : take answer with
      | error fault => simp only [taken]
      | ok value => simp only [taken, on_pure, noted]

theorem Works.send {finished : Server → List Event → List Event → Prop} {statement : Statement}
    {take : Answer → Except Fault α}
    (fetches : ∀ {answer fault}, take answer = .error fault →
      answer.rows.mapM Value.toEntries = .error fault)
    (closes : ∀ {server history answer},
      server.answer (history ++ [.sent statement]) statement = .ok answer →
        finished server history [.sent statement, .noted query answer.rowCount]) :
    Works finished (send query statement take) := by
  intro database
  rw [on_send]
  cases given : database.server.answer (database.history ++ [.sent statement]) statement with
  | error fault => exact ⟨_, rfl, .failed given⟩
  | ok answer =>
      simp only
      cases taken : take answer with
      | error fault => exact ⟨_, rfl, .unfetched given (fetches taken)⟩
      | ok value => exact ⟨_, rfl, closes given⟩

/-- A statement with an answer may end a work. -/
theorem Progress.last {server : Server} {history : List Event} {statement : Statement}
    {answer : Answer} {query : Option Text}
    (given : server.answer (history ++ [.sent statement]) statement = .ok answer) :
    Progress server history [.sent statement, .noted query answer.rowCount] none :=
  .answered given (fun _ => .inr rfl) .done

theorem Sends.run : Sends (run query sql parameters) :=
  Works.send (fun failed => by cases failed) Progress.last

theorem Sends.fetchAll : Sends (fetchAll query sql parameters) :=
  Works.send (fun failed => failed) Progress.last

/-- The row that is found where there may be one. -/
def foundRow : Option Value → Except Fault (Option Entries)
  | none => .ok none
  | some row => if row.isTruthy then row.toEntries.map some else .ok none

theorem findsNone_of_foundRow {answer : Answer} (none : foundRow answer.rows.head? = .ok none) :
    FindsNone answer := by
  intro row first
  rw [first, foundRow] at none
  split at none
  · cases entries : row.toEntries <;> simp [entries, Except.map] at none
  · next absent => simpa using absent

/-- What fetching one row does. -/
theorem on_fetchOne :
    (fetchOne query sql parameters).on database =
      match database.server.answer
          (database.history ++ [.sent (prepared sql parameters true)])
          (prepared sql parameters true) with
      | .error fault => (.error fault, database.goOn [.sent (prepared sql parameters true)])
      | .ok answer =>
        (foundRow answer.rows.head?,
          database.goOn [.sent (prepared sql parameters true), .noted query answer.rowCount]) := by
  rw [fetchOne, on_bind, on_send]
  cases database.server.answer (database.history ++ [.sent (prepared sql parameters true)])
      (prepared sql parameters true) with
  | error fault => rfl
  | ok answer =>
      simp only
      cases answer.rows.head? with
      | none => rfl
      | some row =>
          simp only [foundRow]
          split
          · rw [on_bind, on_ofExcept]
            cases row.toEntries <;> rfl
          · rfl

theorem Works.fetchOne {finished : Server → List Event → List Event → Prop}
    (closes : ∀ {server history answer},
      server.answer (history ++ [.sent (prepared sql parameters true)])
          (prepared sql parameters true) = .ok answer →
        finished server history
          [.sent (prepared sql parameters true), .noted query answer.rowCount]) :
    Works finished (fetchOne query sql parameters) := by
  intro database
  rw [on_fetchOne]
  cases given : database.server.answer
      (database.history ++ [.sent (prepared sql parameters true)])
      (prepared sql parameters true) with
  | error fault => exact ⟨_, rfl, .failed given⟩
  | ok answer =>
      refine ⟨_, rfl, ?_⟩
      simp only
      cases foundRow answer.rows.head? with
      | error fault => exact .answered given (fun _ => .inr rfl) (.refused fault)
      | ok row => exact closes given

theorem Sends.fetchOne : Sends (fetchOne query sql parameters) := Works.fetchOne Progress.last

theorem Clears.fetchOne (other : sql ≠ uniquenessQuery) :
    Clears (fetchOne query sql parameters) :=
  Works.fetchOne fun given => .answered given (fun asked => absurd asked other) .done

/-- A row that is found ends a work, and otherwise another may follow. -/
theorem Clears.unlessFound {ending next : Operation Database β}
    (ends : ∀ database, ∃ fault, ending.on database = (.error fault, database))
    (clears : Clears next) :
    Clears (do
      match ← Database.fetchOne query sql parameters with
      | some _ => ending
      | none => next) := by
  intro database
  rw [on_bind, on_fetchOne]
  generalize prepared sql parameters true = statement
  cases given : database.server.answer (database.history ++ [.sent statement]) statement with
  | error fault => exact ⟨_, rfl, .failed given⟩
  | ok answer =>
      simp only
      cases found : foundRow answer.rows.head? with
      | error fault => exact ⟨_, rfl, .answered given (fun _ => .inr rfl) (.refused fault)⟩
      | ok row =>
          cases row with
          | some entries =>
              obtain ⟨fault, ended⟩ :=
                ends (database.goOn [.sent statement, .noted query answer.rowCount])
              simp only [ended]
              exact ⟨_, rfl, .answered given (fun _ => .inr rfl) (.refused fault)⟩
          | none =>
              have absent := findsNone_of_foundRow found
              obtain ⟨more, ended, further⟩ := clears
                (database.goOn [.sent statement, .noted query answer.rowCount])
              refine ⟨.sent statement :: .noted query answer.rowCount :: more,
                ended.trans (goOn_append database [_, _] more).symm, ?_⟩
              exact further.imp (.answered given fun _ => absent)
                (.answered given fun _ => .inl absent)

end Single

/-! ## The work of a request -/

variable [Host]

theorem Clears.requireUnique (model values except : Value) (fields : List Value) :
    Clears (requireUnique model values except fields) := by
  induction fields with
  | nil => exact .ofExcept (.ok ())
  | cons field rest ih =>
      refine .bind (.ofExcept _) fun value => ?_
      split
      · exact ih
      · refine .bind (.ofExcept _) fun wanted => ?_
        refine .unlessFound (fun database => ?_) ih
        rw [on_bind, on_ofExcept]
        cases field.toText with
        | error error => exact ⟨_, rfl⟩
        | ok name => exact ⟨_, rfl⟩

theorem Sends.createRecord (now : Instant) (model id values unique : Value) :
    Sends (createRecord now model id values unique).work := by
  refine .bind (.ofExcept _) fun fields => ?_
  refine .bind (.requireUnique model values _ fields) fun _ => ?_
  exact .bind (.ofExcept _) fun encoded => .fetchOne

theorem Sends.updateRecord (now : Instant) (model id changes unique : Value) :
    Sends (updateRecord now model id changes unique).work := by
  have other : ("select data from model_records where model=%s and record_id=%s for update" : Text)
      ≠ uniquenessQuery := by decide
  refine .bind (.fetchOne other) fun existing => ?_
  cases existing with
  | none => exact (Clears.ofExcept (.error .noRecord)).sends
  | some existing =>
      refine .bind (.ofExcept _) fun merged => ?_
      refine .bind (.ofExcept _) fun fields => ?_
      refine .bind (.requireUnique model _ _ fields) fun _ => ?_
      exact .bind (.ofExcept _) fun encoded => .fetchOne

/-- **The work of every request makes progress.** -/
theorem sends_task (now : Instant) (id : Value) (request : Request) :
    Sends (request.task now id).work := by
  cases request with
  | readDefinition name => exact .fetchOne
  | writeDefinition name document =>
      exact .bind (.ofExcept _) fun _ => .bind (.ofExcept _) fun _ => .run
  | deleteDefinition name => exact .run
  | definitionNames => exact .fetchAll
  | ofRecords request =>
      cases request with
      | create model values unique => exact .createRecord now model id values unique
      | get model id => exact .fetchOne
      | list model => exact .fetchAll
      | update model id changes unique => exact .updateRecord now model id changes unique
      | delete model id => exact .run
      | fetchOwner model id field => exact .fetchOne
  | listDrafts => exact .fetchAll
  | getDraft name => exact .fetchOne
  | putDraft name definition updatedBy => exact .bind (.ofExcept _) fun _ => .fetchOne
  | publishDraft name hash => exact .fetchOne
  | deleteDraft name => exact .run

end GovernedRecords.Database
