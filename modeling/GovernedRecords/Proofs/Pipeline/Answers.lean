import GovernedRecords.Proofs.Pipeline.Passage
import GovernedRecords.Proofs.Records.Memory

/-!
# Actions on records in memory

Performing an action on records in memory ends in one of two ways (`performed`): with a fault,
and then nothing has changed, or with an answer that makes a response.  `Answered` has one
constructor for each way to respond, with what the records in memory did for it.
-/

set_option autoImplicit false

namespace GovernedRecords.Run

variable [Host] {τ : Type} {stored : Instant} {definition : Definition} {request : RecordRequest}
  {record : NormalizedRecord}

/-- The response of an action that succeeds on records in memory, and the records it leaves. -/
inductive Answered (stored : Instant) (definition : Definition) (request : RecordRequest)
    (record : NormalizedRecord) (records : MemoryRecords) :
    Action → Response → MemoryRecords → Prop where
  | created {row : Entries} {after : MemoryRecords}
      (done : MemoryRecords.create stored definition.name record.values record.uniqueFields
        records = (.ok row, after)) :
      Answered stored definition request record records .create (.record row) after
  | found {key : Text} {row : Entries} (named : request.id.isTruthy = true)
      (identified : request.id = .text key)
      (there : records.find? definition.name key = some row) :
      Answered stored definition request record records .read (.record row) records
  | listed (nameless : request.id.isTruthy = false) :
      Answered stored definition request record records .read
        (.records (records.list definition.name)) records
  | updated {row : Entries} {after : MemoryRecords} (named : request.id.isTruthy = true)
      (done : MemoryRecords.update stored definition.name request.id record.values
        record.uniqueFields records = (.ok row, after)) :
      Answered stored definition request record records .update (.record row) after
  | removed {after : MemoryRecords} (named : request.id.isTruthy = true)
      (done : MemoryRecords.delete definition.name request.id records = (.ok true, after)) :
      Answered stored definition request record records .delete (.deleted request.id) after

/-- Reading leaves the records as they are. -/
theorem eq_of_answered_read {records after : MemoryRecords} {response : Response}
    (answered : Answered stored definition request record records .read response after) :
    after = records := by
  cases answered with
  | found => rfl
  | listed => rfl

/-- How performing an action ends: with a fault and nothing changed, or with an answer that
makes a response and is that of the records in memory. -/
def Performed (stored : Instant) (definition : Definition) (request : RecordRequest)
    (record : NormalizedRecord) (action : Action) (run : Run (τ × MemoryRecords))
    (ended : Except Fault Value × Run (τ × MemoryRecords)) : Prop :=
  (∃ fault, ended = (.error fault, run)) ∨
    ∃ answer response records,
      ended = (.ok answer, { run with state := (run.state.1, records) }) ∧
      Response.ofAnswer action answer = .ok response ∧
      Answered stored definition request record run.state.2 action response records

omit [Host] in
theorem entriesOf_objects (records : List Entries) :
    (records.map Value.object).mapM Response.entriesOf = .ok records := by
  induction records with
  | nil => rfl
  | cons record rest ih =>
      rw [List.map_cons, List.mapM_cons, ih]
      rfl

theorem performed_create (run : Run (τ × MemoryRecords)) :
    Performed stored definition request record .create run
      ((execute (MemoryRecords.store stored).onSecond definition request .create record).on
        run) := by
  rw [Run.execute, on_call]
  simp only [RecordStore.onSecond, RecordStore.within, Operation.on_within, MemoryRecords.store,
    Operation.on_map, Operation.on_of]
  cases done : MemoryRecords.create stored definition.name record.values record.uniqueFields
      run.state.2 with
  | mk result after =>
      cases result with
      | error fault =>
          cases MemoryRecords.create_eq_error done
          exact .inl ⟨_, rfl⟩
      | ok row => exact .inr ⟨_, _, _, rfl, rfl, .created done⟩

theorem performed_update (run : Run (τ × MemoryRecords)) :
    Performed stored definition request record .update run
      ((execute (MemoryRecords.store stored).onSecond definition request .update record).on
        run) := by
  rw [execute]
  split
  · next named =>
      rw [on_call]
      simp only [RecordStore.onSecond, RecordStore.within, Operation.on_within,
        MemoryRecords.store, Operation.on_map, Operation.on_of]
      cases done : MemoryRecords.update stored definition.name request.id record.values
          record.uniqueFields run.state.2 with
      | mk result after =>
          cases result with
          | error fault =>
              cases MemoryRecords.update_eq_error done
              exact .inl ⟨_, rfl⟩
          | ok row => exact .inr ⟨_, _, _, rfl, rfl, .updated named done⟩
  · exact .inl ⟨_, rfl⟩

theorem performed_delete (run : Run (τ × MemoryRecords)) :
    Performed stored definition request record .delete run
      ((execute (MemoryRecords.store stored).onSecond definition request .delete record).on
        run) := by
  rw [execute]
  split
  · next named =>
      rw [Operation.on_bind, on_call]
      simp only [RecordStore.onSecond, RecordStore.within, Operation.on_within,
        MemoryRecords.store, Operation.on_map, Operation.on_of]
      cases done : MemoryRecords.delete definition.name request.id run.state.2 with
      | mk result after =>
          cases result with
          | error fault =>
              cases MemoryRecords.delete_ne_true done (by simp)
              exact .inl ⟨_, rfl⟩
          | ok there =>
              cases there with
              | false =>
                  cases MemoryRecords.delete_ne_true done (by simp)
                  exact .inl ⟨_, rfl⟩
              | true => exact .inr ⟨_, _, _, rfl, rfl, .removed named done⟩
  · exact .inl ⟨_, rfl⟩

theorem performed_read (run : Run (τ × MemoryRecords)) :
    Performed stored definition request record .read run
      ((execute (MemoryRecords.store stored).onSecond definition request .read record).on
        run) := by
  rw [execute]
  split
  · next named =>
      rw [Operation.on_bind, on_call]
      simp only [RecordStore.onSecond, RecordStore.within, Operation.on_within,
        MemoryRecords.store, Operation.on_of]
      unfold MemoryRecords.record?
      cases keyed : request.id.asKey with
      | error fault => exact .inl ⟨_, rfl⟩
      | ok key =>
          cases key with
          | none => exact .inl ⟨_, rfl⟩
          | some key =>
              cases there : Keyed.get? (run.state.2.table definition.name) key with
              | none =>
                  simp only [Except.map, Option.bind_some, there]
                  exact .inl ⟨_, rfl⟩
              | some row =>
                  simp only [Except.map, Option.bind_some, there]
                  exact .inr ⟨_, _, _, rfl, rfl,
                    .found named (Value.asKey_eq_some.mp keyed) there⟩
  · next nameless =>
      rw [on_call]
      refine .inr ⟨_, .records (run.state.2.list definition.name), run.state.2, rfl, ?_,
        .listed (by simpa using nameless)⟩
      simp only [Response.ofAnswer, entriesOf_objects]
      rfl

/-- Performing any action on records in memory ends in one of these ways. -/
theorem performed (action : Action) (run : Run (τ × MemoryRecords)) :
    Performed stored definition request record action run
      ((execute (MemoryRecords.store stored).onSecond definition request action record).on
        run) := by
  cases action with
  | create => exact performed_create run
  | read => exact performed_read run
  | update => exact performed_update run
  | delete => exact performed_delete run

end GovernedRecords.Run
