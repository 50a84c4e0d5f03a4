import GovernedRecords.Proofs.Engine.Ownership
import GovernedRecords.Proofs.Pipeline.Values
import GovernedRecords.Proofs.Records.Reachable
import GovernedRecords.Proofs.Text.Order
import Mathlib.Data.List.Forall2

/-!
# Requests as steps of a table

What a caller knows of the records is a table: the record of each model under each id.
`RecordTable.Performs` says what an action does to a table and what it shows, without a word on
how records are kept.  An engine with reachable records in memory refines this
(`handle_refines`): a request that responds performs its action on the table, with the values of
its payload, and every other request leaves the records as they were.
-/

set_option autoImplicit false

namespace GovernedRecords

/-- The record of each model under each id. -/
abbrev RecordTable := Text → Text → Option Entries

namespace RecordTable

/-- The table with another row under a model and an id. -/
def set (table : RecordTable) (model id : Text) (row : Option Entries) : RecordTable :=
  fun other key => if model = other ∧ id = key then row else table other key

/-- A value shows a record with an id: the id, the two stamps, and exactly the entries under
other keys. -/
def Shows (id : Text) (record : Entries) (shown : Value) : Prop :=
  ∃ (createdAt updatedAt : Text) (rest : Entries),
    shown = .ofFields [("id", .text id), ("record", .object rest),
      ("createdAt", .text createdAt), ("updatedAt", .text updatedAt)] ∧
    Entries.get? record "id" = some (.text id) ∧
    Entries.get? record "createdAt" = some (.text createdAt) ∧
    Entries.get? record "updatedAt" = some (.text updatedAt) ∧
    rest.Sublist record ∧
    ∀ entry, entry ∈ rest ↔ entry ∈ record ∧ ∀ key ∈ systemKeys, entry.1 ≠ .text key

/-- A new record has the values it was made of, its id, and the stamp of its creation twice. -/
structure IsNew (id stamp : Text) (values record : Entries) : Prop where
  id : Entries.get? record "id" = some (.text id)
  createdAt : Entries.get? record "createdAt" = some (.text stamp)
  updatedAt : Entries.get? record "updatedAt" = some (.text stamp)
  given : ∀ name, name ∉ systemKeys → Entries.get? record name = Entries.get? values name

/-- A changed record has the values it was given and the stamp of the change; everything else in
it, its id and the stamp of its creation included, is what it was. -/
structure IsChanged (stamp : Text) (values existing record : Entries) : Prop where
  updatedAt : Entries.get? record "updatedAt" = some (.text stamp)
  given : ∀ name value, name ∉ systemKeys → Entries.get? values name = some value →
    Entries.get? record name = some value
  kept : ∀ name : Text, name ≠ "updatedAt" → (name ∈ systemKeys ∨ Entries.get? values name = none) →
    Entries.get? record name = Entries.get? existing name

/-- What an action does to a table and what it shows, for a model, an id, the values of a
payload and the stamp of the instant. -/
inductive Performs (model : Text) (id : Value) (values : Entries) (stamp : Text)
    (table : RecordTable) : Action → Value → RecordTable → Prop where
  /-- A new record is added under an id that no model has. -/
  | created {key : Text} {record : Entries} {shown : Value}
      (fresh : ∀ other, table other key = none) (made : IsNew key stamp values record)
      (shows : Shows key record shown) :
      Performs model id values stamp table .create shown (table.set model key (some record))
  /-- The record under the id is shown. -/
  | found {key : Text} {record : Entries} {shown : Value} (identified : id = .text key)
      (there : table model key = some record) (shows : Shows key record shown) :
      Performs model id values stamp table .read shown table
  /-- Without an id, every record of the model is shown once. -/
  | listed {rows : List (Text × Entries)} {shown : List Value} (nameless : id.isTruthy = false)
      (distinct : (rows.map Prod.fst).Nodup)
      (complete : ∀ key record, (key, record) ∈ rows ↔ table model key = some record)
      (shows : List.Forall₂ (fun row value => Shows row.1 row.2 value) rows shown) :
      Performs model id values stamp table .read (.ofFields [("records", .list shown)]) table
  /-- The record under the id is changed. -/
  | updated {key : Text} {existing record : Entries} {shown : Value} (identified : id = .text key)
      (there : table model key = some existing)
      (changed : IsChanged stamp values existing record) (shows : Shows key record shown) :
      Performs model id values stamp table .update shown (table.set model key (some record))
  /-- The record under the id is removed. -/
  | removed {key : Text} {existing : Entries} (identified : id = .text key)
      (there : table model key = some existing) :
      Performs model id values stamp table .delete
        (.ofFields [("id", id), ("deleted", .bool true)]) (table.set model key none)

end RecordTable

namespace MemoryRecords

open RecordTable

variable {records : MemoryRecords} {model id : Text} {record values existing : Entries}

theorem find?_add_eq_set (model : Text) (record : Entries) :
    (records.add model record).find? =
      RecordTable.set records.find? model records.newId (some record) := by
  funext other key
  exact find?_add records model other key record

theorem find?_putRecord_eq_set (model id : Text) (record : Entries) :
    (records.putRecord model id record).find? =
      RecordTable.set records.find? model id (some record) := by
  funext other key
  exact find?_putRecord records model id other key record

theorem find?_remove_eq_set (model id : Text) :
    (records.remove model id).find? = RecordTable.set records.find? model id none := by
  funext other key
  exact find?_remove records model id other key

theorem Carries.shows (carried : Carries id record) : Shows id record (shapeRecord record) := by
  obtain ⟨createdAt, created⟩ := carried.createdAt
  obtain ⟨updatedAt, updated⟩ := carried.updatedAt
  refine ⟨createdAt, updatedAt, record.filter fun entry =>
    !systemKeys.any fun key => entry.1.isText key, ?_, carried.id, created, updated,
    List.filter_sublist, ?_⟩
  · simp only [shapeRecord, Entries.get, carried.id, created, updated, Option.getD_some]
  · intro entry
    rw [List.mem_filter]
    simp [Value.isText_iff]

/-- The listed records of a model are its rows, each once. -/
theorem exists_rows (records : MemoryRecords) (model : Text) :
    ∃ rows : List (Text × Entries), rows.Perm (records.table model) ∧
      rows.map Prod.snd = records.list model :=
  ⟨_, perm_arrange _ _, map_arrange (fun first second =>
    Text.le (creationText first) (creationText second)) Prod.snd (records.table model)⟩

theorem isNew_stamped (id stamp : Text) (values : Entries) :
    IsNew id stamp values (stamped id (.text stamp) (.text stamp) values) where
  id := by rw [get?_stamped]; rfl
  createdAt := by rw [get?_stamped]; rfl
  updatedAt := by rw [get?_stamped]; rfl
  given name other := by
    simp only [systemKeys, List.mem_cons, List.not_mem_nil, or_false, not_or] at other
    rw [get?_stamped, if_neg other.2.2, if_neg other.2.1, if_neg other.1]

/-- A record that carried its id, with changes merged into it, is changed as it should be. -/
theorem Carries.isChanged (carried : Carries id existing)
    (distinct : (values.map Prod.fst).Nodup) (stamp : Text) :
    IsChanged stamp values existing
      (stamped id (Entries.get existing "createdAt") (.text stamp)
        (Entries.merge existing values)) where
  updatedAt := by rw [get?_stamped]; rfl
  given name value other given := by
    simp only [systemKeys, List.mem_cons, List.not_mem_nil, or_false, not_or] at other
    rw [get?_stamped, if_neg other.2.2, if_neg other.2.1, if_neg other.1,
      Entries.get?_merge distinct, given, Option.some_or]
  kept name other free := by
    rw [get?_stamped, if_neg other]
    by_cases created : name = "createdAt"
    · obtain ⟨createdAt, read⟩ := carried.createdAt
      rw [if_pos created, created, Entries.get, read, Option.getD_some]
    · rw [if_neg created]
      by_cases identity : name = "id"
      · rw [if_pos identity, identity, carried.id]
      · rw [if_neg identity, Entries.get?_merge distinct]
        rcases free with reserved | ungiven
        · simp [systemKeys, other, created, identity] at reserved
        · rw [ungiven, Option.none_or]

end MemoryRecords

namespace Engine

open RecordTable MemoryRecords

section Requests

variable [Host] {σ : Type}

/-- What reachable records in memory did to answer is what the action does to their table. -/
theorem performs_of_answered {stored : Instant} {definition : Definition}
    {request : RecordRequest} {action : Action} {record : NormalizedRecord}
    {records after : MemoryRecords} {response : Response} (reachable : records.Reachable)
    (distinct : (record.values.map Prod.fst).Nodup)
    (answered : Run.Answered stored definition request record records action response after) :
    Performs definition.name request.id record.values stored.stamp records.find? action
      response.toValue after.find? := by
  have kept := reachable.wellStored
  cases answered with
  | created done =>
      obtain ⟨-, rfl, rfl⟩ := create_eq_ok done
      rw [find?_add_eq_set]
      exact .created reachable.find?_newId (isNew_stamped _ _ _) (carries_stamped _ _ _ _).shows
  | found named identified there =>
      exact .found identified there (kept.carries _ _ _ there).shows
  | listed nameless =>
      obtain ⟨rows, same, listed⟩ := exists_rows records definition.name
      have row : ∀ key row, (key, row) ∈ rows ↔ records.find? definition.name key = some row := by
        intro key row
        rw [same.mem_iff, reachable.mem_table_iff]
      refine .listed nameless ((same.map Prod.fst).nodup_iff.mpr (kept.distinct _)) row ?_
      rw [← listed, List.map_map, List.forall₂_map_right_iff, List.forall₂_same]
      intro each member
      exact (kept.carries _ _ _ ((row _ _).mp member)).shows
  | updated named done =>
      obtain ⟨key, existing, identified, there, -, rfl, rfl⟩ := update_eq_ok done
      rw [find?_putRecord_eq_set]
      exact .updated identified there ((kept.carries _ _ _ there).isChanged distinct _)
        (kept.carries_changed there _ _).shows
  | removed named done =>
      obtain ⟨key, existing, identified, there, rfl⟩ := delete_eq_true done
      rw [find?_remove_eq_set]
      exact .removed identified there

/-- **A request is a step of the table, or nothing.**  Whatever an engine with reachable records
handles: without a response all records are as they were.  A response comes from performing
the action on the table under the loaded definition, with the values of the valid payload where
the action writes; reading leaves even the order of the records alone. -/
theorem handle_refines (definitions : DefinitionStore σ) (registry : Registry σ)
    {records : MemoryRecords} (reachable : records.Reachable) (now stored : Instant)
    (cancel : Nat → Bool) (request : RecordRequest) :
    let ended := (handle definitions (MemoryRecords.store stored) now cancel request).on
      (registry, records)
    ((∀ trail response, ended.1 ≠ .ok ⟨trail, .ok response⟩) → ended.2.2 = records) ∧
      ∀ trail response, ended.1 = .ok ⟨trail, .ok response⟩ →
        ∃ definition loaded action record,
          (Registry.loadValue definitions now request.model).on registry =
            (.ok definition, loaded) ∧
          Action.ofValue? request.action = some action ∧
          (action = .create ∨ action = .update →
            Run.validated now definition request action = .ok record) ∧
          (action = .read → ended.2.2 = records) ∧
          Performs definition.name request.id record.values stored.stamp records.find? action
            response.toValue ended.2.2.find? := by
  rcases handle_cases _ _ _ _ _ _ with ⟨failed, kept⟩ | ⟨trail, response, ended, responded⟩
  · exact ⟨fun _ => kept, fun trail response responded => absurd responded (failed _ _)⟩
  · refine ⟨fun silent => absurd ended (silent _ _), fun _ _ same => ?_⟩
    cases same.symm.trans ended
    cases responded with
    | @answered _ definition action _ _ record _ _ admission answered =>
        obtain ⟨loaded, load⟩ := admission.loaded
        refine ⟨definition, loaded, action, record, load, admission.named, ?_, ?_, ?_⟩
        · intro writes
          cases admission.prepared with
          | validated _ _ valid => exact valid
          | unwritten reads => exact absurd writes reads
        · rintro rfl
          exact Run.eq_of_answered_read answered
        · refine performs_of_answered reachable ?_ answered
          cases admission.prepared with
          | validated _ _ valid => exact Run.nodup_validated valid
          | unwritten => exact List.nodup_nil

/-! ## Runs -/

theorem reachable_of_answered {stored : Instant} {definition : Definition}
    {request : RecordRequest} {action : Action} {record : NormalizedRecord}
    {records after : MemoryRecords} {response : Response} (reachable : records.Reachable)
    (answered : Run.Answered stored definition request record records action response after) :
    after.Reachable := by
  cases answered with
  | created done =>
      have left := reachable.create stored definition.name record.values record.uniqueFields
      rwa [done] at left
  | found => exact reachable
  | listed => exact reachable
  | updated _ done =>
      have left := reachable.update stored definition.name request.id record.values
        record.uniqueFields
      rwa [done] at left
  | removed _ done =>
      have left := reachable.delete definition.name request.id
      rwa [done] at left

/-- The records are reachable after every run. -/
theorem reachable_after (definitions : DefinitionStore σ) (initial : σ) (events : List Event) :
    (after definitions (start initial) events).2.Reachable := by
  have kept : ∀ (state : State σ) (event : Event), state.2.Reachable →
      (step definitions state event).2.Reachable := by
    intro state event reachable
    cases event with
    | call => exact reachable
    | request now stored cancel request =>
        rw [step]
        rcases handle_cases definitions now stored cancel request state with
          ⟨-, kept⟩ | ⟨_, _, -, ⟨-, answered⟩⟩
        · rwa [kept]
        · exact reachable_of_answered reachable answered
  exact after_induction kept .empty events

end Requests

/-- The manager's change of the first note is a step of the table. -/
theorem note_update_performed :
    let created := after MemoryDefinitions.store noteStart [noteEvent "create" "Plan"]
    let ended := (handle MemoryDefinitions.store (MemoryRecords.store ⟨0, by decide⟩)
      ⟨0, by decide⟩ (fun _ => false) (noteRequest "update" "Draft")).on created
    ∃ response definition action record,
      ended.1 = .ok ⟨[.resolveModel, .authorize, .validatePayload, .execute, .respond],
        .ok response⟩ ∧
      Performs definition (.text "rec-1") record (Instant.stamp ⟨0, by decide⟩) created.2.find?
        action response.toValue ended.2.2.find? := by
  intro created ended
  obtain ⟨definition, -, action, record, -, -, -, -, performed⟩ :=
    (handle_refines MemoryDefinitions.store created.1
      (reachable_after MemoryDefinitions.store [("note", noteDefinition.toDocument)]
        [noteEvent "create" "Plan"]) ⟨0, by decide⟩ ⟨0, by decide⟩ (fun _ => false)
      (noteRequest "update" "Draft")).2 _ (.record (firstNote "Draft")) rfl
  exact ⟨_, definition.name, action, record.values, rfl, performed⟩

end Engine

end GovernedRecords
