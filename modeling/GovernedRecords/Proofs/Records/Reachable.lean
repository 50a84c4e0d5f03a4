import GovernedRecords.Proofs.Entries
import GovernedRecords.Proofs.Records.Memory

/-!
# Reachable records in memory

The records in memory are reachable when they come from the empty store by creates, updates
and removals with any arguments, those that fail included.  Every reachable record carries the
id it is stored under and two stamps, no id occurs twice in a model, and the ids are numbered
(`Reachable.wellStored`), so the id of a new record is under no model (`Reachable.find?_newId`).
-/

set_option autoImplicit false

namespace GovernedRecords.MemoryRecords

variable {records : MemoryRecords} {record : Entries} {model id : Text}

/-- Records that come from the empty store by some operations. -/
inductive Reachable [Host] : MemoryRecords → Prop where
  | empty : Reachable empty
  | create {records : MemoryRecords} (before : Reachable records) (now : Instant) (model : Text)
      (values : Entries) (unique : List Text) : Reachable (create now model values unique records).2
  | update {records : MemoryRecords} (before : Reachable records) (now : Instant) (model : Text)
      (id : Value) (changes : Entries) (unique : List Text) :
      Reachable (update now model id changes unique records).2
  | delete {records : MemoryRecords} (before : Reachable records) (model : Text) (id : Value) :
      Reachable (delete model id records).2

/-! ## Stamped records -/

/-- A record carries an id and two stamps. -/
structure Carries (id : Text) (record : Entries) : Prop where
  id : Entries.get? record "id" = some (.text id)
  createdAt : ∃ stamp : Text, Entries.get? record "createdAt" = some (.text stamp)
  updatedAt : ∃ stamp : Text, Entries.get? record "updatedAt" = some (.text stamp)

/-- A stamped record reads as its values do, except under its id and its stamps. -/
theorem get?_stamped (id : Text) (createdAt updatedAt : Value) (values : Entries) (name : Text) :
    Entries.get? (stamped id createdAt updatedAt values) name =
      if name = "updatedAt" then some updatedAt
      else if name = "createdAt" then some createdAt
      else if name = "id" then some (.text id)
      else Entries.get? values name := by
  simp only [stamped, Entries.get?_put, eq_comm]

theorem carries_stamped (id createdAt updatedAt : Text) (values : Entries) :
    Carries id (stamped id (.text createdAt) (.text updatedAt) values) where
  id := by rw [get?_stamped]; rfl
  createdAt := ⟨createdAt, by rw [get?_stamped]; rfl⟩
  updatedAt := ⟨updatedAt, by rw [get?_stamped]; rfl⟩

/-! ## The invariant -/

/-- What holds of all records in memory. -/
structure WellStored (records : MemoryRecords) : Prop where
  numbered : records.Numbered
  distinct : ∀ model, (Keyed.names (records.table model)).Nodup
  carries : ∀ model id record, records.find? model id = some record → Carries id record

theorem wellStored_empty : WellStored empty where
  numbered := numbered_empty
  distinct _ := List.nodup_nil
  carries model id record found := by cases found

theorem names_table_putTable {table : Keyed Entries}
    (distinct : ∀ model, (Keyed.names (records.table model)).Nodup)
    (put : (Keyed.names table).Nodup) (model other : Text) :
    (Keyed.names (({ records with tables := Keyed.put model table records.tables } :
      MemoryRecords).table other)).Nodup := by
  rw [table_putTable]
  split
  · exact put
  · exact distinct other

theorem WellStored.add (stored : WellStored records) (model : Text)
    (carried : Carries records.newId record) : WellStored (records.add model record) where
  numbered := stored.numbered.add model record
  distinct other := names_table_putTable stored.distinct
    (Keyed.nodup_names_put _ _ (stored.distinct model)) model other
  carries other id existing found := by
    rw [find?_add] at found
    split at found
    · next same =>
        cases found
        exact same.2 ▸ carried
    · exact stored.carries other id existing found

theorem WellStored.putRecord (stored : WellStored records) {existing : Entries}
    (there : records.find? model id = some existing) (carried : Carries id record) :
    WellStored (records.putRecord model id record) where
  numbered := stored.numbered.putRecord there record
  distinct other := names_table_putTable stored.distinct
    (Keyed.nodup_names_put _ _ (stored.distinct model)) model other
  carries other key found read := by
    rw [find?_putRecord] at read
    split at read
    · next same =>
        cases read
        exact same.2 ▸ carried
    · exact stored.carries other key found read

theorem WellStored.remove (stored : WellStored records) (model id : Text) :
    WellStored (records.remove model id) where
  numbered := stored.numbered.remove model id
  distinct other := names_table_putTable stored.distinct
    (Keyed.nodup_names_erase _ (stored.distinct model)) model other
  carries other key found read := by
    rw [find?_remove] at read
    split at read
    · cases read
    · exact stored.carries other key found read

/-- A changed record carries the id and the stamp of creation that it had. -/
theorem WellStored.carries_changed (stored : WellStored records) {existing : Entries}
    (there : records.find? model id = some existing) (updatedAt : Text) (values : Entries) :
    Carries id (stamped id (Entries.get existing "createdAt") (.text updatedAt) values) := by
  obtain ⟨createdAt, created⟩ := (stored.carries model id existing there).createdAt
  rw [Entries.get, created, Option.getD_some]
  exact carries_stamped id createdAt updatedAt values

/-- **Reachable records are well stored.** -/
theorem Reachable.wellStored [Host] (reachable : Reachable records) : WellStored records := by
  induction reachable with
  | empty => exact wellStored_empty
  | @create records _ now model values unique stored =>
      rcases create_cases now model values unique records with ⟨_, failed⟩ | ⟨-, done⟩
      · rwa [failed]
      · rw [done]
        exact stored.add model (carries_stamped _ _ _ _)
  | @update records _ now model id changes unique stored =>
      rcases update_cases now model id changes unique records with
        ⟨_, failed⟩ | ⟨key, existing, -, there, -, done⟩
      · rwa [failed]
      · rw [done]
        exact stored.putRecord there (stored.carries_changed there _ _)
  | @delete records _ model id stored =>
      rcases delete_cases model id records with
        ⟨_, failed⟩ | none | ⟨key, _, -, -, done⟩
      · rwa [failed]
      · rwa [none]
      · rw [done]
        exact stored.remove model key

/-- The id of a new record is under no model. -/
theorem Reachable.find?_newId [Host] (reachable : Reachable records) (model : Text) :
    records.find? model records.newId = none :=
  reachable.wellStored.numbered.find?_newId model

/-- The rows of a model are its records under their ids. -/
theorem Reachable.mem_table_iff [Host] (reachable : Reachable records) :
    (id, record) ∈ records.table model ↔ records.find? model id = some record :=
  Keyed.mem_iff_get? (reachable.wellStored.distinct model)

end GovernedRecords.MemoryRecords
