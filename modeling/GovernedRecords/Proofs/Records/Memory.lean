import GovernedRecords.Proofs.Keyed
import GovernedRecords.Proofs.Operation
import GovernedRecords.Proofs.Text.Digits
import GovernedRecords.Store.Records

/-!
# Records in memory

The store in memory is read through `find?`, the record of a model under an id.  Every
operation leaves the store as it was, or puts one record (`create_cases`, `update_cases`), or
removes one (`delete_cases`).

The ids are numbered (`Numbered`), so there is no record under the id of a new one.
-/

set_option autoImplicit false

namespace GovernedRecords.MemoryRecords

variable {records after : MemoryRecords} {now : Instant}

/-- The record of a model under an id. -/
def find? (records : MemoryRecords) (model id : Text) : Option Entries :=
  Keyed.get? (records.table model) id

theorem table_putTable (records : MemoryRecords) (model other : Text) (table : Keyed Entries) :
    (({ records with tables := Keyed.put model table records.tables } : MemoryRecords).table
      other) = if model = other then table else records.table other := by
  simp only [MemoryRecords.table, Keyed.get?_put]
  split <;> rfl

theorem table_putRecord (records : MemoryRecords) (model id other : Text) (record : Entries) :
    (records.putRecord model id record).table other =
      if model = other then Keyed.put id record (records.table model) else records.table other :=
  table_putTable records model other _

theorem find?_putRecord (records : MemoryRecords) (model id other key : Text) (record : Entries) :
    (records.putRecord model id record).find? other key =
      if model = other ∧ id = key then some record else records.find? other key := by
  rw [find?, table_putRecord]
  by_cases same : model = other
  · subst same
    simp [find?, Keyed.get?_put]
  · simp [find?, same]

/-- The store without the record of a model under an id. -/
def remove (records : MemoryRecords) (model id : Text) : MemoryRecords :=
  { records with tables := Keyed.put model (Keyed.erase id (records.table model)) records.tables }

theorem table_remove (records : MemoryRecords) (model id other : Text) :
    (records.remove model id).table other =
      if model = other then Keyed.erase id (records.table model) else records.table other :=
  table_putTable records model other _

theorem find?_remove (records : MemoryRecords) (model id other key : Text) :
    (records.remove model id).find? other key =
      if model = other ∧ id = key then none else records.find? other key := by
  rw [find?, table_remove]
  by_cases same : model = other
  · subst same
    simp [find?, Keyed.get?_erase]
  · simp [find?, same]

/-! ## Operations -/

/-- The store with a new record under an id. -/
def addUnder (records : MemoryRecords) (model id : Text) (record : Entries) : MemoryRecords :=
  { records.putRecord model id record with created := records.created + 1 }

/-- The store with a new record. -/
def add (records : MemoryRecords) (model : Text) (record : Entries) : MemoryRecords :=
  records.addUnder model records.newId record

theorem table_addUnder (records : MemoryRecords) (model id other : Text) (record : Entries) :
    (records.addUnder model id record).table other =
      if model = other then Keyed.put id record (records.table model) else records.table other :=
  table_putTable records model other _

theorem find?_add (records : MemoryRecords) (model other key : Text) (record : Entries) :
    (records.add model record).find? other key =
      if model = other ∧ records.newId = key then some record else records.find? other key :=
  find?_putRecord records model records.newId other key record

theorem copy_eq_ok [Host] {values copied : Entries} (copy : values.copy = .ok copied) :
    copied = values := by
  unfold Entries.copy at copy
  split at copy
  · cases copy
  · cases copy
    rfl

/-- A create adds a record of free values under its id and answers with it, or ends with a fault
and changes nothing. -/
theorem createUnder_cases [Host] (id : Text) (now : Instant) (model : Text) (values : Entries)
    (unique : List Text) (records : MemoryRecords) :
    (∃ fault, createUnder id now model values unique records = (.error fault, records)) ∨
      records.requireFree model values unique none = .ok () ∧
        createUnder id now model values unique records =
          (.ok (stamped id (.text now.stamp) (.text now.stamp) values),
            records.addUnder model id
              (stamped id (.text now.stamp) (.text now.stamp) values)) := by
  unfold createUnder
  cases free : records.requireFree model values unique none with
  | error fault => exact .inl ⟨fault, rfl⟩
  | ok done =>
      cases copy : values.copy with
      | error fault => exact .inl ⟨fault, rfl⟩
      | ok copied =>
          rw [copy_eq_ok copy]
          exact .inr ⟨rfl, rfl⟩

/-- A create adds a record of free values under a new id and answers with it, or ends with a
fault and changes nothing. -/
theorem create_cases [Host] (now : Instant) (model : Text) (values : Entries) (unique : List Text)
    (records : MemoryRecords) :
    (∃ fault, create now model values unique records = (.error fault, records)) ∨
      records.requireFree model values unique none = .ok () ∧
        create now model values unique records =
          (.ok (stamped records.newId (.text now.stamp) (.text now.stamp) values),
            records.add model
              (stamped records.newId (.text now.stamp) (.text now.stamp) values)) :=
  createUnder_cases records.newId now model values unique records

/-- An update merges changes into a record that is there, if its values are free then, and
answers with it, or ends with a fault and changes nothing. -/
theorem update_cases [Host] (now : Instant) (model : Text) (id : Value) (changes : Entries)
    (unique : List Text) (records : MemoryRecords) :
    (∃ fault, update now model id changes unique records = (.error fault, records)) ∨
      ∃ key existing, id = .text key ∧ records.find? model key = some existing ∧
        records.requireFree model (Entries.merge existing changes) unique (some key) = .ok () ∧
        update now model id changes unique records =
          (.ok (stamped key (Entries.get existing "createdAt") (.text now.stamp)
              (Entries.merge existing changes)),
            records.putRecord model key
              (stamped key (Entries.get existing "createdAt") (.text now.stamp)
                (Entries.merge existing changes))) := by
  unfold update
  cases keyed : id.asKey with
  | error fault => exact .inl ⟨fault, rfl⟩
  | ok named =>
      cases named with
      | none => exact .inl ⟨_, rfl⟩
      | some key =>
          simp only
          cases found : Keyed.get? (records.table model) key with
          | none => exact .inl ⟨_, rfl⟩
          | some existing =>
              cases copy : changes.copy with
              | error fault => exact .inl ⟨fault, rfl⟩
              | ok copied =>
                  rw [copy_eq_ok copy]
                  simp only
                  cases free : records.requireFree model (Entries.merge existing changes) unique
                      (some key) with
                  | error fault => exact .inl ⟨fault, rfl⟩
                  | ok done =>
                      exact .inr ⟨key, existing, Value.asKey_eq_some.mp keyed, found, free, rfl⟩

/-- A removal removes a record that is there, or changes nothing and answers with a fault or that
there is none. -/
theorem delete_cases (model : Text) (id : Value) (records : MemoryRecords) :
    (∃ fault, delete model id records = (.error fault, records)) ∨
      delete model id records = (.ok false, records) ∨
      ∃ key existing, id = .text key ∧ records.find? model key = some existing ∧
        delete model id records = (.ok true, records.remove model key) := by
  unfold delete
  split
  · exact .inr (.inl rfl)
  · cases keyed : id.asKey with
    | error fault => exact .inl ⟨fault, rfl⟩
    | ok named =>
        cases named with
        | none => exact .inr (.inl rfl)
        | some key =>
            simp only
            split
            · next there =>
                rw [Keyed.has_eq_isSome] at there
                obtain ⟨existing, found⟩ := Option.isSome_iff_exists.mp there
                exact .inr (.inr ⟨key, existing, Value.asKey_eq_some.mp keyed, found, rfl⟩)
            · exact .inr (.inl rfl)

/-- A create that fails changes nothing. -/
theorem create_eq_error [Host] {model : Text} {values : Entries} {unique : List Text}
    {fault : Fault} (failed : create now model values unique records = (.error fault, after)) :
    after = records := by
  rcases create_cases now model values unique records with ⟨_, same⟩ | ⟨-, done⟩
  · exact congrArg Prod.snd (failed.symm.trans same)
  · cases failed.symm.trans done

/-- A create that succeeds adds the record it answers with. -/
theorem create_eq_ok [Host] {model : Text} {values record : Entries} {unique : List Text}
    (done : create now model values unique records = (.ok record, after)) :
    records.requireFree model values unique none = .ok () ∧
      record = stamped records.newId (.text now.stamp) (.text now.stamp) values ∧
      after = records.add model record := by
  rcases create_cases now model values unique records with ⟨_, failed⟩ | ⟨free, same⟩
  · cases failed.symm.trans done
  · cases same.symm.trans done
    exact ⟨free, rfl, rfl⟩

/-- An update that fails changes nothing. -/
theorem update_eq_error [Host] {model : Text} {id : Value} {changes : Entries} {unique : List Text}
    {fault : Fault} (failed : update now model id changes unique records = (.error fault, after)) :
    after = records := by
  rcases update_cases now model id changes unique records with
    ⟨_, same⟩ | ⟨_, _, -, -, -, done⟩
  · exact congrArg Prod.snd (failed.symm.trans same)
  · cases failed.symm.trans done

/-- An update that succeeds puts the record it answers with. -/
theorem update_eq_ok [Host] {model : Text} {id : Value} {changes record : Entries}
    {unique : List Text} (done : update now model id changes unique records = (.ok record, after)) :
    ∃ key existing, id = .text key ∧ records.find? model key = some existing ∧
      records.requireFree model (Entries.merge existing changes) unique (some key) = .ok () ∧
      record = stamped key (Entries.get existing "createdAt") (.text now.stamp)
        (Entries.merge existing changes) ∧
      after = records.putRecord model key record := by
  rcases update_cases now model id changes unique records with
    ⟨_, failed⟩ | ⟨key, existing, identified, there, free, same⟩
  · cases failed.symm.trans done
  · cases same.symm.trans done
    exact ⟨key, existing, identified, there, free, rfl, rfl⟩

/-- A removal that does not remove changes nothing. -/
theorem delete_ne_true {model : Text} {id : Value} {result : Except Fault Bool}
    (ended : delete model id records = (result, after)) (failed : result ≠ .ok true) :
    after = records := by
  rcases delete_cases model id records with
    ⟨_, same⟩ | same | ⟨_, _, -, -, done⟩
  · exact congrArg Prod.snd (ended.symm.trans same)
  · exact congrArg Prod.snd (ended.symm.trans same)
  · exact absurd (congrArg Prod.fst (ended.symm.trans done)) failed

/-- A removal that removes had a record to remove. -/
theorem delete_eq_true {model : Text} {id : Value}
    (done : delete model id records = (.ok true, after)) :
    ∃ key existing, id = .text key ∧ records.find? model key = some existing ∧
      after = records.remove model key := by
  rcases delete_cases model id records with
    ⟨_, failed⟩ | none | ⟨key, existing, identified, there, same⟩
  · cases failed.symm.trans done
  · cases none.symm.trans done
  · cases same.symm.trans done
    exact ⟨key, existing, identified, there, rfl⟩

/-! ## Owners -/

/-- An owner that is there is a value of a record that is there. -/
theorem owner?_eq_ok {model field : Text} {id owner : Value}
    (found : owner? model id field records = .ok (some owner)) :
    ∃ key record, id = .text key ∧ records.find? model key = some record ∧
      Entries.get record field = owner := by
  unfold owner? record? at found
  cases keyed : id.asKey with
  | error fault =>
      rw [keyed] at found
      cases found
  | ok named =>
      cases named with
      | none =>
          rw [keyed] at found
          cases found
      | some key =>
          rw [keyed] at found
          cases stored : records.find? model key with
          | none =>
              rw [find?] at stored
              simp [Except.map, stored] at found
          | some record =>
              rw [find?] at stored
              simp only [Except.map, Option.bind_some, stored, Option.map_some, Except.ok.injEq,
                Option.some.injEq] at found
              exact ⟨key, record, Value.asKey_eq_some.mp keyed, stored, found⟩

/-! ## Ids -/

/-- Every record is stored under the id of one of the records created so far. -/
def Numbered (records : MemoryRecords) : Prop :=
  ∀ model id record, records.find? model id = some record →
    ∃ number ≤ records.created, id = Text.concat ["rec-", Text.ofNat number]

theorem numbered_empty : Numbered empty := by
  intro model id record found
  cases found

theorem newId_eq_iff (number : Nat) :
    records.newId = Text.concat ["rec-", Text.ofNat number] ↔ number = records.created + 1 := by
  constructor
  · intro same
    simp only [newId, Text.concat, List.flatten_cons, List.flatten_nil, List.append_nil,
      List.append_cancel_left_eq] at same
    exact (Text.ofNat_injective same).symm
  · rintro rfl
    rfl

/-- There is no record under the id of a new one. -/
theorem Numbered.find?_newId (numbered : Numbered records) (model : Text) :
    records.find? model records.newId = none := by
  cases found : records.find? model records.newId with
  | none => rfl
  | some record =>
      obtain ⟨number, created, same⟩ := numbered model records.newId record found
      have := (newId_eq_iff number).mp same
      omega

theorem Numbered.add (numbered : Numbered records) (model : Text) (record : Entries) :
    Numbered (records.add model record) := by
  intro other key stored found
  rw [find?_add] at found
  split at found
  · next same =>
      exact ⟨records.created + 1, Nat.le_refl _, same.2.symm⟩
  · obtain ⟨number, created, same⟩ := numbered other key stored found
    exact ⟨number, Nat.le_succ_of_le created, same⟩

theorem Numbered.putRecord (numbered : Numbered records) {model key : Text}
    {existing : Entries} (there : records.find? model key = some existing) (record : Entries) :
    Numbered (records.putRecord model key record) := by
  intro other id stored found
  rw [find?_putRecord] at found
  split at found
  · next same =>
      rw [← same.2]
      exact numbered model key existing there
  · exact numbered other id stored found

theorem Numbered.remove (numbered : Numbered records) (model key : Text) :
    Numbered (records.remove model key) := by
  intro other id stored found
  rw [find?_remove] at found
  split at found
  · cases found
  · exact numbered other id stored found

end GovernedRecords.MemoryRecords
