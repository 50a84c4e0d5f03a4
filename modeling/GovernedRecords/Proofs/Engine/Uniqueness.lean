import GovernedRecords.Proofs.Engine.Conformance
import GovernedRecords.Proofs.Pipeline.Values
import GovernedRecords.Proofs.Records.Reachable
import GovernedRecords.Proofs.Value.Equality

/-!
# Unique values stay unique

The record store looks for a value that another record has when a record is created and when
changes are merged into one, and it looks from one side: whether what is stored equals what is
new.  While a definition stays in force, no two records of its model have values under a unique
field that are not null and equal, whichever of them is asked (`Engine.unique_values_differ`).

The invariant is that the records hold proper values, for which equality is symmetric, and that
the values of unique fields are apart (`Unshared`).  Writing a record keeps it when the values
of the record were free (`Unshared.write`).
-/

set_option autoImplicit false

namespace GovernedRecords

/-! ## Proper values -/

/-- All values of some entries are proper. -/
def Entries.HoldProper (entries : Entries) : Prop := ∀ entry ∈ entries, entry.2.IsProper

namespace Entries.HoldProper

variable {entries changes : Entries} {name : Text} {value : Value}

theorem put (proper : entries.HoldProper) (given : value.IsProper) (name : Text) :
    (Entries.put name value entries).HoldProper := by
  intro entry member
  rcases Entries.mem_put member with rfl | old
  · exact given
  · exact proper entry old

theorem merge (proper : entries.HoldProper) (given : changes.HoldProper) :
    (Entries.merge entries changes).HoldProper :=
  Entries.merge_induction proper fun _ name _ member kept => kept.put (given _ member) name

theorem get (proper : entries.HoldProper) (name : Text) : (Entries.get entries name).IsProper := by
  rw [Entries.get]
  cases read : Entries.get? entries name with
  | none => trivial
  | some value => exact proper _ (Entries.mem_of_get? read)

theorem stamped (proper : entries.HoldProper) (id : Text) {createdAt : Value}
    (given : createdAt.IsProper) (stamp : Text) :
    Entries.HoldProper (MemoryRecords.stamped id createdAt (.text stamp) entries) :=
  ((proper.put (Value.isProper_text id) _).put given _).put (Value.isProper_text stamp) _

end Entries.HoldProper

theorem FieldType.coerce_proper {now : Instant} {type : FieldType} {value result : Value}
    (proper : value.IsProper) (done : type.coerce now value = .ok result) : result.IsProper := by
  cases type with
  | string =>
      cases done
      exact proper
  | text =>
      cases done
      exact proper
  | number =>
      rw [FieldType.coerce] at done
      cases read : Coercion.number value with
      | error cause => rw [read] at done; cases done
      | ok number => rw [read] at done; cases done; trivial
  | boolean =>
      rw [FieldType.coerce] at done
      cases read : Coercion.boolean value with
      | error cause => rw [read] at done; cases done
      | ok truth => rw [read] at done; cases done; trivial
  | date =>
      rw [FieldType.coerce] at done
      cases read : Coercion.date now value with
      | error cause => rw [read] at done; cases done
      | ok stamp => rw [read] at done; cases done; trivial

/-- The value that validation yields for a field is proper when those of the payload are. -/
theorem Validation.fieldOutcome_proper {now : Instant} {mode : Mode} {field : Field}
    {entries : Entries} {value : Value} (proper : entries.HoldProper)
    (done : fieldOutcome now mode entries field = .ok (.value value)) : value.IsProper := by
  rcases newValue_of_fieldOutcome done with new | ⟨-, rfl, -⟩
  · cases new with
    | coerced _ done => exact FieldType.coerce_proper (proper.get _) done
    | default _ _ done => exact FieldType.coerce_proper (Value.isProper_text _) done
    | instant => exact Value.isProper_text _
  · trivial

/-- A request for a proper payload writes proper values. -/
theorem Run.validated_proper [Host] {now : Instant} {definition : Definition}
    {request : RecordRequest} {action : Action} {record : NormalizedRecord}
    (payload : request.payload.IsProper) (principal : request.principal.id.IsProper)
    (valid : Run.validated now definition request action = .ok record) :
    record.values.HoldProper := by
  refine Run.validated_induction Entries.HoldProper valid (List.forall_mem_nil _) ?_
    (fun _ name _ _ _ kept => kept.put (Value.isProper_text _) name)
    (fun _ name _ kept => kept.put principal name)
  intro given entries field value same _ done kept
  rw [same] at payload
  have proper : Entries.HoldProper given :=
    fun entry member => (Value.entriesProper_iff.mp payload.2 entry member).2
  exact kept.put (Validation.fieldOutcome_proper proper done) field.name

/-! ## Free values -/

namespace MemoryRecords

/-- When the values of a record are free, no other record has the value of a unique field. -/
theorem free_of_requireFree {records : MemoryRecords} {model : Text} {values : Entries}
    {unique : List Text} {except : Option Text}
    (free : records.requireFree model values unique except = .ok ()) {field : Text}
    (declared : field ∈ unique) (present : (Entries.get values field).isNull = false)
    {id : Text} {another : Entries} (there : records.find? model id = some another)
    (other : some id ≠ except) :
    (Entries.get another field).equals (Entries.get values field) = false := by
  unfold requireFree at free
  split at free
  · cases free
  · next none =>
      have untaken := List.find?_eq_none.mp none field declared
      simp only [present, Bool.not_false, Bool.true_and, isTaken, Bool.not_eq_true,
        List.any_eq_false] at untaken
      simpa [other] using untaken (id, another) (Keyed.mem_of_get? there)

end MemoryRecords

/-! ## The invariant -/

theorem Value.equals_null (value : Value) : value.equals .null = value.isNull := by
  cases value <;> simp [Value.equals, Value.isNull, Value.numeric?, Value.isText]

/-- The records of the model of a definition hold proper values, and no two of them share a
value of a unique field. -/
structure Unshared (definition : Definition) (records : MemoryRecords) : Prop where
  proper : ∀ id record, records.find? definition.name id = some record → record.HoldProper
  apart : ∀ field ∈ definition.fields, field.unique = true → ∀ id other record another,
    records.find? definition.name id = some record →
    records.find? definition.name other = some another → id ≠ other →
    (Entries.get record field.name).isNull = false →
    (Entries.get record field.name).equals (Entries.get another field.name) = false

namespace Unshared

variable {definition : Definition} {records after : MemoryRecords} {id : Text} {record : Entries}

/-- Writing a record whose values are free. -/
theorem write (unshared : Unshared definition records) (proper : record.HoldProper)
    (free : ∀ field ∈ definition.fields, field.unique = true →
      (Entries.get record field.name).isNull = false → ∀ other another, other ≠ id →
      records.find? definition.name other = some another →
      (Entries.get another field.name).equals (Entries.get record field.name) = false)
    (written : ∀ other, after.find? definition.name other =
      if id = other then some record else records.find? definition.name other) :
    Unshared definition after where
  proper other another there := by
    rw [written] at there
    split at there
    · cases there
      exact proper
    · exact unshared.proper other another there
  apart field declared unique first second one two there also different present := by
    rw [written] at there also
    split at there
    · next same =>
        subst same
        cases there
        rw [if_neg different] at also
        -- The store has looked from the other side.
        rw [← Bool.not_eq_true]
        intro equal
        have back := Value.equals_symm _ (proper.get field.name) _ equal
        rw [free field declared unique present second two (Ne.symm different) also] at back
        cases back
    · next other =>
        split at also
        · cases also
          cases null : (Entries.get record field.name).isNull with
          | false => exact free field declared unique null first one (Ne.symm other) there
          | true =>
              have cleared : Entries.get record field.name = .null := by
                cases found : Entries.get record field.name <;> simp_all [Value.isNull]
              rw [cleared, Value.equals_null, present]
        · exact unshared.apart field declared unique first second one two there also different
            present

theorem remove (unshared : Unshared definition records) (model id : Text) :
    Unshared definition (records.remove model id) where
  proper other another there := by
    rw [MemoryRecords.find?_remove] at there
    split at there
    · cases there
    · exact unshared.proper other another there
  apart field declared unique first second one two there also different present := by
    rw [MemoryRecords.find?_remove] at there also
    split at there
    · cases there
    · split at also
      · cases also
      · exact unshared.apart field declared unique first second one two there also different
          present

/-- The record store's keys are no unique fields, so stamping leaves their values alone. -/
theorem get_stamped (formed : definition.WellFormed) {field : Field}
    (declared : field ∈ definition.fields) (id : Text) (createdAt updatedAt : Value)
    (values : Entries) :
    Entries.get (MemoryRecords.stamped id createdAt updatedAt values) field.name =
      Entries.get values field.name := by
  have unreserved := formed.unreserved field.name (List.mem_map_of_mem declared)
  simp only [systemKeys, List.mem_cons, List.not_mem_nil, or_false, not_or] at unreserved
  rw [Entries.get, MemoryRecords.get?_stamped, if_neg unreserved.2.2, if_neg unreserved.2.1,
    if_neg unreserved.1, Entries.get]

/-- Writing stamped values that the record store found free, whether it left out the record
itself or there was none. -/
theorem write_stamped (formed : definition.WellFormed) (unshared : Unshared definition records)
    {values : Entries} {unique : List Text} {except : Option Text} {createdAt : Value}
    {stamp : Text} (proper : values.HoldProper) (created : createdAt.IsProper)
    (declared : unique = definition.uniqueFields)
    (free : records.requireFree definition.name values unique except = .ok ())
    (skipped : except = none ∨ except = some id)
    (written : ∀ other, after.find? definition.name other =
      if id = other then some (MemoryRecords.stamped id createdAt (.text stamp) values)
      else records.find? definition.name other) :
    Unshared definition after := by
  refine unshared.write (proper.stamped id created stamp) ?_ written
  intro field member asked present other another different there
  rw [get_stamped formed member] at present ⊢
  have named : field.name ∈ unique :=
    declared ▸ List.mem_map_of_mem (List.mem_filter.mpr ⟨member, asked⟩)
  refine MemoryRecords.free_of_requireFree free named present there ?_
  rcases skipped with rfl | rfl
  · simp
  · simpa using different

end Unshared

namespace Engine

section Runs

variable [Host] {σ : Type} {definitions : DefinitionStore σ} {definition : Definition}

/-- What an action under the definition did to answer keeps its records unshared. -/
theorem unshared_of_answered (formed : definition.WellFormed) {now stored : Instant}
    {cancel : Nat → Bool} {request : RecordRequest} {action : Action} {trail : List Stage}
    {record : NormalizedRecord} {records after : MemoryRecords} {response : Response}
    (unshared : Unshared definition records) (payload : request.payload.IsProper)
    (principal : request.principal.id.IsProper)
    (prepared : Run.Prepared now cancel request definition action trail record)
    (answered : Run.Answered stored definition request record records action response after) :
    Unshared definition after := by
  have written : action = .create ∨ action = .update →
      record.values.HoldProper ∧ record.uniqueFields = definition.uniqueFields := by
    intro writes
    cases prepared with
    | unwritten reads => exact absurd writes reads
    | validated _ _ valid =>
        obtain ⟨_, _, _, _, _, uniqueFields, _⟩ := Run.validated_eq_ok valid
        exact ⟨Run.validated_proper payload principal valid, uniqueFields⟩
  cases answered with
  | created done =>
      obtain ⟨proper, declared⟩ := written (.inl rfl)
      obtain ⟨free, rfl, rfl⟩ := MemoryRecords.create_eq_ok done
      have read := MemoryRecords.find?_add records definition.name definition.name
      simp only [true_and] at read
      exact unshared.write_stamped formed proper (Value.isProper_text stored.stamp) declared free
        (.inl rfl) fun other => read other _
  | found => exact unshared
  | listed => exact unshared
  | updated _ done =>
      obtain ⟨proper, declared⟩ := written (.inr rfl)
      obtain ⟨key, existing, -, there, free, rfl, rfl⟩ := MemoryRecords.update_eq_ok done
      have before := unshared.proper key existing there
      have read := MemoryRecords.find?_putRecord records definition.name key definition.name
      simp only [true_and] at read
      exact unshared.write_stamped formed (before.merge proper) (before.get "createdAt") declared
        free (.inr rfl) fun other => read other _
  | removed _ done =>
      obtain ⟨key, _, -, -, rfl⟩ := MemoryRecords.delete_eq_true done
      exact unshared.remove _ _

/-- An event whose payload and principal, if it is a request, are proper values. -/
def Event.IsProper : Event → Prop
  | .call _ _ => True
  | .request _ _ _ asked => asked.payload.IsProper ∧ asked.principal.id.IsProper

omit [Host] in
/-- What depends only on the records of the model. -/
theorem unshared_of_same {records after : MemoryRecords}
    (same : ∀ id, after.find? definition.name id = records.find? definition.name id)
    (unshared : Unshared definition records) : Unshared definition after where
  proper id record there := unshared.proper id record (same id ▸ there)
  apart field declared unique id other record another there also :=
    unshared.apart field declared unique id other record another (same id ▸ there)
      (same other ▸ also)

/-- **No two records share a unique value.**  While a definition without problems stays in
force, after any run of an engine that starts without records two different records of its model
have no values under a unique field that are not null and equal. -/
theorem unique_values_differ (definitions : DefinitionStore σ) (initial : σ)
    {definition : Definition} {checkedAt : Instant}
    (clean : definition.problems checkedAt = .ok []) {events : List Event}
    (inForce : InForce definitions definition (start initial) events)
    (proper : ∀ event ∈ events, event.IsProper) {field : Field}
    (declared : field ∈ definition.fields) (unique : field.unique = true) {id other : Text}
    {record another : Entries}
    (there : (after definitions (start initial) events).2.find? definition.name id = some record)
    (also : (after definitions (start initial) events).2.find? definition.name other =
      some another) (different : id ≠ other)
    (present : (Entries.get record field.name).isNull = false) :
    (Entries.get record field.name).equals (Entries.get another field.name) = false := by
  have formed := Definition.wellFormed_of_problems clean
  have unshared : Unshared definition (after definitions (start initial) events).2 := by
    refine inForce.induction unshared_of_same ?_ ⟨?_, ?_⟩
    · intro now stored cancel request asked action trail record records response after prepared
        answered kept
      obtain ⟨payload, principal⟩ := proper _ asked
      exact unshared_of_answered formed kept payload principal prepared answered
    · intro id record found
      cases found
    · intro field _ _ id other record another found
      cases found
  exact unshared.apart field declared unique id other record another there also different present

end Runs

/-- Notes whose titles are unique. -/
def titledDefinition : Definition :=
  { noteDefinition with fields := [⟨"title", .string, true, true, none, none⟩] }

/-- Two notes, of which the first does not get the title of the second. -/
def titledEvents : List Event :=
  [noteEvent "create" "Plan", noteEvent "create" "Draft", noteEvent "update" "Draft"]

/-- The titles of the two notes differ. -/
theorem titles_differ :
    let records := (after MemoryDefinitions.store
      (start [("note", titledDefinition.toDocument)]) titledEvents).2
    ∃ first second, records.find? "note" "rec-1" = some first ∧
      records.find? "note" "rec-2" = some second ∧
      (Entries.get first "title").equals (Entries.get second "title") = false := by
  have clean : titledDefinition.problems ⟨0, by decide⟩ = .ok [] := rfl
  have inForce : InForce MemoryDefinitions.store titledDefinition
      (start [("note", titledDefinition.toDocument)]) titledEvents := by
    refine ⟨?_, ?_, ?_, trivial⟩
    all_goals
      intro now stored cancel request loaded registry asked load _
      cases asked
      have same : some loaded = some titledDefinition :=
        (congrArg (fun result => result.1.toOption) load).symm.trans (by decide +kernel)
      cases same
      rfl
  have proper : ∀ event ∈ titledEvents, event.IsProper := by
    intro event member
    have payload : ∀ action title, Event.IsProper (noteEvent action title) :=
      fun action title => ⟨⟨Value.apart_texts ["title"] (List.nodup_singleton _),
        ⟨trivial, trivial⟩, trivial⟩, trivial⟩
    simp only [titledEvents, List.mem_cons, List.not_mem_nil, or_false] at member
    rcases member with rfl | rfl | rfl <;> exact payload _ _
  intro records
  obtain ⟨first, there⟩ : ∃ first, records.find? "note" "rec-1" = some first :=
    Option.isSome_iff_exists.mp (by decide +kernel)
  obtain ⟨second, also⟩ : ∃ second, records.find? "note" "rec-2" = some second :=
    Option.isSome_iff_exists.mp (by decide +kernel)
  have titled : ((records.find? "note" "rec-1").map fun note =>
      (Entries.get note "title").isNull) = some false := by decide +kernel
  rw [there] at titled
  have declared : (⟨"title", .string, true, true, none, none⟩ : Field) ∈ titledDefinition.fields :=
    List.mem_cons_self
  exact ⟨first, second, there, also, unique_values_differ MemoryDefinitions.store _ clean inForce
    proper declared rfl there also (by decide) (Option.some.inj titled)⟩

end Engine

end GovernedRecords
