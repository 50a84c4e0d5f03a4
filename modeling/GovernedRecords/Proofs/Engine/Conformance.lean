import GovernedRecords.Proofs.Definition.Check
import GovernedRecords.Proofs.Engine.Ownership
import GovernedRecords.Proofs.Pipeline.Values
import GovernedRecords.Proofs.Validation.Payload

/-!
# Stored records conform to their model

A record is made by a create, from defaults and the owner, and changed by updates, which may
leave out, set and clear fields; each time the record store adds its own keys.  While a
definition stays in force, every record of its model conforms to it after every run.

The invariant is that every single entry of a record is one the definition allows (`Sound`)
and that every required field has an entry (`Complete`).  Putting an allowed value keeps both,
and every step of a request does nothing else.
-/

set_option autoImplicit false

namespace GovernedRecords

/-- A record with an id conforms to a definition: its keys are those of fields, of the owner,
and of the record store; it carries its id; every required field has a value that is not null;
and every field but the owner has a value that fits it, if it has one. -/
structure Definition.Conforms (definition : Definition) (id : Text) (record : Entries) :
    Prop where
  keys : ∀ entry ∈ record, ∃ name, entry.1 = .text name ∧
    (name ∈ definition.fieldNames ∨ definition.owner? = some name ∨ name ∈ systemKeys)
  identified : Entries.get? record "id" = some (.text id)
  required : ∀ field ∈ definition.fields, field.required = true →
    ∃ value, Entries.get? record field.name = some value ∧ value.isNull = false
  typed : ∀ field ∈ definition.fields, definition.owner? ≠ some field.name →
    ∀ value, Entries.get? record field.name = some value → field.Fits value

namespace Definition

variable {definition : Definition} {values record changes : Entries} {name : Text} {value : Value}

/-! ## Allowed entries -/

/-- A value that a record may have under a key. -/
structure Allows (definition : Definition) (name : Text) (value : Value) : Prop where
  known : name ∈ definition.fieldNames ∨ definition.owner? = some name ∨ name ∈ systemKeys
  present : ∀ field ∈ definition.fields, field.name = name → field.required = true →
    value.isNull = false
  fits : ∀ field ∈ definition.fields, field.name = name → definition.owner? ≠ some name →
    field.Fits value

/-- Every entry is allowed. -/
def Sound (definition : Definition) (values : Entries) : Prop :=
  ∀ entry ∈ values, ∃ name, entry.1 = .text name ∧ definition.Allows name entry.2

/-- Every required field has an entry. -/
def Complete (definition : Definition) (values : Entries) : Prop :=
  ∀ field ∈ definition.fields, field.required = true →
    (Entries.get? values field.name).isSome

theorem Sound.put (sound : definition.Sound values) (allowed : definition.Allows name value) :
    definition.Sound (Entries.put name value values) := by
  intro entry member
  rcases Entries.mem_put member with rfl | old
  · exact ⟨name, rfl, allowed⟩
  · exact sound entry old

theorem Complete.put (complete : definition.Complete values) (name : Text) (value : Value) :
    definition.Complete (Entries.put name value values) :=
  fun field declared required => Entries.isSome_get?_put (complete field declared required)

theorem Sound.merge (sound : definition.Sound values) (changed : definition.Sound changes) :
    definition.Sound (Entries.merge values changes) := by
  refine Entries.merge_induction sound fun entries name value member kept => kept.put ?_
  obtain ⟨other, same, allowed⟩ := changed _ member
  cases same
  exact allowed

theorem Complete.merge (complete : definition.Complete values) (changes : Entries) :
    definition.Complete (Entries.merge values changes) :=
  Entries.merge_induction complete fun _ name value _ kept => kept.put name value

/-- A value that fits a field is allowed under its name. -/
theorem WellFormed.allows_of_fits (formed : WellFormed definition) {field : Field}
    (declared : field ∈ definition.fields) (fits : field.Fits value) :
    definition.Allows field.name value := by
  refine ⟨.inl (List.mem_map_of_mem declared), ?_, ?_⟩
  · intro other also same required
    cases formed.eq_of_name_eq also declared same
    rcases fits with ⟨present, -⟩ | ⟨-, free⟩
    · exact present
    · rw [free] at required
      cases required
  · intro other also same _
    cases formed.eq_of_name_eq also declared same
    exact fits

/-- The owner may be any value that is not null. -/
theorem allows_owner (owned : definition.owner? = some name) (present : value.isNull = false) :
    definition.Allows name value :=
  ⟨.inr (.inl owned), fun _ _ _ _ => present, fun _ _ _ foreign => absurd owned foreign⟩

/-- The keys of the record store are no fields. -/
theorem WellFormed.allows_system (formed : WellFormed definition) (reserved : name ∈ systemKeys)
    (value : Value) : definition.Allows name value := by
  have undeclared : ∀ field ∈ definition.fields, field.name ≠ name := by
    rintro field declared rfl
    exact formed.unreserved _ (List.mem_map_of_mem declared) reserved
  exact ⟨.inr (.inr reserved), fun field declared same => absurd same (undeclared field declared),
    fun field declared same => absurd same (undeclared field declared)⟩

/-! ## Stored records -/

/-- What is kept of every stored record. -/
structure Kept (definition : Definition) (id : Text) (record : Entries) : Prop where
  sound : definition.Sound record
  complete : definition.Complete record
  identified : Entries.get? record "id" = some (.text id)

theorem Kept.conforms {id : Text} (kept : definition.Kept id record) :
    definition.Conforms id record := by
  have allowed : ∀ name value, Entries.get? record name = some value →
      definition.Allows name value := by
    intro name value found
    obtain ⟨other, same, allowed⟩ := kept.sound _ (Entries.mem_of_get? found)
    cases same
    exact allowed
  refine ⟨?_, kept.identified, ?_, ?_⟩
  · intro entry member
    obtain ⟨name, same, allowed⟩ := kept.sound entry member
    exact ⟨name, same, allowed.known⟩
  · intro field declared required
    obtain ⟨value, found⟩ := Option.isSome_iff_exists.mp (kept.complete field declared required)
    exact ⟨value, found, (allowed _ _ found).present field declared rfl required⟩
  · intro field declared foreign value found
    exact (allowed _ _ found).fits field declared rfl foreign

/-- The record store adds its own keys. -/
theorem WellFormed.kept_stamped (formed : WellFormed definition)
    (sound : definition.Sound values) (complete : definition.Complete values) (id : Text)
    (createdAt updatedAt : Value) :
    definition.Kept id (MemoryRecords.stamped id createdAt updatedAt values) := by
  refine ⟨?_, ?_, ?_⟩
  · exact ((sound.put (formed.allows_system (by decide) _)).put
      (formed.allows_system (by decide) _)).put (formed.allows_system (by decide) _)
  · exact ((complete.put _ _).put _ _).put _ _
  · rw [MemoryRecords.stamped, Entries.get?_put_of_ne _ _ (by decide),
      Entries.get?_put_of_ne _ _ (by decide), Entries.get?_put_self]

/-! ## Values of a request -/

theorem sound_keepOwner [Host] {payload : Value} {kept : Entries}
    (keeps : Run.keepOwner definition payload values = .ok kept)
    (sound : definition.Sound values) : definition.Sound kept :=
  Run.keepOwner_induction keeps sound fun _ _ _ owned _ sound =>
    sound.put (allows_owner owned rfl)

theorem complete_keepOwner [Host] {payload : Value} {kept : Entries}
    (keeps : Run.keepOwner definition payload values = .ok kept)
    (complete : definition.Complete values) : definition.Complete kept :=
  Run.keepOwner_induction keeps complete fun _ _ _ _ _ complete => complete.put _ _

theorem sound_stampOwner {principal : Principal} (identified : principal.id.isNull = false)
    (sound : definition.Sound values) (action : Action) :
    definition.Sound (Run.stampOwner definition principal action values) :=
  Run.stampOwner_induction action sound fun _ _ owned sound =>
    sound.put (allows_owner owned identified)

theorem complete_stampOwner (complete : definition.Complete values) (principal : Principal)
    (action : Action) :
    definition.Complete (Run.stampOwner definition principal action values) :=
  Run.stampOwner_induction action complete fun _ _ _ complete => complete.put _ _

/-- The values of a valid request are allowed, and those of a create are complete. -/
theorem WellFormed.validated_sound [Host] (formed : WellFormed definition) {now : Instant}
    {request : RecordRequest} {action : Action} {record : NormalizedRecord}
    (identified : request.principal.id.isNull = false)
    (valid : Run.validated now definition request action = .ok record) :
    definition.Sound record.values ∧
      (action = .create → definition.Complete record.values) := by
  rw [Run.validated] at valid
  split at valid
  · cases valid
  · cases valid
  · next normal checked =>
    split at valid
    · cases valid
    · next kept keeps =>
      cases valid
      constructor
      · refine sound_stampOwner identified (sound_keepOwner keeps ?_) action
        intro entry member
        obtain ⟨field, declared, same, fits⟩ := Validation.validate_fits checked member
        exact ⟨field.name, same, formed.allows_of_fits declared fits⟩
      · rintro rfl
        refine complete_stampOwner (complete_keepOwner keeps ?_) request.principal .create
        exact fun field declared required =>
          Validation.validate_complete checked declared required

end Definition

/-! ## Runs -/

namespace Engine

section Runs

variable [Host] {σ : Type} {definitions : DefinitionStore σ} {definition : Definition}

/-- A definition stays in force during a run: whatever a request loads that has its name is
this definition. -/
def InForce (definitions : DefinitionStore σ) (definition : Definition) :
    State σ → List Event → Prop
  | _, [] => True
  | state, event :: rest =>
    (∀ now stored cancel request loaded registry, event = .request now stored cancel request →
      (Registry.loadValue definitions now request.model).on state.1 = (.ok loaded, registry) →
      loaded.name = definition.name → loaded = definition) ∧
    InForce definitions definition (step definitions state event) rest

/-- An event whose principal, if it is a request, has an id. -/
def Event.Identified : Event → Prop
  | .call _ _ => True
  | .request _ _ _ asked => asked.principal.id.isNull = false

/-- Every record of the model of a definition is kept as it should be. -/
def RecordsKept (definition : Definition) (records : MemoryRecords) : Prop :=
  ∀ id record, records.find? definition.name id = some record → definition.Kept id record

/-- The step of an action under the definition keeps the records of its model. -/
theorem RecordsKept.recordStep (formed : definition.WellFormed) {now stored : Instant}
    {cancel : Nat → Bool} {request : RecordRequest} {action : Action} {trail : List Stage}
    {record : NormalizedRecord} {records after : MemoryRecords}
    (kept : RecordsKept definition records)
    (identified : request.principal.id.isNull = false)
    (prepared : Run.Prepared now cancel request definition action trail record)
    (stepped : RecordStep stored definition request record records action after) :
    RecordsKept definition after := by
  intro id found there
  cases stepped with
  | unchanged => exact kept id found there
  | created =>
      rw [MemoryRecords.find?_add] at there
      split at there
      · next same =>
        obtain ⟨-, rfl⟩ := same
        cases there
        cases prepared with
        | validated _ _ valid =>
            obtain ⟨sound, complete⟩ := formed.validated_sound identified valid
            exact formed.kept_stamped sound (complete rfl) _ _ _
        | unwritten reads => simp at reads
      · exact kept id found there
  | updated _ _ existed =>
      rw [MemoryRecords.find?_putRecord] at there
      split at there
      · next same =>
        obtain ⟨-, rfl⟩ := same
        cases there
        have before := kept _ _ existed
        cases prepared with
        | validated _ _ valid =>
            obtain ⟨sound, -⟩ := formed.validated_sound identified valid
            exact formed.kept_stamped (before.sound.merge sound) (before.complete.merge _) _ _ _
        | unwritten reads => simp at reads
      · exact kept id found there
  | removed =>
      rw [MemoryRecords.find?_remove] at there
      split at there
      · cases there
      · exact kept id found there

omit [Host] in
/-- A step under a definition of another name leaves the records of a model alone. -/
theorem find?_of_recordStep {other : Definition} {stored : Instant} {request : RecordRequest}
    {action : Action} {record : NormalizedRecord} {records after : MemoryRecords}
    (different : other.name ≠ definition.name)
    (stepped : RecordStep stored other request record records action after) (id : Text) :
    after.find? definition.name id = records.find? definition.name id := by
  cases stepped with
  | unchanged => rfl
  | created => rw [MemoryRecords.find?_add, if_neg fun same => different same.1]
  | updated => rw [MemoryRecords.find?_putRecord, if_neg fun same => different same.1]
  | removed => rw [MemoryRecords.find?_remove, if_neg fun same => different same.1]

/-- What depends only on the records of the model of a definition in force, and is kept by every
action under it, holds after the run. -/
theorem InForce.induction {holds : MemoryRecords → Prop} {state : State σ} {events : List Event}
    (inForce : InForce definitions definition state events)
    (ownModel : ∀ {records after : MemoryRecords},
      (∀ id, after.find? definition.name id = records.find? definition.name id) →
      holds records → holds after)
    (kept : ∀ {now stored cancel request}, .request now stored cancel request ∈ events →
      ∀ {action trail record records response after},
        Run.Prepared now cancel request definition action trail record →
        Run.Answered stored definition request record records action response after →
        holds records → holds after)
    (before : holds state.2) : holds (after definitions state events).2 := by
  induction events generalizing state with
  | nil => exact before
  | cons event rest ih =>
      obtain ⟨loads, later⟩ := inForce
      refine ih later (fun member => kept (List.mem_cons_of_mem _ member)) ?_
      cases event with
      | call => exact before
      | request now stored cancel request =>
          rw [step]
          rcases handle_cases definitions now stored cancel request state with
            ⟨-, same⟩ | ⟨_, _, -, responded⟩
          · rwa [same]
          · cases responded with
            | @answered _ loaded _ _ _ _ _ _ admission answered =>
                obtain ⟨registry, load⟩ := admission.loaded
                by_cases named : loaded.name = definition.name
                · cases loads now stored cancel request loaded registry rfl load named
                  exact kept List.mem_cons_self admission.prepared answered before
                · exact ownModel (find?_of_recordStep named (recordStep_of_answered answered))
                    before

theorem RecordsKept.after (formed : definition.WellFormed) {state : State σ}
    {events : List Event} (kept : RecordsKept definition state.2)
    (inForce : InForce definitions definition state events)
    (identified : ∀ event ∈ events, event.Identified) :
    RecordsKept definition (after definitions state events).2 := by
  refine inForce.induction ?_ ?_ kept
  · intro records after same kept id record there
    exact kept id record (same id ▸ there)
  · intro now stored cancel request asked action trail record records response after prepared
      answered kept
    exact kept.recordStep formed (identified _ asked) prepared (recordStep_of_answered answered)

/-- **Every stored record conforms to its model.**  While a definition without problems stays
in force, after any run of an engine that starts without records every record of its model
conforms to it. -/
theorem records_conform (definitions : DefinitionStore σ) (initial : σ) {definition : Definition}
    {checkedAt : Instant} (clean : definition.problems checkedAt = .ok []) {events : List Event}
    (inForce : InForce definitions definition (start initial) events)
    (identified : ∀ event ∈ events, event.Identified) {id : Text} {record : Entries}
    (there : (after definitions (start initial) events).2.find? definition.name id =
      some record) : definition.Conforms id record := by
  have formed := Definition.wellFormed_of_problems clean
  have kept : RecordsKept definition (after definitions (start initial) events).2 := by
    refine RecordsKept.after formed ?_ inForce identified
    intro id record found
    cases found
  exact (kept id record there).conforms

end Runs

/-- The first note conforms to the definition of notes. -/
theorem first_note_conforms : noteDefinition.Conforms "rec-1" (firstNote "Plan") := by
  have clean : noteDefinition.problems ⟨0, by decide⟩ = .ok [] := rfl
  have loaded : ((Registry.loadValue MemoryDefinitions.store ⟨0, by decide⟩ "note").on
      noteStart.1).1 = .ok noteDefinition := rfl
  have inForce : InForce MemoryDefinitions.store noteDefinition noteStart
      [noteEvent "create" "Plan"] := by
    refine ⟨?_, trivial⟩
    intro now stored cancel request other registry asked load _
    cases asked
    have same := (congrArg Prod.fst load).symm.trans loaded
    cases same
    rfl
  have identified : ∀ event ∈ [noteEvent "create" "Plan"], event.Identified := by
    intro event member
    cases List.mem_singleton.mp member
    rfl
  exact records_conform MemoryDefinitions.store _ clean inForce identified rfl

end Engine

end GovernedRecords
