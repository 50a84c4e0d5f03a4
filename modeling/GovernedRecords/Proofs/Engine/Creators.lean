import GovernedRecords.Proofs.Definition.Check
import GovernedRecords.Proofs.Engine.Ownership
import GovernedRecords.Proofs.Pipeline.Denials
import GovernedRecords.Proofs.Pipeline.Values
import GovernedRecords.Proofs.Records.Reachable

/-!
# Who owns a new record

The owner of a new record is settled in three places: validation puts a value under an owner
field that is declared, the owner that the payload names is kept under one that is not, and
where there is no owner yet the record belongs to the principal.  Only the first of them may
come to an owner that does not read as the principal: a default of the field, the present
instant that stands in for a date, or an owner that reads otherwise once it is coerced
(`Validation.NewValue`).  A definition under which this does not happen keeps the owner of a
request (`KeepsOwner`), as every one does whose owner column is not declared
(`keepsOwner_of_undeclared`) or is of text and has no default (`keepsOwner_of_text`).  Whoever
creates a record then owns it and may go on with it (`creator_owns`).

The hypothesis is needed: a default of the owner field becomes the owner, and the creator is
refused (`default_becomes_owner`).
-/

set_option autoImplicit false

namespace GovernedRecords

/-! ## The owner among the values -/

namespace Validation

variable {value : Value}

/-- A value among all values is that of a field with the name. -/
theorem mem_of_get?_values {outcomes : List (Field × FieldOutcome)} {name : Text}
    (found : Entries.get? (values outcomes) name = some value) :
    ∃ field, (field, .value value) ∈ outcomes ∧ field.name = name := by
  refine putOutcomes_induction (fun entries => ∀ value, Entries.get? entries name = some value →
    ∃ field, (field, .value value) ∈ outcomes ∧ field.name = name) ?_ ?_ value found
  · intro value found
    cases found
  · intro entries field given member kept value found
    rw [Entries.get?_put] at found
    split at found
    · next same =>
        cases found
        exact ⟨field, member, same⟩
    · exact kept value found

/-- A value among those of a new record is the new value of a field with the name. -/
theorem newValue_of_get?_values {now : Instant} {entries : Entries} {fields : List Field}
    {outcomes : List (Field × FieldOutcome)} {name : Text}
    (done : fieldOutcomes now .create entries fields = .ok outcomes)
    (found : Entries.get? (values outcomes) name = some value) :
    ∃ field ∈ fields, field.name = name ∧
      NewValue now field (Entries.get entries name) value := by
  obtain ⟨field, member, rfl⟩ := mem_of_get?_values found
  obtain ⟨declared, each⟩ := fieldOutcomes_eq_ok done
  rcases newValue_of_fieldOutcome (each _ member) with new | ⟨update, -⟩
  · exact ⟨field, declared ▸ List.mem_map_of_mem member, rfl, new⟩
  · cases update

end Validation

namespace Run

variable [Host] {now : Instant} {definition : Definition} {request : RecordRequest} {field : Text}
  {record : NormalizedRecord}

/-- Whatever validation puts under a declared owner field of a new record is missing or reads as
the principal. -/
def KeepsOwner (definition : Definition) (now : Instant) (request : RecordRequest) : Prop :=
  ∀ field ∈ definition.fields, definition.owner? = some field.name → ∀ value,
    Validation.NewValue now field (payloadOwner definition request.payload) value →
      value.isMissing = true ∨ value.ReadsAs request.principal.id

/-- An owner field that is not declared keeps the owner. -/
theorem keepsOwner_of_undeclared (undeclared : ∀ field ∈ definition.fields,
    definition.owner? ≠ some field.name) : KeepsOwner definition now request :=
  fun field declared owned => absurd owned (undeclared field declared)

/-- A payload names the principal as the owner of a new record, or no one. -/
theorem payloadOwner_of_judgement {owner : Value} (owned : definition.owner? = some field)
    (member : request.principal.isAdmin = false)
    (judged : judgement definition request .create owner = .ok ()) :
    (payloadOwner definition request.payload).isMissing = true ∨
      (payloadOwner definition request.payload).ReadsAs request.principal.id := by
  have allowed := allowed_of_judgement judged
  rw [judgement, allowed] at judged
  cases missing : (payloadOwner definition request.payload).isMissing with
  | true => exact .inl rfl
  | false =>
      refine .inr (Value.sameText_eq_true_iff.mp ?_)
      simp only [createsForOther, owned, member, missing, Option.isSome_some, Bool.not_false,
        Bool.and_true, if_true] at judged
      cases same : (payloadOwner definition request.payload).sameText request.principal.id with
      | error error =>
          rw [same] at judged
          cases error <;> cases judged
      | ok alike =>
          rw [same] at judged
          cases alike with
          | true => rfl
          | false => cases judged

/-- A field of text takes an owner as it is, so without a default it keeps the owner. -/
theorem keepsOwner_of_text {owner : Value} (member : request.principal.isAdmin = false)
    (judged : judgement definition request .create owner = .ok ())
    (text : ∀ field ∈ definition.fields, definition.owner? = some field.name →
      (field.type = .string ∨ field.type = .text) ∧ field.default = none) :
    KeepsOwner definition now request := by
  intro field declared owned value outcome
  obtain ⟨type, free⟩ := text field declared owned
  cases outcome with
  | coerced present done =>
      have same : payloadOwner definition request.payload = value := by
        rcases type with type | type <;> rw [type] at done <;> cases done <;> rfl
      rw [← same]
      exact payloadOwner_of_judgement owned member judged
  | default absent given done =>
      rw [free] at given
      cases given
  | instant absent none date => rcases type with type | type <;> rw [type] at date <;> cases date

/-- The owner that is kept among the values reads as the principal, if it is there. -/
theorem readsAs_of_keepOwner {entries kept : Entries}
    {outcomes : List (Field × Validation.FieldOutcome)} (owned : definition.owner? = some field)
    (payload : request.payload = .object entries)
    (done : Validation.fieldOutcomes now .create entries definition.fields = .ok outcomes)
    (keeps : KeepsOwner definition now request)
    (named : (payloadOwner definition request.payload).isMissing = true ∨
      (payloadOwner definition request.payload).ReadsAs request.principal.id)
    (settled : keepOwner definition request.payload (Validation.values outcomes) = .ok kept)
    (present : (Entries.get kept field).isMissing = false) :
    (Entries.get kept field).ReadsAs request.principal.id := by
  unfold keepOwner at settled
  rw [owned] at settled
  simp only at settled
  split at settled
  · next undeclared =>
      simp only [Bool.and_eq_true, Bool.not_eq_true'] at undeclared
      rcases named with missing | same
      · rw [missing] at undeclared
        cases undeclared.2
      · cases shown : (payloadOwner definition request.payload).toText with
        | error error =>
            rw [shown] at settled
            cases settled
        | ok text =>
            rw [shown] at settled
            cases settled
            rw [Entries.get, Entries.get?_put_self]
            exact same.of_toText shown
  · cases settled
    · cases found : Entries.get? (Validation.values outcomes) field with
      | none =>
          rw [Entries.get, found] at present
          cases present
      | some value =>
          rw [Entries.get, found] at present ⊢
          obtain ⟨declared, member, rfl, new⟩ := Validation.newValue_of_get?_values done found
          have asked : payloadOwner definition request.payload =
              Entries.get entries declared.name := by
            simp only [payloadOwner, owned, payload]
          rw [← asked] at new
          rcases keeps declared member owned value new with missing | same
          · rw [Option.getD_some, missing] at present
            cases present
          · exact same

/-- **The owner among the values of a new record is the principal.** -/
theorem owner_of_validated {owner : Value} (owned : definition.owner? = some field)
    (member : request.principal.isAdmin = false)
    (identified : request.principal.id.isNull = false)
    (spoken : ∃ text, request.principal.id.toText = .ok text)
    (judged : judgement definition request .create owner = .ok ())
    (keeps : KeepsOwner definition now request)
    (valid : validated now definition request .create = .ok record) :
    (Entries.get record.values field).isNull = false ∧
      (Entries.get record.values field).ReadsAs request.principal.id := by
  obtain ⟨entries, outcomes, kept, payload, done, -, settled, values⟩ := validated_eq_ok valid
  have named := payloadOwner_of_judgement owned member judged
  rw [values]
  unfold stampOwner
  rw [owned]
  simp only [decide_true, Bool.true_and]
  split
  · rw [Entries.get, Entries.get?_put_self]
    obtain ⟨text, shown⟩ := spoken
    exact ⟨identified, text, shown, shown⟩
  · next present =>
      rw [Bool.not_eq_true] at present
      exact ⟨Value.isNull_of_not_isMissing present,
        readsAs_of_keepOwner owned payload done keeps named settled present⟩

end Run

/-! ## The record that was created -/

namespace Engine

variable [Host] {σ : Type} {definitions : DefinitionStore σ} {now stored : Instant}
  {cancel : Nat → Bool} {request : RecordRequest} {state final : State σ}
  {definition : Definition} {field : Text}

/-- A request that responds has loaded its definition and left the registry so. -/
theorem loaded_of_responded {trail : List Stage} {response : Response}
    (returned : (handle definitions (MemoryRecords.store stored) now cancel request).on state =
      (.ok ⟨trail, .ok response⟩, final)) :
    ∃ definition, (Registry.loadValue definitions now request.model).on state.1 =
      (.ok definition, final.1) := by
  have ended := RecordRequest.run_eq_ok_iff.mp returned
  have passage := Run.stages_eq_iff_passage.mp ended
  simp only [Operation.mapError_ok] at passage
  generalize result_eq : ((Except.ok response : Except Fault Response),
    (⟨final, trail⟩ : Run (State σ))) = result at passage
  cases passage with
  | answered admitted prepared ready answered =>
      obtain ⟨loaded, -, -⟩ := resolved_iff admitted.resolved
      cases after_of_ownerRead admitted.read
      rcases Run.performed _ _ with ⟨fault, same⟩ | ⟨answer, response, records, same, -, -⟩
      · cases answered.symm.trans same
      · cases answered.symm.trans same
        have left := congrArg (fun result => result.2.state.1) result_eq
        exact ⟨_, loaded.trans (Prod.ext rfl left.symm)⟩
  | _ => cases result_eq

/-- Every request of a principal to change or remove a record is admitted under a definition, as
long as the role has the action. -/
def MayGoOn (definitions : DefinitionStore σ) (definition : Definition) (model : Value)
    (principal : Principal) (id : Text) (state : State σ) : Prop :=
  ∀ (now stored : Instant) (cancel : Nat → Bool) (action : Action) (payload : Value),
    cancel 0 = false → cancel 1 = false → action.isMutating = true →
    (definition.actionsFor principal.role).has action = true →
    ∃ owner, Run.Admitted (fun name => (Registry.loadValue definitions now name).onFirst)
      (MemoryRecords.store stored).onSecond cancel
      ⟨model, .text action.name, principal, payload, .text id⟩ state state state definition action
      owner

/-- Who is the owner of a record in memory may go on with it. -/
theorem mayGoOn_of_owner {principal : Principal} {model : Value} {id : Text} {record : Entries}
    (loads : ∀ later, (Registry.loadValue definitions later model).on state.1 =
      (.ok definition, state.1))
    (owned : definition.owner? = some field) (member : principal.isAdmin = false)
    (named : id ≠ []) (there : state.2.find? definition.name id = some record)
    (known : (Entries.get record field).isNull = false)
    (same : (Entries.get record field).ReadsAs principal.id) :
    MayGoOn definitions definition model principal id state := by
  intro now stored cancel action payload began went mutating granted
  have needed : definition.needsOwner principal (some action) = true := by
    simp [Definition.needsOwner, mutating, owned, member]
  have column : definition.ownerField.getD [] = field := by
    rw [Definition.ownerField_of_owner? owned, Option.getD_some]
  refine ⟨Entries.get record field, began, ?_, went, ?_, ?_, ?_⟩
  · rw [Operation.on_onFirst, loads]
  · cases action <;> rfl
  · have found : Run.OwnerFound (MemoryRecords.store stored) definition
        ⟨model, .text action.name, principal, payload, .text id⟩ state.2
        (Entries.get record (definition.ownerField.getD [])) :=
      MemoryRecords.ownerFound_of_find? rfl there
    obtain ⟨answer, after, lookup, read⟩ := found.onSecond state.1
    rw [column] at read
    have truthy : (Value.text id).isTruthy = true := by simpa [Value.isTruthy] using named
    have fetched : Run.OwnerRead (MemoryRecords.store stored).onSecond definition
        ⟨model, .text action.name, principal, payload, .text id⟩ action state
        (Entries.get record field) after := .fetched needed truthy lookup read
    have unchanged := after_of_ownerRead fetched
    rwa [unchanged] at fetched
  · rw [Run.judgement, Definition.allowed_of_owner granted known same]
    have changes : action ≠ .create := by
      rintro rfl
      cases mutating
    simp [changes]

omit [Host] in
theorem newId_ne_nil (records : MemoryRecords) : records.newId ≠ [] := by
  intro empty
  cases empty

omit [Host] in
/-- The value that a stored record has for an owner field is the one among its values. -/
theorem get_owner_stamped (formed : definition.WellFormed) (owned : definition.owner? = some field)
    (id : Text) (createdAt updatedAt : Value) (values : Entries) :
    Entries.get (MemoryRecords.stamped id createdAt updatedAt values) field =
      Entries.get values field := by
  have apart : ∀ name ∈ identityColumns, name ∉ systemKeys := by decide
  have free : field ∉ systemKeys := by
    rcases formed.owned field owned with declared | identity
    · exact formed.unreserved field declared
    · exact apart field identity
  simp only [systemKeys, List.mem_cons, List.not_mem_nil, or_false, not_or] at free
  obtain ⟨notId, notCreated, notUpdated⟩ := free
  rw [Entries.get, MemoryRecords.get?_stamped, if_neg notUpdated, if_neg notCreated,
    if_neg notId, Entries.get]

/-- **The creator owns what it creates.**  Under a definition without problems that has an owner
field and keeps the owner of a request, a principal whose id has a text and who is no administrator
owns the record that the request creates: the record is stored and responded with, its value for
the owner field is not null and reads as the id of the principal, who may go on with it. -/
theorem creator_owns {checkedAt : Instant} {trail : List Stage} {response : Response}
    (clean : definition.problems checkedAt = .ok []) (owned : definition.owner? = some field)
    (loaded : ((Registry.loadValue definitions now request.model).on state.1).1 = .ok definition)
    (creates : Action.ofValue? request.action = some .create)
    (member : request.principal.isAdmin = false)
    (identified : request.principal.id.isNull = false)
    (spoken : ∃ text, request.principal.id.toText = .ok text)
    (keeps : Run.KeepsOwner definition now request)
    (returned : (handle definitions (MemoryRecords.store stored) now cancel request).on state =
      (.ok ⟨trail, .ok response⟩, final)) :
    ∃ id record owner, response = .record record ∧
      final.2.find? definition.name id = some record ∧
      Entries.get? record field = some owner ∧ owner.isNull = false ∧
      owner.ReadsAs request.principal.id ∧
      MayGoOn definitions definition request.model request.principal id final := by
  obtain ⟨other, left⟩ := loaded_of_responded returned
  rw [left] at loaded
  cases loaded
  have ended := handle_cases definitions now stored cancel request state
  simp only [returned] at ended
  rcases ended with ⟨never, -⟩ | ⟨_, _, same, responded⟩
  · exact absurd rfl (never trail response)
  · cases same
    cases responded with
    | @answered between definition action owner trail values response records admission answered =>
        cases admission.named.symm.trans creates
        obtain ⟨registry, again⟩ := admission.loaded
        cases again.symm.trans left
        obtain ⟨known, same⟩ : (Entries.get values.values field).isNull = false ∧
            (Entries.get values.values field).ReadsAs request.principal.id := by
          cases admission.prepared with
          | validated _ _ valid =>
              exact Run.owner_of_validated owned member identified spoken admission.judged keeps
                valid
          | unwritten reads => simp at reads
        cases answered with
        | created done =>
            obtain ⟨-, rfl, added⟩ := MemoryRecords.create_eq_ok done
            have formed := Definition.wellFormed_of_problems clean
            have owner := get_owner_stamped formed owned state.2.newId (.text stored.stamp)
              (.text stored.stamp) values.values
            rw [← owner] at known same
            have there := MemoryRecords.find?_add state.2 definition.name definition.name
              state.2.newId (MemoryRecords.stamped state.2.newId (.text stored.stamp)
                (.text stored.stamp) values.values)
            rw [if_pos ⟨rfl, rfl⟩, ← added] at there
            refine ⟨_, _, _, rfl, there, Entries.get?_of_get rfl known, known, same, ?_⟩
            exact mayGoOn_of_owner (Registry.loadValue_again left) owned member
              (newId_ne_nil _) there known same

end Engine

/-! ## Notes whose owner is a field -/

namespace Engine

/-- Notes with an owner field that is declared and may have a default. -/
def ownedNotes (default : Option Text) : Definition :=
  { noteDefinition with
    fields := [⟨"title", .string, true, false, none, none⟩,
      ⟨"ownerId", .string, false, false, default, none⟩] }

/-- The state before any run, with the definition of such notes stored. -/
def ownedStart (default : Option Text) : State MemoryDefinitions :=
  start ([("note", (ownedNotes default).toDocument)] : MemoryDefinitions)

/-- The manager who creates a note owns it. -/
theorem note_owned_by_creator :
    let now : Instant := ⟨0, by decide⟩
    ∃ trail response final,
      (handle MemoryDefinitions.store (MemoryRecords.store now) now (fun _ => false)
        (noteRequest "create" "Plan")).on (ownedStart none) =
          (.ok ⟨trail, .ok response⟩, final) ∧
      ∃ id record owner, response = .record record ∧ final.2.find? "note" id = some record ∧
        Entries.get? record "ownerId" = some owner ∧ owner.isNull = false ∧
        owner.ReadsAs (.text "u1") ∧
        MayGoOn MemoryDefinitions.store (ownedNotes none) (.text "note")
          ⟨.text "u1", .text "Manager"⟩ id final := by
  intro now
  have clean : (ownedNotes none).problems now = .ok [] := rfl
  have keeps : Run.KeepsOwner (ownedNotes none) now (noteRequest "create" "Plan") := by
    have judged : Run.judgement (ownedNotes none) (noteRequest "create" "Plan") .create .null =
        .ok () := rfl
    apply Run.keepsOwner_of_text rfl judged
    decide
  have returned : ∃ trail response final,
      (handle MemoryDefinitions.store (MemoryRecords.store now) now (fun _ => false)
        (noteRequest "create" "Plan")).on (ownedStart none) =
          (.ok ⟨trail, .ok response⟩, final) := ⟨_, _, _, rfl⟩
  obtain ⟨trail, response, final, returned⟩ := returned
  exact ⟨trail, response, final, returned,
    creator_owns clean rfl rfl rfl rfl rfl ⟨_, rfl⟩ keeps returned⟩

/-- Under a definition without problems, the default of the owner field becomes the owner of a
note that a manager creates, who is then refused to change it. -/
theorem default_becomes_owner :
    let now : Instant := ⟨0, by decide⟩
    let created := after MemoryDefinitions.store (ownedStart (some "u9"))
      [noteEvent "create" "Plan"]
    (ownedNotes (some "u9")).problems now = .ok [] ∧
      (created.2.find? "note" "rec-1").map (fun note => Entries.get note "ownerId") =
        some (.text "u9") ∧
      ((handle MemoryDefinitions.store (MemoryRecords.store now) now (fun _ => false)
        (noteRequest "update" "Draft")).on created).1 =
          .ok ⟨[.resolveModel, .authorize], .error Denial.notOwner.refusal⟩ :=
  ⟨rfl, rfl, rfl⟩

end Engine

end GovernedRecords
