import GovernedRecords.Proofs.Definition.Plain
import GovernedRecords.Proofs.Http.Administrators
import GovernedRecords.Proofs.Json.Sendable
import GovernedRecords.Proofs.Pipeline.Values
import GovernedRecords.Proofs.Records.Reachable

/-!
# An error means that no record was written

The engine writes records before the response is made, so an error after that leaves a record
behind.  Whatever a request leads to, the records are afterwards as they were, or the engine
responded and its response is the body of a reply without an error (`answer_cases`).  Such a
reply still turns into an internal error when it cannot be written: a record that was stored holds
a number that is not finite or a lone surrogate.

With records that can be sent, an error means that no record was written
(`error_wrote_nothing`).  They stay so under clean requests (`Clean`), for which the record in the
body, the id of the principal and the definition can be sent, and so after every run of them
(`Reached.sendable`).  A request that is not clean writes behind an error
(`unsendable_note_stored`).
-/

set_option autoImplicit false

namespace GovernedRecords

open Operation

/-! ## The values of a request -/

/-- A value that is coerced can be sent if it could before. -/
theorem FieldType.isSendable_coerce {now : Instant} {type : FieldType} {value result : Value}
    (present : value.isNull = false) (sendable : value.isSendable = true)
    (done : type.coerce now value = .ok result) : result.isSendable = true := by
  have holds := (FieldType.coerce_eq_ok present done).2
  cases type with
  | string =>
      cases done
      exact sendable
  | text =>
      cases done
      exact sendable
  | number =>
      obtain ⟨number, rfl, finite⟩ := holds
      exact finite
  | boolean =>
      obtain ⟨truth, rfl⟩ := holds
      rfl
  | date =>
      obtain ⟨instant, rfl⟩ := holds
      exact Value.isSendable_text_iff.mpr instant.isPlain_stamp

/-- What validation yields for a plain field of a payload that can be sent can be sent. -/
theorem Validation.isSendable_of_fieldOutcome {now : Instant} {mode : Mode} {field : Field}
    {entries : Entries} {value : Value} (plain : field.IsPlain)
    (sendable : Entries.areSendable entries = true)
    (done : fieldOutcome now mode entries field = .ok (.value value)) :
    value.isSendable = true := by
  rcases newValue_of_fieldOutcome done with new | ⟨-, rfl, -⟩
  · cases new with
    | coerced present done =>
        exact FieldType.isSendable_coerce (Value.isNull_of_not_isMissing present)
          (Entries.isSendable_get sendable _) done
    | default _ given done =>
        exact FieldType.isSendable_coerce rfl
          (Value.isSendable_text_iff.mpr (plain.default _ given)) done
    | instant => exact Value.isSendable_text_iff.mpr now.isPlain_stamp
  · rfl

/-- The values of a request can be sent when its payload and its principal can, under a plain
definition. -/
theorem Run.areSendable_validated [Host] {now : Instant} {definition : Definition}
    {request : RecordRequest} {action : Action} {record : NormalizedRecord}
    (plain : definition.IsPlain) (payload : request.payload.isSendable = true)
    (principal : request.principal.id.isSendable = true)
    (valid : validated now definition request action = .ok record) :
    Entries.areSendable record.values = true := by
  have column : ∀ name, definition.owner? = some name → name.IsPlain := fun name owned =>
    plain.owner _ (Definition.ownerField_of_owner? owned)
  have owner : (payloadOwner definition request.payload).isSendable = true := by
    unfold payloadOwner
    split
    · next entries given =>
        rw [given] at payload
        exact Entries.isSendable_get payload _
    · rfl
  refine validated_induction (fun entries => Entries.areSendable entries = true) valid rfl ?_ ?_ ?_
  · intro given entries field value same declared done kept
    rw [same] at payload
    have sent := Validation.isSendable_of_fieldOutcome (plain.fields _ declared) payload done
    exact Entries.areSendable_put (plain.fields _ declared).name sent kept
  · intro entries name text owned shown kept
    rw [Value.toText_eq_ok shown]
    exact Entries.areSendable_put (column name owned)
      (Value.isSendable_text_iff.mpr (Value.isPlain_display owner)) kept
  · intro entries name owned kept
    exact Entries.areSendable_put (column name owned) principal kept

/-! ## Records that can be sent -/

namespace MemoryRecords

variable {records : MemoryRecords} {id : Text}

/-- Every record in memory can be sent, and so can its id. -/
def Sendable (records : MemoryRecords) : Prop :=
  ∀ model id record, records.find? model id = some record →
    id.IsPlain ∧ Entries.areSendable record = true

theorem sendable_empty : Sendable empty := by
  intro model id record found
  cases found

theorem isPlain_newId (records : MemoryRecords) : records.newId.IsPlain := by
  refine Text.isPlain_concat ?_
  simp only [List.forall_mem_cons]
  exact ⟨Text.isPlain_ofString, Text.isPlain_ofNat _, List.forall_mem_nil _⟩

theorem areSendable_stamped {createdAt updatedAt : Value} {values : Entries} (plain : id.IsPlain)
    (created : createdAt.isSendable = true) (updated : updatedAt.isSendable = true)
    (sendable : Entries.areSendable values = true) :
    Entries.areSendable (stamped id createdAt updatedAt values) = true :=
  Entries.areSendable_put Text.isPlain_ofString updated
    (Entries.areSendable_put Text.isPlain_ofString created
      (Entries.areSendable_put Text.isPlain_ofString (Value.isSendable_text_iff.mpr plain)
        sendable))

theorem Sendable.putRecord (sendable : records.Sendable) {model : Text} {record : Entries}
    (plain : id.IsPlain) (sent : Entries.areSendable record = true) :
    (records.putRecord model id record).Sendable := by
  intro other key stored found
  rw [find?_putRecord] at found
  split at found
  · next same =>
      cases found
      exact ⟨same.2 ▸ plain, sent⟩
  · exact sendable other key stored found

theorem Sendable.remove (sendable : records.Sendable) (model id : Text) :
    (records.remove model id).Sendable := by
  intro other key stored found
  rw [find?_remove] at found
  split at found
  · cases found
  · exact sendable other key stored found

end MemoryRecords

namespace Engine

variable {stored : Instant} {definition : Definition} {request : RecordRequest}
  {record : NormalizedRecord} {records after : MemoryRecords} {action : Action}
  {response : Response}

/-- Whatever an action with sendable values does, records that can be sent stay so. -/
theorem sendable_of_recordStep (sendable : records.Sendable)
    (sent : Entries.areSendable record.values = true)
    (stepped : RecordStep stored definition request record records action after) :
    after.Sendable := by
  have stamp : (Value.text stored.stamp).isSendable = true :=
    Value.isSendable_text_iff.mpr stored.isPlain_stamp
  cases stepped with
  | unchanged => exact sendable
  | created =>
      have plain := records.isPlain_newId
      exact sendable.putRecord plain (MemoryRecords.areSendable_stamped plain stamp stamp sent)
  | updated _ _ there =>
      obtain ⟨plain, old⟩ := sendable _ _ _ there
      exact sendable.putRecord plain (MemoryRecords.areSendable_stamped plain
        (Entries.isSendable_get old _) stamp (Entries.areSendable_merge old sent))
  | removed => exact sendable.remove _ _

end Engine

/-- A record that can be sent is shown as a value that can. -/
theorem isSendable_shapeRecord {record : Entries} (sendable : Entries.areSendable record = true) :
    (shapeRecord record).isSendable = true := by
  refine Value.isSendable_ofFields ?_
  simp only [List.forall_mem_cons]
  exact ⟨⟨Text.isPlain_ofString, Entries.isSendable_get sendable _⟩,
    ⟨Text.isPlain_ofString, Entries.areSendable_filter sendable _⟩,
    ⟨Text.isPlain_ofString, Entries.isSendable_get sendable _⟩,
    ⟨Text.isPlain_ofString, Entries.isSendable_get sendable _⟩, List.forall_mem_nil _⟩

/-- Where records were changed, and can be sent before and after, the response can be sent. -/
theorem Run.Answered.isSendable [Host] {stored : Instant} {definition : Definition}
    {request : RecordRequest} {record : NormalizedRecord} {records after : MemoryRecords}
    {action : Action} {response : Response}
    (answered : Run.Answered stored definition request record records action response after)
    (before : records.Sendable) (sendable : after.Sendable) :
    after = records ∨ response.toValue.isSendable = true := by
  cases answered with
  | found => exact .inl rfl
  | listed => exact .inl rfl
  | created done =>
      obtain ⟨-, -, rfl⟩ := MemoryRecords.create_eq_ok done
      have there := MemoryRecords.find?_add records definition.name definition.name
        records.newId
      exact .inr (isSendable_shapeRecord (sendable _ _ _ ((there _).trans (if_pos ⟨rfl, rfl⟩))).2)
  | updated _ done =>
      obtain ⟨key, _, -, -, -, -, rfl⟩ := MemoryRecords.update_eq_ok done
      have there := MemoryRecords.find?_putRecord records definition.name key definition.name key
      exact .inr (isSendable_shapeRecord (sendable _ _ _ ((there _).trans (if_pos ⟨rfl, rfl⟩))).2)
  | removed _ done =>
      obtain ⟨key, existing, identified, there, -⟩ := MemoryRecords.delete_eq_true done
      have plain := (before _ _ _ there).1
      refine .inr (Value.isSendable_ofFields ?_)
      rw [identified]
      simp only [List.forall_mem_cons]
      exact ⟨⟨Text.isPlain_ofString, Value.isSendable_text_iff.mpr plain⟩,
        ⟨Text.isPlain_ofString, rfl⟩, List.forall_mem_nil _⟩

theorem isSendable_successBody {result : Value} (sendable : result.isSendable = true) :
    (successBody result).isSendable = true := by
  have fields : Entries.areSendable (result.asObject?.getD []) = true := by
    cases result with
    | object entries => exact sendable
    | _ => rfl
  refine Entries.areSendable_put Text.isPlain_ofString rfl
    (Entries.areSendable_put Text.isPlain_ofString rfl ?_)
  exact Entries.areSendable_cons_iff.mpr ⟨⟨⟨_, rfl, Text.isPlain_ofString⟩, rfl⟩, fields⟩

namespace Service

variable [Host] {σ : Type} {store : DefinitionStore σ} {now : Instant} {identity : Identity}
  {request : HttpRequest} {gone : Bool} {service : Service σ} {reply : Reply}
  {records : MemoryRecords}

/-! ## What a request did -/

/-- A request to which the engine responded, with the reply that shows its response and the
records it left. -/
inductive Performed (store : DefinitionStore σ) (now : Instant) (identity : Identity)
    (request : HttpRequest) (service : Service σ) : Reply → MemoryRecords → Prop where
  | responded {model : Text} {action id payload : Value} {principal : Principal}
      {response : Response} {trail : List Stage} {records : MemoryRecords} {status : Nat}
      {cancel : Nat → Bool}
      (caller : principal? identity request = .ok (some principal))
      (carried : payload = .null ∨ recordOf request = .ok payload)
      (responded : Engine.Responded store now now cancel
        ⟨.text model, action, principal, payload, id⟩ (service.registry, service.records)
        (.ok response) trail records)
      (fine : status < 400) :
      Performed store now identity request service
        (.object status (successBody response.toValue) none) records

/-- A step that left the records as they were, or was the one to which the engine responded. -/
def Settled (store : DefinitionStore σ) (now : Instant) (identity : Identity)
    (request : HttpRequest) (service : Service σ) (ended : Except Fault Reply × Service σ) :
    Prop :=
  ended.2.records = service.records ∨
    ∃ reply, ended.1 = .ok reply ∧
      Performed store now identity request service reply ended.2.records

theorem settled_onRecords {model : Text} {action : Action} {id : Value} {principal : Principal}
    {payload : Except Fault Value} (caller : principal? identity request = .ok (some principal))
    (carried : payload = .ok .null ∨ payload = recordOf request) :
    Settled store now identity request service
      ((onRecords store now gone model action id payload principal).on service) := by
  unfold onRecords
  cases payload with
  | error fault => exact .inl rfl
  | ok value =>
      have carried : value = .null ∨ recordOf request = .ok value :=
        carried.imp Except.ok.inj Eq.symm
      rw [on_bind_of_ok (on_ofExcept _ _), on_bind, onEngine, on_within]
      have cases := Engine.handle_cases store now now (fun _ => gone)
        ⟨.text model, .text action.name, principal, value, id⟩ (service.registry, service.records)
      dsimp only at cases
      generalize (Engine.handle store (MemoryRecords.store now) now (fun _ => gone)
        ⟨.text model, .text action.name, principal, value, id⟩).on
          (service.registry, service.records) = ended at cases
      obtain ⟨result, registry, records⟩ := ended
      rcases cases with ⟨never, kept⟩ | ⟨trail, response, same, responded⟩
      · dsimp only at never kept
        subst kept
        cases result with
        | error fault => exact .inl rfl
        | ok outcome =>
            obtain ⟨trail, result⟩ := outcome
            cases result with
            | error refusal => exact .inl rfl
            | ok response => exact absurd rfl (never trail response)
      · dsimp only at same responded
        subst same
        have fine : (if action = .create then 201 else 200) < 400 := by split <;> decide
        exact .inr ⟨_, rfl, .responded caller carried responded fine⟩

theorem settled_withPrincipal {run : Principal → Serving σ Reply}
    (settled : ∀ principal, principal? identity request = .ok (some principal) →
      Settled store now identity request service ((run principal).on service)) :
    Settled store now identity request service
      ((withPrincipal identity request run).on service) := by
  unfold withPrincipal
  rw [on_bind, on_ofExcept]
  cases found : principal? identity request with
  | error fault => exact .inl rfl
  | ok caller =>
      cases caller with
      | none => exact .inl rfl
      | some principal => exact settled principal found

theorem settled_handle (resource : Resource) (verb : Verb) :
    Settled store now identity request service
      ((handle store now identity request gone resource verb).on service) := by
  cases led : resource.isRecords with
  | false =>
      have kept : Keeps (Holds (fun _ => True) (· = service.records) (fun _ => True))
          (handle store now identity request gone resource verb) :=
        keeps_handle (permitted_of_noRecords led service.records) verb
      exact .inl (kept service ⟨trivial, rfl, trivial⟩).1.records
  | true =>
      unfold handle
      cases resource with
      | records model =>
          cases verb
          case submit =>
            exact settled_withPrincipal fun _ caller => settled_onRecords caller (.inr rfl)
          all_goals
            exact settled_withPrincipal fun _ caller => settled_onRecords caller (.inl rfl)
      | record model id =>
          cases verb
          case replace =>
            exact settled_withPrincipal fun _ caller => settled_onRecords caller (.inr rfl)
          all_goals
            exact settled_withPrincipal fun _ caller => settled_onRecords caller (.inl rfl)
      | _ => cases led

/-- A handler that settled is responded to with the reply that shows what the engine responded
with, if it did. -/
theorem respond_cases {handler : Serving σ Reply}
    (settled : Settled store now identity request service (handler.on service)) :
    let ended := (respond handler).on service
    ended.2.records = service.records ∨
      ∃ reply, Performed store now identity request service reply ended.2.records ∧
        ended.1 = reply.write := by
  unfold respond
  rw [on_bind, on_attempt]
  dsimp only
  rcases settled with kept | ⟨reply, same, performed⟩
  · left
    split
    · rwa [on_ofExcept]
    · rwa [on_ofExcept]
    · rwa [on_fail]
  · right
    rw [same]
    dsimp only
    rw [on_ofExcept]
    exact ⟨reply, performed, rfl⟩

theorem response_cases (store : DefinitionStore σ) (now : Instant) (identity : Identity)
    (request : HttpRequest) (gone : Bool) (service : Service σ) :
    let ended := (response store now identity request gone).on service
    ended.2.records = service.records ∨
      ∃ reply, Performed store now identity request service reply ended.2.records ∧
        ended.1 = reply.write := by
  unfold response
  split
  · exact respond_cases (settled_handle _ _)
  · exact .inl (by rw [on_ofExcept])
  · exact .inl (by rw [on_ofExcept])
  · exact .inl (by rw [on_ofExcept])

/-- **Whatever a request leads to**, the records are afterwards as they were, or the engine
responded, and the response is the reply that shows what it responded with, if that can be
written. -/
theorem answer_cases (store : DefinitionStore σ) (now : Instant) (identity : Identity)
    (request : HttpRequest) (gone : Bool) (service : Service σ) :
    let ended := answerTo store now identity request gone service
    ended.2.records = service.records ∨
      ∃ reply, Performed store now identity request service reply ended.2.records ∧
        ended.1 = concluded (reply.write.map (HttpResponse.sharedWith request.origin?)) := by
  unfold answerTo
  split
  · exact .inl rfl
  · refine (response_cases store now identity request gone service).imp_right ?_
    rintro ⟨reply, performed, written⟩
    exact ⟨reply, performed, by rw [← written]⟩

/-! ## Errors -/

omit [Host] in
/-- A reply that shows a response which can be sent is written, without an error. -/
theorem status_of_isSendable {status : Nat} {body : Value} (fine : status < 400)
    (sendable : body.isSendable = true) (origin : Option Text) :
    (concluded ((Reply.object status body none).write.map
      (HttpResponse.sharedWith origin))).status < 400 := by
  obtain ⟨octets, done⟩ := HttpResponse.exists_json status []
    (HttpResponse.isSendable_visible body sendable)
  have written : (Reply.object status body none).write =
      .ok ⟨status, some "application/json", [], octets⟩ := done
  rw [written]
  cases origin with
  | none => exact fine
  | some name => exact fine

/-- What a request that is performed answers can be sent as long as the records can. -/
theorem Performed.fine (performed : Performed store now identity request service reply records)
    (before : service.records.Sendable) (after : records.Sendable) (origin : Option Text) :
    records = service.records ∨
      (concluded (reply.write.map (HttpResponse.sharedWith origin))).status < 400 := by
  cases performed with
  | responded _ _ responded fine =>
      obtain ⟨-, answered⟩ := responded
      refine (answered.isSendable before after).imp_right fun sendable => ?_
      exact status_of_isSendable fine (isSendable_successBody sendable) origin

/-- A request in a state where nothing it may store keeps a response from being sent: the record
in its body, the id of its principal, and the texts of the definition that it loads. -/
structure Clean (store : DefinitionStore σ) (now : Instant) (identity : Identity)
    (request : HttpRequest) (service : Service σ) : Prop where
  payload : ∀ record, recordOf request = .ok record → record.isSendable = true
  caller : ∀ principal, principal? identity request = .ok (some principal) →
    principal.id.isSendable = true
  definitions : ∀ name definition,
    ((Registry.load store now name).on service.registry).1 = .ok definition → definition.IsPlain

/-- A clean request that is performed leaves records that can be sent. -/
theorem Performed.sendable (performed : Performed store now identity request service reply records)
    (clean : Clean store now identity request service) (before : service.records.Sendable) :
    records.Sendable := by
  cases performed with
  | responded caller carried responded =>
      obtain ⟨admission, answered⟩ := responded
      obtain ⟨registry, loaded⟩ := admission.loaded
      rw [Registry.loadValue, Registry.on_named_text] at loaded
      have plain := clean.definitions _ _ (congrArg Prod.fst loaded)
      refine Engine.sendable_of_recordStep before ?_ (Engine.recordStep_of_answered answered)
      cases admission.prepared with
      | unwritten => rfl
      | validated _ _ valid =>
          refine Run.areSendable_validated plain ?_ (clean.caller _ caller) valid
          rcases carried with rfl | carried
          · rfl
          · exact clean.payload _ carried

/-- A clean request leaves records that can be sent. -/
theorem sendable_answer (clean : Clean store now identity request service)
    (before : service.records.Sendable) :
    (answerTo store now identity request gone service).2.records.Sendable := by
  rcases answer_cases store now identity request gone service with kept | ⟨reply, performed, -⟩
  · rwa [kept]
  · exact performed.sendable clean before

/-- The services that clean requests reach, each at its instant, from one without records. -/
inductive Reached (store : DefinitionStore σ) : Service σ → Prop where
  | start {service : Service σ} (empty : service.records = .empty) : Reached store service
  | answer {service : Service σ} (before : Reached store service) {now : Instant}
      {identity : Identity} {request : HttpRequest} {gone : Bool}
      (clean : Clean store now identity request service) :
      Reached store (answerTo store now identity request gone service).2

/-- **Records can be sent after every run of clean requests.** -/
theorem Reached.sendable (reached : Reached store service) : service.records.Sendable := by
  induction reached with
  | start empty =>
      rw [empty]
      exact MemoryRecords.sendable_empty
  | answer _ clean ih => exact sendable_answer clean ih

/-- **An error means that no record was written**, wherever the request leads, whoever asks and
whether or not the client waits, as long as the records of the service can be sent: the records are
as they were, or one of them can no longer be sent.  Under a clean request they can, so nothing was
written. -/
theorem error_wrote_nothing (now : Instant) (identity : Identity) (request : HttpRequest)
    (gone : Bool) (before : service.records.Sendable)
    (error : 400 ≤ (answerTo store now identity request gone service).1.status) :
    let after := (answerTo store now identity request gone service).2.records
    (after.Sendable → after = service.records) ∧
      (Clean store now identity request service → after = service.records) := by
  have unsent : (answerTo store now identity request gone service).2.records.Sendable →
      (answerTo store now identity request gone service).2.records = service.records := by
    intro sendable
    rcases answer_cases store now identity request gone service with kept | ⟨reply, performed, same⟩
    · exact kept
    · rcases performed.fine before sendable request.origin? with kept | fine
      · exact kept
      · rw [← same] at fine
        exact absurd fine (Nat.not_lt.mpr error)
  exact ⟨unsent, fun clean => unsent (sendable_answer clean before)⟩

end Service

/-! ## Notes -/

namespace Service

/-- A request for a new note with a body. -/
def noteCreation (body : String) : HttpRequest :=
  ⟨"POST", "/crud/note", [], (Utf8.encode? body).getD []⟩

/-- A request for a new note without a title. -/
def untitledNote : HttpRequest := noteCreation "\x7b\"record\": \x7b\x7d\x7d"

/-- The one definition that the service with notes loads is plain. -/
theorem isPlain_of_load_note (now : Instant) (name : Text) (definition : Definition)
    (loaded : ((Registry.load MemoryDefinitions.store now name).on noteService.registry).1 =
      .ok definition) : definition.IsPlain := by
  rw [Registry.on_load_fst Registry.reads_memory] at loaded
  by_cases same : ("note" : Text) = name
  · subst same
    have note : Registry.loadOf now "note" (.ok (some noteDefinition.toDocument)) =
        .ok noteDefinition := rfl
    cases note.symm.trans loaded
    exact isPlain_noteDefinition
  · have found : (Keyed.get? [("note", noteDefinition.toDocument)] name).isSome :=
      Registry.isSome_of_loadOf now loaded
    rw [Keyed.get?_cons, if_neg same] at found
    cases found

/-- A manager who asks for a note without a title is refused, and no note is written. -/
theorem untitled_note_not_written :
    let ended := answerTo MemoryDefinitions.store ⟨0, by decide⟩ (userAs "Manager") untitledNote
      false noteService
    ended.1.status = 400 ∧ ended.2.records = .empty := by
  have refused : (answerTo MemoryDefinitions.store ⟨0, by decide⟩ (userAs "Manager") untitledNote
      false noteService).1.status = 400 := by decide +kernel
  have clean : Clean MemoryDefinitions.store ⟨0, by decide⟩ (userAs "Manager") untitledNote
      noteService := by
    refine ⟨?_, ?_, isPlain_of_load_note _⟩
    · intro record carried
      have sent : ((recordOf untitledNote).map Value.isSendable).toOption = some true := by
        decide +kernel
      rw [carried] at sent
      exact Option.some.inj sent
    · intro principal found
      cases found
      exact Value.isSendable_text_iff.mpr Text.isPlain_ofString
  exact ⟨refused,
    (error_wrote_nothing _ _ _ _ MemoryRecords.sendable_empty (Nat.le_of_eq refused.symm)).2 clean⟩

/-- A note with a title that is not a number is written behind an internal error. -/
theorem unsendable_note_stored :
    let ended := answerTo MemoryDefinitions.store ⟨0, by decide⟩ (userAs "Manager")
      (noteCreation "\x7b\"record\": \x7b\"title\": NaN\x7d\x7d") false noteService
    ended.1.status = 500 ∧ noteService.records = .empty ∧
      (ended.2.records.find? "note" "rec-1").isSome = true :=
  ⟨by decide +kernel, rfl, by decide +kernel⟩

end Service

end GovernedRecords
