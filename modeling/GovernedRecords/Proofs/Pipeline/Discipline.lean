import GovernedRecords.Engine
import GovernedRecords.Proofs.Entries
import GovernedRecords.Proofs.Pipeline.Readings

/-!
# The effects of a request

A request works on two things it does not control: a record store, which may answer with
anything or fail at any call, and a cancel flag, which may change its mind between two
readings.  To see what a request does to them, every call of the store is recorded with its
arguments and its answer.

`Effects` says which calls may be made and what has been checked before each.
-/

set_option autoImplicit false

namespace GovernedRecords

/-- A call of a record store. -/
inductive RecordCall where
  | create (model : Text) (values : Entries) (unique : List Text)
  | get (model : Text) (id : Value)
  | list (model : Text)
  | update (model : Text) (id : Value) (changes : Entries) (unique : List Text)
  | delete (model : Text) (id : Value)
  | fetchOwner (model : Text) (id : Value) (field : Text) (answer : Except Fault Value)

namespace RecordCall

/-- Whether a call only looks up an owner. -/
def isLookup : RecordCall → Bool
  | .fetchOwner .. => true
  | _ => false

/-- The action to which a call belongs; a look-up belongs to none. -/
def action? : RecordCall → Option Action
  | .create .. => some .create
  | .get .. => some .read
  | .list .. => some .read
  | .update .. => some .update
  | .delete .. => some .delete
  | .fetchOwner .. => none

end RecordCall

namespace RecordStore

variable {ρ : Type}

/-- A call that is recorded with what it answers. -/
def recording (call : Except Fault Value → RecordCall) (operation : Operation ρ Value) :
    Operation (ρ × List RecordCall) Value :=
  .of fun state =>
    let (answer, after) := operation.on state.1
    (answer, (after, state.2 ++ [call answer]))

/-- The store with a record of its calls. -/
def recorded (store : RecordStore ρ) : RecordStore (ρ × List RecordCall) where
  create model values unique :=
    recording (fun _ => .create model values unique) (store.create model values unique)
  get model id := recording (fun _ => .get model id) (store.get model id)
  list model := recording (fun _ => .list model) (store.list model)
  update model id changes unique :=
    recording (fun _ => .update model id changes unique) (store.update model id changes unique)
  delete model id := recording (fun _ => .delete model id) (store.delete model id)
  fetchOwner model id field :=
    recording (.fetchOwner model id field) (store.fetchOwner model id field)

end RecordStore

/-! ## What may be called -/

/-- Entries that agree everywhere except under a field, if there is one. -/
def Entries.AgreeApartFrom (field : Option Text) (values others : Entries) : Prop :=
  match field with
  | none => values = others
  | some name => Entries.erase name values = Entries.erase name others

section Effects

variable [Host] (now : Instant) (definition : Definition) (request : RecordRequest)

/-- The look-up of the owner of the record of a request, whose action the role has. -/
inductive JustifiedLookup (answer : Except Fault Value) : RecordCall → Prop where
  | fetchOwner {action : Action} (named : Action.ofValue? request.action = some action)
      (granted : (definition.actionsFor request.principal.role).has action = true) :
      JustifiedLookup answer (.fetchOwner definition.name request.id
        (definition.ownerField.getD []) answer)

/-- The calls by which the owner is read: none and no owner, or one look-up. -/
inductive OwnerCalls : Value → List RecordCall → Prop where
  | none : OwnerCalls .null []
  | lookup {answer : Except Fault Value} {lookup : RecordCall} {owner : Value}
      (looked : JustifiedLookup definition request answer lookup)
      (read : answer.bind Run.ownerOf = .ok owner) : OwnerCalls owner [lookup]

/-- Values that a payload stands for: the payload is valid, and they are its values apart
from the owner, with its unique fields. -/
structure FromPayload (mode : Mode) (values : Entries) (unique : List Text) : Prop where
  valid : ∃ record, definition.validate now request.payload mode = .ok (.valid record) ∧
    unique = record.uniqueFields ∧ Entries.AgreeApartFrom definition.owner? values record.values

/-- The call that performs the action of a request: the action is allowed for an owner, and
what is stored comes from the payload. -/
inductive JustifiedAction (owner : Value) : RecordCall → Prop where
  | create (named : Action.ofValue? request.action = some .create)
      (allowed : definition.evaluate request.principal (some .create) owner = .allowed)
      {values : Entries} {unique : List Text}
      (stored : FromPayload now definition request .create values unique) :
      JustifiedAction owner (.create definition.name values unique)
  | get (named : Action.ofValue? request.action = some .read)
      (identified : request.id.isTruthy = true)
      (allowed : definition.evaluate request.principal (some .read) owner = .allowed) :
      JustifiedAction owner (.get definition.name request.id)
  | list (named : Action.ofValue? request.action = some .read)
      (unidentified : request.id.isTruthy = false)
      (allowed : definition.evaluate request.principal (some .read) owner = .allowed) :
      JustifiedAction owner (.list definition.name)
  | update (named : Action.ofValue? request.action = some .update)
      (allowed : definition.evaluate request.principal (some .update) owner = .allowed)
      {changes : Entries} {unique : List Text}
      (stored : FromPayload now definition request .update changes unique) :
      JustifiedAction owner (.update definition.name request.id changes unique)
  | delete (named : Action.ofValue? request.action = some .delete)
      (allowed : definition.evaluate request.principal (some .delete) owner = .allowed) :
      JustifiedAction owner (.delete definition.name request.id)

/-- The calls that a request may make under a definition: at most one look-up and after it
at most one call that performs the action, allowed for the owner that was looked up, or for
no owner when none was. -/
inductive Effects : List RecordCall → Prop where
  | none : Effects []
  | lookup {answer : Except Fault Value} {lookup : RecordCall}
      (looked : JustifiedLookup definition request answer lookup) : Effects [lookup]
  | performed {performed : RecordCall}
      (done : JustifiedAction now definition request .null performed) : Effects [performed]
  | both {answer : Except Fault Value} {lookup performed : RecordCall} {owner : Value}
      (looked : JustifiedLookup definition request answer lookup)
      (read : answer.bind Run.ownerOf = .ok owner)
      (done : JustifiedAction now definition request owner performed) :
      Effects [lookup, performed]

end Effects

/-! ## What is stored comes from the payload -/

namespace Entries.AgreeApartFrom

theorem refl (field : Option Text) (values : Entries) : AgreeApartFrom field values values := by
  cases field <;> rfl

theorem trans {field : Option Text} {first second third : Entries}
    (left : AgreeApartFrom field first second) (right : AgreeApartFrom field second third) :
    AgreeApartFrom field first third := by
  cases field with
  | none => exact Eq.trans left right
  | some name => exact Eq.trans left right

theorem put (name : Text) (value : Value) (values : Entries) :
    AgreeApartFrom (some name) (Entries.put name value values) values :=
  Entries.erase_put name value values

end Entries.AgreeApartFrom

section Payload

variable [Host] {now : Instant} {definition : Definition} {request : RecordRequest}

theorem keepOwner_agrees {payload : Value} {values kept : Entries}
    (keeps : Run.keepOwner definition payload values = .ok kept) :
    Entries.AgreeApartFrom definition.owner? kept values := by
  rw [Run.keepOwner] at keeps
  cases owned : definition.owner? with
  | none =>
      rw [owned] at keeps
      cases keeps
      rfl
  | some owner =>
      rw [owned] at keeps
      simp only at keeps
      split at keeps
      · cases shown : (Run.payloadOwner definition payload).toText with
        | error error => rw [shown] at keeps; cases keeps
        | ok text =>
            rw [shown] at keeps
            cases keeps
            exact .put owner _ values
      · cases keeps
        exact .refl _ values

omit [Host] in
theorem stampOwner_agrees (principal : Principal) (action : Action) (values : Entries) :
    Entries.AgreeApartFrom definition.owner? (Run.stampOwner definition principal action values)
      values := by
  rw [Run.stampOwner]
  cases definition.owner? with
  | none => rfl
  | some owner =>
      simp only
      split
      · exact .put owner _ values
      · exact .refl _ values

/-- The values that validation passes on are those of the valid payload, up to the owner. -/
theorem fromPayload_of_validated {action : Action} {record : NormalizedRecord}
    (valid : Run.validated now definition request action = .ok record) :
    FromPayload now definition request (if action = .create then .create else .update)
      record.values record.uniqueFields := by
  rw [Run.validated] at valid
  split at valid
  · cases valid
  · cases valid
  · next normal checked =>
      split at valid
      · cases valid
      · next kept keeps =>
          cases valid
          refine ⟨normal, checked, rfl, ?_⟩
          exact (stampOwner_agrees request.principal action kept).trans (keepOwner_agrees keeps)

end Payload

/-! ## What is called -/

section Calls

variable [Host] {σ ρ : Type} {load : Value → Operation σ Definition} {records : RecordStore ρ}
  {now : Instant} {cancel : Nat → Bool} {request : RecordRequest} {definition : Definition}

omit [Host] in
theorem calls_ownerLookup (records : RecordStore ρ) (definition : Definition)
    (request : RecordRequest) (state : σ × (ρ × List RecordCall)) :
    ((Run.ownerLookup records.recorded.onSecond definition request).on state).2.2.2 =
      state.2.2 ++ [.fetchOwner definition.name request.id (definition.ownerField.getD [])
        ((Run.ownerLookup records.recorded.onSecond definition request).on state).1] := rfl

omit [Host] in
/-- An owner that is allowed was read by no call or by a look-up. -/
theorem calls_of_ownerRead {action : Action} {owner : Value}
    {between after : σ × (ρ × List RecordCall)} (fresh : between.2.2 = [])
    (named : Action.ofValue? request.action = some action)
    (granted : (definition.actionsFor request.principal.role).has action = true)
    (read : Run.OwnerRead records.recorded.onSecond definition request action between owner after) :
    OwnerCalls definition request owner after.2.2 := by
  cases read with
  | unneeded => exact fresh ▸ .none
  | unnamed => exact fresh ▸ .none
  | fetched _ _ lookup read =>
      have calls := calls_ownerLookup records definition request between
      rw [lookup, fresh] at calls
      exact calls ▸ .lookup (.fetchOwner named granted) read

/-- Performing an action makes a call of that action, or none. -/
theorem calls_of_effect {action : Action} {owner : Value} {trail : List Stage}
    {record : NormalizedRecord} {before after : σ × (ρ × List RecordCall)}
    (named : Action.ofValue? request.action = some action)
    (allowed : definition.evaluate request.principal (some action) owner = .allowed)
    (prepared : Run.Prepared now cancel request definition action trail record)
    (effect : Run.Effect records.recorded.onSecond definition request record before action after) :
    after.2.2 = before.2.2 ∨
      ∃ performed, after.2.2 = before.2.2 ++ [performed] ∧
        JustifiedAction now definition request owner performed := by
  cases effect with
  | create =>
      cases prepared with
      | validated _ _ valid =>
          exact .inr ⟨_, rfl, .create named allowed (fromPayload_of_validated valid)⟩
      | unwritten reads => simp at reads
  | get identified => exact .inr ⟨_, rfl, .get named identified allowed⟩
  | list unidentified => exact .inr ⟨_, rfl, .list named unidentified allowed⟩
  | update =>
      cases prepared with
      | validated _ _ valid =>
          exact .inr ⟨_, rfl, .update named allowed (fromPayload_of_validated valid)⟩
      | unwritten reads => simp at reads
  | delete => exact .inr ⟨_, rfl, .delete named allowed⟩
  | nothing => exact .inl rfl

/-- The calls before an action is performed. -/
theorem effects_of_read {owner : Value} {calls : List RecordCall}
    (read : OwnerCalls definition request owner calls) : Effects now definition request calls := by
  cases read with
  | none => exact .none
  | lookup looked => exact .lookup looked

omit [Host] in
theorem isLookup_of_read {owner : Value} {calls : List RecordCall}
    (read : OwnerCalls definition request owner calls) : ∀ call ∈ calls, call.isLookup := by
  cases read with
  | none => simp
  | lookup looked =>
      cases looked with
      | fetchOwner => simp [RecordCall.isLookup]

/-- The calls after an action was performed. -/
theorem effects_of_performed {owner : Value} {calls after : List RecordCall}
    (read : OwnerCalls definition request owner calls)
    (done : after = calls ∨ ∃ performed, after = calls ++ [performed] ∧
      JustifiedAction now definition request owner performed) :
    Effects now definition request after := by
  rcases done with rfl | ⟨performed, rfl, done⟩
  · exact effects_of_read read
  · cases read with
    | none => exact .performed done
    | lookup looked read => exact .both looked read done

/-- The calls a request made under the definition it loaded, none without one. -/
def EffectsFrom (load : Value → Operation σ Definition) (now : Instant) (request : RecordRequest)
    (start : σ) (calls : List RecordCall) : Prop :=
  calls = [] ∨ ∃ definition loaded, (load request.model).on start = (.ok definition, loaded) ∧
    Effects now definition request calls

omit [Host] in
theorem loaded_of_resolved {state after : σ × (ρ × List RecordCall)}
    {result : Except Fault Definition}
    (resolved : (load request.model).onFirst.on state = (result, after)) :
    (load request.model).on state.1 = (result, after.1) ∧ after.2 = state.2 := by
  rw [Operation.on_onFirst] at resolved
  obtain ⟨rfl, rfl⟩ := Prod.mk.injEq .. ▸ resolved
  exact ⟨rfl, rfl⟩

/-- The owner of an authorized request was read by its first calls. -/
theorem calls_of_admitted {state between after : σ × (ρ × List RecordCall)} {action : Action}
    {owner : Value} (fresh : state.2.2 = [])
    (admitted : Run.Admitted (fun name => (load name).onFirst) records.recorded.onSecond cancel
      request state between after definition action owner) :
    (load request.model).on state.1 = (.ok definition, between.1) ∧
      OwnerCalls definition request owner after.2.2 := by
  obtain ⟨loaded, kept⟩ := loaded_of_resolved admitted.resolved
  have granted := Definition.granted_of_allowed (Run.allowed_of_judgement admitted.judged)
  exact ⟨loaded, calls_of_ownerRead (kept ▸ fresh) admitted.named granted admitted.read⟩

/-- A request that reaches a stage has only looked up an owner. -/
theorem effects_of_reached {stage : Stage} {state after : σ × (ρ × List RecordCall)}
    {trail : List Stage} (fresh : state.2.2 = [])
    (reached : Run.Reached (fun name => (load name).onFirst) records.recorded.onSecond now cancel
      request state stage after trail) :
    EffectsFrom load now request state.1 after.2.2 ∧ ∀ call ∈ after.2.2, call.isLookup := by
  cases reached with
  | start => exact ⟨.inl fresh, by simp [fresh]⟩
  | resolved _ resolved =>
      have none := (loaded_of_resolved resolved).2 ▸ fresh
      exact ⟨.inl none, by simp [none]⟩
  | authorized admitted =>
      obtain ⟨loaded, read⟩ := calls_of_admitted fresh admitted
      exact ⟨.inr ⟨_, _, loaded, effects_of_read read⟩, isLookup_of_read read⟩
  | prepared admitted =>
      obtain ⟨loaded, read⟩ := calls_of_admitted fresh admitted
      exact ⟨.inr ⟨_, _, loaded, effects_of_read read⟩, isLookup_of_read read⟩

/-- However a request passes through its stages, it makes the calls it may make. -/
theorem effects_of_passage {state : σ × (ρ × List RecordCall)} (fresh : state.2.2 = [])
    {result : Except Fault Response × Run (σ × (ρ × List RecordCall))}
    (passage : Run.Passage (fun name => (load name).onFirst) records.recorded.onSecond now cancel
      request state result) :
    EffectsFrom load now request state.1 result.2.state.2.2 := by
  cases passage with
  | cancelled reached => exact (effects_of_reached fresh reached).1
  | unresolved _ unresolved => exact .inl ((loaded_of_resolved unresolved).2 ▸ fresh)
  | denied _ resolved _ refused =>
      obtain ⟨loaded, kept⟩ := loaded_of_resolved resolved
      rcases (Run.authorize_eq_error refused).2 with same | ⟨action, named, granted, looked⟩
      · cases same
        exact .inl (kept ▸ fresh)
      · have calls := congrArg (fun state => state.2.2) looked
        simp only [calls_ownerLookup, kept, fresh, List.nil_append] at calls
        refine .inr ⟨_, _, loaded, ?_⟩
        rw [calls]
        exact .lookup (.fetchOwner named granted)
  | invalid admitted =>
      obtain ⟨loaded, read⟩ := calls_of_admitted fresh admitted
      exact .inr ⟨_, _, loaded, effects_of_read read⟩
  | failed admitted prepared _ failed =>
      obtain ⟨loaded, read⟩ := calls_of_admitted fresh admitted
      exact .inr ⟨_, _, loaded, effects_of_performed read (calls_of_effect admitted.named
        (Run.allowed_of_judgement admitted.judged) prepared (Run.effect_of_execute failed))⟩
  | answered admitted prepared _ answered =>
      obtain ⟨loaded, read⟩ := calls_of_admitted fresh admitted
      exact .inr ⟨_, _, loaded, effects_of_performed read (calls_of_effect admitted.named
        (Run.allowed_of_judgement admitted.judged) prepared (Run.effect_of_execute answered))⟩

end Calls

/-! ## Outcomes -/

/-- A request returns an outcome when its stages end with a response or a refusal. -/
theorem RecordRequest.run_eq_ok_iff [Host] {τ : Type} {resolve : Value → Operation τ Definition}
    {store : RecordStore τ} {now : Instant} {cancel : Nat → Bool} {request : RecordRequest}
    {state final : τ} {outcome : Outcome} :
    (request.run resolve store now cancel).on state = (.ok outcome, final) ↔
      (Run.stages resolve store now cancel request).on ⟨state, []⟩ =
        (outcome.result.mapError .refused, ⟨final, outcome.trail⟩) := by
  obtain ⟨trail, ended⟩ := outcome
  rw [RecordRequest.run, Operation.on_of]
  cases passed : (Run.stages resolve store now cancel request).on ⟨state, []⟩ with
  | mk result run =>
      obtain ⟨after, entered⟩ := run
      cases result with
      | ok response => cases ended <;> grind [Operation.mapError_ok, Operation.mapError_error]
      | error fault =>
          cases fault <;> cases ended <;> grind [Operation.mapError_ok, Operation.mapError_error]

theorem entriesOf_eq_error {value : Value} {fault : Fault}
    (failed : Response.entriesOf value = .error fault) : fault = .missingOperation := by
  cases value <;> first | cases failed; rfl | cases failed

theorem mapM_entriesOf_eq_error {items : List Value} {fault : Fault}
    (failed : items.mapM Response.entriesOf = .error fault) : fault = .missingOperation := by
  induction items with
  | nil => cases failed
  | cons item rest ih =>
      rw [List.mapM_cons] at failed
      cases first : Response.entriesOf item with
      | error fault =>
          rw [first] at failed
          cases failed
          exact entriesOf_eq_error first
      | ok entries =>
          rw [first] at failed
          cases others : rest.mapM Response.entriesOf with
          | error fault =>
              rw [others] at failed ih
              cases failed
              exact ih rfl
          | ok all =>
              rw [others] at failed
              cases failed

/-- An answer of a record store is responded with or is no answer at all; it is not
refused. -/
theorem ofAnswer_ne_refused (action : Action) (answer : Value) (refusal : Refusal) :
    Response.ofAnswer action answer ≠ .error (.refused refusal) := by
  intro refused
  unfold Response.ofAnswer at refused
  split at refused
  · cases refused
  · next items _ =>
    cases read : items.mapM Response.entriesOf with
    | ok all =>
        rw [read] at refused
        cases refused
    | error fault =>
        rw [read] at refused
        cases refused
        cases mapM_entriesOf_eq_error read
  · cases read : Response.entriesOf answer with
    | ok entries =>
        rw [read] at refused
        cases refused
    | error fault =>
        rw [read] at refused
        cases refused
        cases entriesOf_eq_error read

/-- The trail of a request that returned is a beginning of its path, and all of it exactly
when there is a response. -/
theorem trail_of_returned [Host] {τ : Type} {resolve : Value → Operation τ Definition}
    {store : RecordStore τ} {now : Instant} {cancel : Nat → Bool} {request : RecordRequest}
    {state final : τ} {outcome : Outcome}
    (passage : Run.Passage resolve store now cancel request state
      (outcome.result.mapError .refused, ⟨final, outcome.trail⟩)) :
    outcome.trail <+: Stage.path (Action.ofValue? request.action) ∧
      ((∃ response, outcome.result = .ok response) ↔
        outcome.trail = Stage.path (Action.ofValue? request.action)) := by
  obtain ⟨along, whole⟩ := Run.trail_of_passage passage
  refine ⟨along, ?_, ?_⟩
  · rintro ⟨response, ended⟩
    exact whole response (by rw [ended]; rfl)
  · intro complete
    have responded : Stage.respond ∈ outcome.trail := by
      rw [complete, Stage.path]
      split <;> simp
    obtain ⟨action, answer, answered⟩ := Run.answer_of_respond passage responded
    cases ended : outcome.result with
    | ok response => exact ⟨response, rfl⟩
    | error refusal =>
        rw [ended] at answered
        exact absurd answered.symm (ofAnswer_ne_refused action answer refusal)

/-! ## Discipline -/

section Discipline

variable [Host] {σ ρ : Type}

/-- What a request does under any definitions, record store and cancel flag.  The calls it
makes are those it may make under the definition it loaded; it reads some first answers of
the flag, and when one of them was to cancel it is refused for that and performs nothing; the
stages it enters are a beginning of the path of its action, and all of it exactly when there
is a response. -/
structure Disciplined (definitions : DefinitionStore σ) (records : RecordStore ρ) (now : Instant)
    (cancel : Nat → Bool) (request : RecordRequest) (registry : Registry σ) (state : ρ)
    (outcome : Outcome) (calls : List RecordCall) : Prop where
  effects : EffectsFrom (Registry.loadValue definitions now) now request registry calls
  readings : ∃ count,
    AnswersRead (fun flag => (Engine.handle definitions records.recorded now flag request).on
      (registry, (state, []))) cancel count ∧
    ((∃ reading < count, cancel reading = true) →
      (∃ refusal, outcome.result = .error refusal ∧ refusal.code = "REQUEST_CANCELLED") ∧
        ∀ call ∈ calls, call.isLookup)
  trail : outcome.trail <+: Stage.path (Action.ofValue? request.action)
  complete : (∃ response, outcome.result = .ok response) ↔
    outcome.trail = Stage.path (Action.ofValue? request.action)

/-- **A request has no other effects.**  Whatever the registry holds, the record store
answers and the cancel flag says, a request that returns was disciplined. -/
theorem handle_disciplined {definitions : DefinitionStore σ} {records : RecordStore ρ}
    {now : Instant} {cancel : Nat → Bool} {request : RecordRequest} {registry : Registry σ}
    {state : ρ} {outcome : Outcome} {final : Registry σ × (ρ × List RecordCall)}
    (returned : (Engine.handle definitions records.recorded now cancel request).on
      (registry, (state, [])) = (.ok outcome, final)) :
    Disciplined definitions records now cancel request registry state outcome final.2.2 := by
  have ended := RecordRequest.run_eq_ok_iff.mp returned
  have passage := Run.stages_eq_iff_passage.mp ended
  obtain ⟨along, complete⟩ := trail_of_returned passage
  refine ⟨effects_of_passage rfl passage, ?_, along, complete⟩
  obtain ⟨count, answers, stopped⟩ := Run.readings_of_passage passage
  refine ⟨count, ?_, ?_⟩
  · intro other
    rw [← answers other]
    constructor
    · intro same
      exact (RecordRequest.run_eq_ok_iff.mp (same.trans returned)).trans ended.symm
    · intro same
      exact (RecordRequest.run_eq_ok_iff.mpr (same.trans ended)).trans returned.symm
  · intro read
    obtain ⟨stage, after, trail, reached, last⟩ := stopped read
    obtain ⟨refused, left⟩ := Prod.mk.injEq .. ▸ last
    have kept : final = after := congrArg Run.state left
    refine ⟨?_, kept ▸ (effects_of_reached rfl reached).2⟩
    cases result : outcome.result with
    | ok response =>
        rw [result] at refused
        cases refused
    | error refusal =>
        rw [result] at refused
        cases refused
        exact ⟨_, rfl, rfl⟩

end Discipline

/-- The update of a note by its owner. -/
def noteUpdate : RecordRequest where
  model := .text "note"
  action := .text "update"
  principal := ⟨.text "u1", .text "Manager"⟩
  payload := .object [(.text "title", .text "Plan")]
  id := .text "rec-1"

/-- An owner's update of a note looks up the owner and then updates the note. -/
theorem handle_disciplined_of_owner_update :
    let now : Instant := ⟨0, by decide⟩
    let registry : Registry MemoryDefinitions := ⟨[], [("note", noteDefinition)], [], 0⟩
    let records : MemoryRecords :=
      ⟨[("note", [("rec-1", [(.text "ownerId", .text "u1")])])], 1⟩
    ∃ outcome final, (Engine.handle MemoryDefinitions.store (MemoryRecords.store now).recorded now
        (fun _ => false) noteUpdate).on (registry, (records, [])) = (.ok outcome, final) ∧
      Disciplined MemoryDefinitions.store (MemoryRecords.store now) now (fun _ => false) noteUpdate
        registry records outcome final.2.2 ∧
      final.2.2.map RecordCall.action? = [none, some .update] :=
  ⟨_, _, rfl, handle_disciplined rfl, rfl⟩

end GovernedRecords
