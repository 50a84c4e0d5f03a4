import GovernedRecords.Pipeline.Run
import GovernedRecords.Proofs.Access.Permission
import GovernedRecords.Proofs.Operation

/-!
# The ways a request passes through its stages

A request ends cancelled before one of its stages, without a model, without permission, with
an invalid payload, with a failure of the record store, or with its answer.  `Run.Passage` has
one constructor for each of these ends, with everything that happened up to there, and
`stages_eq_iff_passage` says that the stages of a request do exactly what a passage says.
Statements about all requests go by cases on the passage.

What authorization found out about the owner of a record is kept apart in `OwnerRead`, what
an action does to the state in `Effect`.
-/

set_option autoImplicit false

namespace GovernedRecords.Run

variable {τ α : Type}

/-! ## The pieces of a stage -/

@[simp] theorem on_onState (operation : Operation τ α) (run : Run τ) :
    (onState operation).on run =
      ((operation.on run.state).1, { run with state := (operation.on run.state).2 }) := rfl

@[simp] theorem on_note (stage : Stage) (run : Run τ) :
    (note stage).on run = (.ok (), { run with trail := run.trail ++ [stage] }) := rfl

theorem on_enter (cancel : Nat → Bool) (stage : Stage) (run : Run τ) :
    (enter cancel stage).on run =
      if cancel run.trail.length then (.error (.refused (cancelled stage)), run)
      else (.ok (), { run with trail := run.trail ++ [stage] }) := by
  rw [enter, Operation.on_bind]
  simp only [Operation.on_get]
  split <;> simp

/-- A request that enters a stage goes on there unless it is cancelled. -/
theorem on_enter_bind (cancel : Nat → Bool) (stage : Stage) (next : Unit → Operation (Run τ) α)
    (run : Run τ) :
    (enter cancel stage >>= next).on run =
      if cancel run.trail.length then (.error (.refused (cancelled stage)), run)
      else (next ()).on { run with trail := run.trail ++ [stage] } := by
  rw [Operation.on_bind, on_enter]
  cases cancel run.trail.length <;> rfl

/-- What a fault of the record store becomes. -/
def callFault : Fault → Fault
  | .refused refusal => .refused refusal
  | fault => .refused (if fault.isMissingKey then recordNotFound else storeFailed "record")

/-- A call of the record store changes the state as the store does, and its faults become
refusals. -/
@[simp] theorem on_call (operation : Operation τ α) (run : Run τ) :
    (call operation).on run =
      ((operation.on run.state).1.mapError callFault,
        { run with state := (operation.on run.state).2 }) := by
  rw [call, Operation.on_bind]
  simp only [Operation.on_attempt, on_onState]
  cases (operation.on run.state).1 with
  | ok value => rfl
  | error fault =>
      cases fault <;> rfl

/-! ## Authorization -/

variable [Host]

section Stages

variable (store : RecordStore τ) (definition : Definition) (request : RecordRequest)

/-- The look-up of the owner of the record of a request. -/
def ownerLookup : Operation τ Value :=
  store.fetchOwner definition.name request.id (definition.ownerField.getD [])

/-- The owner that a request is judged by, and the state after it was read: null when it is
not needed or the request names no record, and what the record store answers otherwise. -/
inductive OwnerRead (action : Action) (state : τ) : Value → τ → Prop where
  | unneeded (needless : definition.needsOwner request.principal (some action) = false) :
      OwnerRead action state .null state
  | unnamed (nameless : request.id.isTruthy = false) : OwnerRead action state .null state
  | fetched (needed : definition.needsOwner request.principal (some action) = true)
      (named : request.id.isTruthy = true) {answer owner : Value} {after : τ}
      (lookup : (ownerLookup store definition request).on state = (.ok answer, after))
      (read : ownerOf answer = .ok owner) : OwnerRead action state owner after

/-- What a fault of the look-up of an owner becomes. -/
def lookupFault : Fault → Fault
  | .refused refusal => .refused refusal
  | _ => .refused (storeFailed "resource_id")

omit [Host] in
theorem on_fetchOwner (run : Run τ) :
    (fetchOwner store definition request).on run =
      if request.id.isTruthy then
        ((((ownerLookup store definition request).on run.state).1.bind ownerOf).mapError
            lookupFault,
          { run with state := ((ownerLookup store definition request).on run.state).2 })
      else (.ok .null, run) := by
  rw [fetchOwner]
  split
  · rw [Operation.on_bind]
    simp only [Operation.on_attempt, on_onState, ownerLookup]
    cases ((store.fetchOwner definition.name request.id
        (definition.ownerField.getD [])).on run.state).1.bind ownerOf with
    | ok owner => rfl
    | error fault => cases fault <;> rfl
  · rfl

variable {store definition request}

/-- What authorization decides once the owner is known. -/
def judgement (definition : Definition) (request : RecordRequest) (action : Action)
    (owner : Value) : Except Fault Unit :=
  match definition.evaluate request.principal (some action) owner with
  | .denied reason => .error (.refused reason.refusal)
  | .failed error => .error (.ofText error)
  | .allowed =>
    if action = .create then
      match createsForOther definition request with
      | .error error => .error (.ofText error)
      | .ok true =>
        .error (.refused (.about .notOwner "You can only create records you own"
          (definition.ownerField.getD [])))
      | .ok false => .ok ()
    else .ok ()

/-- Authorization asks for the grant, reads the owner where it matters, and judges. -/
theorem on_authorize (action : Action) (run : Run τ) :
    (authorize store definition request (some action)).on run =
      if (definition.actionsFor request.principal.role).has action = false then
        (.error (.refused Denial.insufficientPermission.refusal), run)
      else if definition.needsOwner request.principal (some action) then
        match (fetchOwner store definition request).on run with
        | (.ok owner, after) => (judgement definition request action owner, after)
        | (.error fault, after) => (.error fault, after)
      else (judgement definition request action .null, run) := by
  have judged : ∀ owner (after : Run τ),
      (match definition.evaluate request.principal (some action) owner with
        | .denied reason => (Operation.refuse reason.refusal : Operation (Run τ) Unit)
        | .failed error => .fail (.ofText error)
        | .allowed =>
          if some action = some Action.create then do
            if ← .ofExcept ((createsForOther definition request).mapError .ofText) then
              .refuse (.about .notOwner "You can only create records you own"
                (definition.ownerField.getD []))
          else pure ()).on after = (judgement definition request action owner, after) := by
    intro owner after
    rw [judgement]
    cases definition.evaluate request.principal (some action) owner with
    | denied reason => rfl
    | failed error => rfl
    | allowed =>
        simp only [Option.some.injEq]
        split
        · rw [Operation.on_bind, Operation.on_ofExcept]
          cases createsForOther definition request with
          | error error => rfl
          | ok other => cases other <;> rfl
        · rfl
  rw [authorize]
  simp only [Definition.evaluate_eq_insufficient_iff]
  split
  · rfl
  · split
    · rw [Operation.on_bind]
      cases (fetchOwner store definition request).on run with
      | mk result after =>
          cases result with
          | ok owner => exact judged owner after
          | error fault => rfl
    · rw [Operation.on_bind]
      exact judged .null run

theorem allowed_of_judgement {action : Action} {owner : Value}
    (judged : judgement definition request action owner = .ok ()) :
    definition.evaluate request.principal (some action) owner = .allowed := by
  rw [judgement] at judged
  cases verdict : definition.evaluate request.principal (some action) owner with
  | allowed => rfl
  | denied reason =>
      rw [verdict] at judged
      cases judged
  | failed error =>
      rw [verdict] at judged
      cases judged

omit [Host] in
/-- The look-up of the owner reads it, or ends without one. -/
theorem fetchOwner_eq_ok_iff {action : Action} {run after : Run τ} {owner : Value}
    (needed : definition.needsOwner request.principal (some action) = true) :
    (fetchOwner store definition request).on run = (.ok owner, after) ↔
      OwnerRead store definition request action run.state owner after.state ∧
        after.trail = run.trail := by
  rw [on_fetchOwner]
  constructor
  · intro looked
    split at looked
    case isTrue named =>
      cases lookup : (ownerLookup store definition request).on run.state with
      | mk answer left =>
          rw [lookup] at looked
          cases answer with
          | error fault => cases looked
          | ok answer =>
              cases read : ownerOf answer with
              | error fault => simp [Except.bind, read] at looked
              | ok found =>
                  simp only [Except.bind, Operation.mapError_ok, read] at looked
                  cases looked
                  exact ⟨.fetched needed named lookup read, rfl⟩
    case isFalse nameless =>
      cases looked
      exact ⟨.unnamed (by simpa using nameless), rfl⟩
  · rintro ⟨read, trail⟩
    obtain ⟨state, stages⟩ := after
    cases trail
    cases read with
    | unneeded needless =>
        rw [needless] at needed
        cases needed
    | unnamed nameless => simp [nameless]
    | fetched _ named lookup read => simp [named, lookup, Except.bind, read]

/-- A request is authorized exactly when some owner is read for it and judged well. -/
theorem authorize_eq_ok_iff {action : Action} {run after : Run τ} :
    (authorize store definition request (some action)).on run = (.ok (), after) ↔
      ∃ owner, OwnerRead store definition request action run.state owner after.state ∧
        judgement definition request action owner = .ok () ∧ after.trail = run.trail := by
  rw [on_authorize]
  constructor
  · intro authorized
    split at authorized
    · cases authorized
    · split at authorized
      case isTrue needed =>
        cases looked : (fetchOwner store definition request).on run with
        | mk result left =>
            rw [looked] at authorized
            cases result with
            | error fault => cases authorized
            | ok owner =>
                obtain ⟨judged, rfl⟩ := Prod.mk.injEq .. ▸ authorized
                obtain ⟨read, trail⟩ := (fetchOwner_eq_ok_iff needed).mp looked
                exact ⟨owner, read, judged, trail⟩
      case isFalse needless =>
        obtain ⟨judged, rfl⟩ := Prod.mk.injEq .. ▸ authorized
        exact ⟨.null, .unneeded (by simpa using needless), judged, rfl⟩
  · rintro ⟨owner, read, judged, trail⟩
    rw [if_neg (by simp [Definition.granted_of_allowed (allowed_of_judgement judged)])]
    split
    case isTrue needed =>
      simp only [(fetchOwner_eq_ok_iff needed).mpr ⟨read, trail⟩, judged]
    case isFalse needless =>
      obtain ⟨state, stages⟩ := after
      cases trail
      cases read with
      | fetched needed => exact absurd needed needless
      | unneeded => rw [judged]
      | unnamed => rw [judged]

/-- A request that is not authorized leaves the state as it was or as the look-up of the
owner left it, and the owner is looked up only for a role that has the action. -/
theorem authorize_eq_error {action : Option Action} {run after : Run τ} {fault : Fault}
    (refused : (authorize store definition request action).on run = (.error fault, after)) :
    after.trail = run.trail ∧
      (after.state = run.state ∨
        ∃ named, action = some named ∧
          (definition.actionsFor request.principal.role).has named = true ∧
          after.state = ((ownerLookup store definition request).on run.state).2) := by
  cases action with
  | none =>
      cases refused
      exact ⟨rfl, .inl rfl⟩
  | some action =>
      rw [on_authorize] at refused
      split at refused
      · cases refused
        exact ⟨rfl, .inl rfl⟩
      case isFalse granted =>
        simp only [Bool.not_eq_false] at granted
        split at refused
        · have reached : ((fetchOwner store definition request).on run).2 = after := by
            cases looked : (fetchOwner store definition request).on run with
            | mk result left =>
                rw [looked] at refused
                cases result <;> exact congrArg Prod.snd refused
          rw [on_fetchOwner] at reached
          split at reached
          · cases reached
            exact ⟨rfl, .inr ⟨action, rfl, granted, rfl⟩⟩
          · cases reached
            exact ⟨rfl, .inl rfl⟩
        · cases congrArg Prod.snd refused
          exact ⟨rfl, .inl rfl⟩

/-! ## Execution -/

omit [Host] in
/-- A test after a call adds nothing to its effect. -/
theorem on_call_bind_snd {β : Type} (operation : Operation τ α) (next : α → Operation (Run τ) β)
    (harmless : ∀ value run, ((next value).on run).2 = run) (run : Run τ) :
    ((call operation >>= next).on run).2 =
      { run with state := (operation.on run.state).2 } := by
  rw [Operation.on_bind, on_call]
  cases (operation.on run.state).1 with
  | ok value => exact harmless value _
  | error fault => rfl

section Effect

variable (store definition request)

/-- What performing an action does to the state: one operation of the record store, chosen
by the action, or nothing when there is no record to change or remove. -/
inductive Effect (record : NormalizedRecord) (state : τ) : Action → τ → Prop where
  | create : Effect record state .create
      ((store.create definition.name record.values record.uniqueFields).on state).2
  | get (named : request.id.isTruthy = true) :
      Effect record state .read ((store.get definition.name request.id).on state).2
  | list (nameless : request.id.isTruthy = false) :
      Effect record state .read ((store.list definition.name).on state).2
  | update (named : request.id.isTruthy = true) : Effect record state .update
      ((store.update definition.name request.id record.values record.uniqueFields).on state).2
  | delete (named : request.id.isTruthy = true) :
      Effect record state .delete ((store.delete definition.name request.id).on state).2
  | nothing {action : Action} (mutating : action.isMutating = true)
      (nameless : request.id.isTruthy = false) : Effect record state action state

omit [Host] in
/-- An action has its effect and leaves the trail alone. -/
theorem execute_effect (action : Action) (record : NormalizedRecord) (run : Run τ) :
    Effect store definition request record run.state action
        ((execute store definition request action record).on run).2.state ∧
      ((execute store definition request action record).on run).2.trail = run.trail := by
  cases named : request.id.isTruthy with
  | false =>
      cases action with
      | create => simpa [execute] using .create
      | read => simpa [execute, named] using .list named
      | update => simpa [execute, named] using .nothing rfl named
      | delete => simpa [execute, named] using .nothing rfl named
  | true =>
      cases action with
      | create => simpa [execute] using .create
      | read =>
          simp only [execute, named, if_true]
          rw [on_call_bind_snd _ _ (by intro value run; split <;> rfl)]
          exact ⟨.get named, rfl⟩
      | update => simpa [execute, named] using .update named
      | delete =>
          simp only [execute, named, if_true]
          rw [on_call_bind_snd _ _ (by intro value run; split <;> rfl)]
          exact ⟨.delete named, rfl⟩

end Effect

omit [Host] in
theorem effect_of_execute {action : Action} {record : NormalizedRecord} {run after : Run τ}
    {result : Except Fault Value}
    (executed : (execute store definition request action record).on run = (result, after)) :
    Effect store definition request record run.state action after.state := by
  have effect := (execute_effect store definition request action record run).1
  rwa [executed] at effect

end Stages

/-! ## Passages -/

section Passage

variable (resolve : Value → Operation τ Definition) (store : RecordStore τ) (now : Instant)
  (cancel : Nat → Bool) (request : RecordRequest)

/-- A request that got as far as being authorized: its model was resolved, its action has a
name, and the owner that was read is allowed. -/
structure Admitted (state between after : τ) (definition : Definition) (action : Action)
    (owner : Value) : Prop where
  began : cancel 0 = false
  resolved : (resolve request.model).on state = (.ok definition, between)
  went : cancel 1 = false
  named : Action.ofValue? request.action = some action
  read : OwnerRead store definition request action between owner after
  judged : judgement definition request action owner = .ok ()

/-- The stages that were entered before an action was performed, and the values that are
ready for it. -/
inductive Prepared (definition : Definition) :
    Action → List Stage → NormalizedRecord → Prop where
  | validated {action : Action} (writes : action = .create ∨ action = .update)
      (went : cancel 2 = false) {record : NormalizedRecord}
      (valid : validated now definition request action = .ok record) :
      Prepared definition action [.resolveModel, .authorize, .validatePayload] record
  | unwritten {action : Action} (reads : ¬(action = .create ∨ action = .update)) :
      Prepared definition action [.resolveModel, .authorize] ⟨[], []⟩

/-- A request that came as far as the reading of the cancel flag before a stage, with its
state and the stages it has entered. -/
inductive Reached (state : τ) : Stage → τ → List Stage → Prop where
  | start : Reached state .resolveModel state []
  | resolved (began : cancel 0 = false) {definition : Definition} {between : τ}
      (resolved : (resolve request.model).on state = (.ok definition, between)) :
      Reached state .authorize between [.resolveModel]
  | authorized {between after : τ} {definition : Definition} {action : Action} {owner : Value}
      (admitted : Admitted resolve store cancel request state between after definition action owner)
      (writes : action = .create ∨ action = .update) :
      Reached state .validatePayload after [.resolveModel, .authorize]
  | prepared {between after : τ} {definition : Definition} {action : Action} {owner : Value}
      (admitted : Admitted resolve store cancel request state between after definition action owner)
      {trail : List Stage} {record : NormalizedRecord}
      (prepared : Prepared now cancel request definition action trail record) :
      Reached state .execute after trail

/-- The ways a request may pass through its stages from a state, each with its result. -/
inductive Passage (state : τ) : Except Fault Response × Run τ → Prop where
  | cancelled {stage : Stage} {after : τ} {trail : List Stage}
      (reached : Reached resolve store now cancel request state stage after trail)
      (stopped : cancel trail.length = true) :
      Passage state (.error (.refused (Run.cancelled stage)), ⟨after, trail⟩)
  | unresolved (began : cancel 0 = false) {fault : Fault} {between : τ}
      (unresolved : (resolve request.model).on state = (.error fault, between)) :
      Passage state (.error fault, ⟨between, [.resolveModel]⟩)
  | denied (began : cancel 0 = false) {definition : Definition} {between : τ}
      (resolved : (resolve request.model).on state = (.ok definition, between))
      (went : cancel 1 = false) {fault : Fault} {after : τ}
      (refused : (authorize store definition request (Action.ofValue? request.action)).on
        ⟨between, [.resolveModel, .authorize]⟩ =
          (.error fault, ⟨after, [.resolveModel, .authorize]⟩)) :
      Passage state (.error fault, ⟨after, [.resolveModel, .authorize]⟩)
  | invalid {between after : τ} {definition : Definition} {action : Action} {owner : Value}
      (admitted : Admitted resolve store cancel request state between after definition action owner)
      (writes : action = .create ∨ action = .update) (went : cancel 2 = false) {fault : Fault}
      (invalid : validated now definition request action = .error fault) :
      Passage state (.error fault, ⟨after, [.resolveModel, .authorize, .validatePayload]⟩)
  | failed {between after : τ} {definition : Definition} {action : Action} {owner : Value}
      (admitted : Admitted resolve store cancel request state between after definition action owner)
      {trail : List Stage} {record : NormalizedRecord}
      (prepared : Prepared now cancel request definition action trail record)
      (ready : cancel trail.length = false) {fault : Fault} {done : τ}
      (failed : (execute store definition request action record).on ⟨after, trail ++ [.execute]⟩ =
        (.error fault, ⟨done, trail ++ [.execute]⟩)) :
      Passage state (.error fault, ⟨done, trail ++ [.execute]⟩)
  | answered {between after : τ} {definition : Definition} {action : Action} {owner : Value}
      (admitted : Admitted resolve store cancel request state between after definition action owner)
      {trail : List Stage} {record : NormalizedRecord}
      (prepared : Prepared now cancel request definition action trail record)
      (ready : cancel trail.length = false) {answer : Value} {done : τ}
      (answered : (execute store definition request action record).on
        ⟨after, trail ++ [.execute]⟩ = (.ok answer, ⟨done, trail ++ [.execute]⟩)) :
      Passage state (Response.ofAnswer action answer, ⟨done, trail ++ [.execute, .respond]⟩)

end Passage

variable {resolve : Value → Operation τ Definition} {store : RecordStore τ} {now : Instant}
  {cancel : Nat → Bool} {request : RecordRequest}

/-- With everything prepared, the action is performed unless the request is cancelled. -/
theorem perform_passage {state between after : τ} {definition : Definition} {action : Action}
    {owner : Value}
    (admitted : Admitted resolve store cancel request state between after definition action owner)
    {trail : List Stage} {record : NormalizedRecord}
    (prepared : Prepared now cancel request definition action trail record) :
    Passage resolve store now cancel request state
      ((perform store cancel definition request action record).on ⟨after, trail⟩) := by
  rw [perform, on_enter_bind]
  cases ready : cancel trail.length with
  | true => exact .cancelled (.prepared admitted prepared) ready
  | false =>
      simp only [Bool.false_eq_true, if_false]
      rw [Operation.on_bind]
      have entered := (execute_effect store definition request action record
        ⟨after, trail ++ [.execute]⟩).2
      cases executed : (execute store definition request action record).on
          ⟨after, trail ++ [.execute]⟩ with
      | mk result run =>
          obtain ⟨done, passed⟩ := run
          rw [executed] at entered
          obtain rfl : passed = trail ++ [.execute] := entered
          cases result with
          | error fault => exact .failed admitted prepared ready executed
          | ok answer =>
              simp only [Operation.on_bind, on_note, Operation.on_ofExcept, List.append_assoc,
                List.singleton_append]
              exact .answered admitted prepared ready executed

theorem on_prepare_of_reads {definition : Definition} {action : Action}
    (reads : ¬(action = .create ∨ action = .update)) (run : Run τ) :
    (prepare now cancel definition request action).on run = (.ok ⟨[], []⟩, run) := by
  rw [prepare, if_neg (by simpa using reads), Operation.on_pure]

theorem on_prepare_of_writes {definition : Definition} {action : Action}
    (writes : action = .create ∨ action = .update) (run : Run τ) :
    (prepare now cancel definition request action).on run =
      if cancel run.trail.length then (.error (.refused (cancelled .validatePayload)), run)
      else (validated now definition request action,
        { run with trail := run.trail ++ [.validatePayload] }) := by
  rw [prepare, if_pos (by simpa using writes), on_enter_bind, Operation.on_ofExcept]

/-- An authorized request goes on to its payload, if its action has one, and then to its
action. -/
theorem admitted_passage {state between after : τ} {definition : Definition} {action : Action}
    {owner : Value}
    (admitted : Admitted resolve store cancel request state between after definition action owner) :
    Passage resolve store now cancel request state
      ((do
        let record ← prepare now cancel definition request action
        perform store cancel definition request action record : Operation (Run τ) Response).on
        ⟨after, [.resolveModel, .authorize]⟩) := by
  rw [Operation.on_bind]
  by_cases writes : action = .create ∨ action = .update
  · rw [on_prepare_of_writes writes]
    cases went : cancel 2 with
    | true => exact .cancelled (.authorized admitted writes) went
    | false =>
        simp only [Bool.false_eq_true, if_false]
        cases valid : validated now definition request action with
        | error fault => exact .invalid admitted writes went valid
        | ok record => exact perform_passage admitted (.validated writes went valid)
  · rw [on_prepare_of_reads writes]
    exact perform_passage admitted (.unwritten writes)

/-- The stages of a request pass in one of the ways. -/
theorem stages_passage (state : τ) :
    Passage resolve store now cancel request state
      ((stages resolve store now cancel request).on ⟨state, []⟩) := by
  rw [stages, on_enter_bind]
  cases began : cancel 0 with
  | true => exact .cancelled .start began
  | false =>
      simp only [Bool.false_eq_true, if_false]
      rw [Operation.on_bind, on_onState]
      cases resolved : (resolve request.model).on state with
      | mk result between =>
      cases result with
      | error fault => exact .unresolved began resolved
      | ok definition =>
          simp only [List.nil_append]
          rw [on_enter_bind, List.length_singleton]
          cases went : cancel 1 with
          | true => exact .cancelled (.resolved began resolved) went
          | false =>
              simp only [Bool.false_eq_true, if_false, List.singleton_append]
              rw [Operation.on_bind]
              cases authorized : (authorize store definition request
                  (Action.ofValue? request.action)).on ⟨between, [.resolveModel, .authorize]⟩ with
              | mk result run =>
              cases result with
              | error fault =>
                  obtain ⟨after, entered⟩ := run
                  cases (authorize_eq_error authorized).1
                  exact .denied began resolved went authorized
              | ok done =>
                  cases named : Action.ofValue? request.action with
                  | none =>
                      rw [named] at authorized
                      cases authorized
                  | some action =>
                      rw [named] at authorized
                      obtain ⟨owner, read, judged, trail⟩ := authorize_eq_ok_iff.mp authorized
                      obtain ⟨after, entered⟩ := run
                      cases trail
                      exact admitted_passage ⟨began, resolved, went, named, read, judged⟩

/-- An authorized request has come through its first two stages. -/
theorem on_stages_of_admitted {state between after : τ} {definition : Definition}
    {action : Action} {owner : Value}
    (admitted : Admitted resolve store cancel request state between after definition action owner) :
    (stages resolve store now cancel request).on ⟨state, []⟩ =
      (prepare now cancel definition request action >>=
        perform store cancel definition request action).on
          ⟨after, [.resolveModel, .authorize]⟩ := by
  have authorized : (authorize store definition request (some action)).on
      ⟨between, [.resolveModel, .authorize]⟩ = (.ok (), ⟨after, [.resolveModel, .authorize]⟩) :=
    authorize_eq_ok_iff.mpr ⟨owner, admitted.read, admitted.judged, rfl⟩
  rw [stages, on_enter_bind]
  simp only [List.length_nil, admitted.began, Bool.false_eq_true, if_false, List.nil_append]
  rw [Operation.on_bind, on_onState, admitted.resolved]
  simp only
  rw [on_enter_bind, List.length_singleton, admitted.went]
  simp only [Bool.false_eq_true, if_false, List.singleton_append]
  rw [admitted.named, Operation.on_bind, authorized]

/-- A prepared request is about to perform its action. -/
theorem on_stages_of_prepared {state between after : τ} {definition : Definition}
    {action : Action} {owner : Value}
    (admitted : Admitted resolve store cancel request state between after definition action owner)
    {trail : List Stage} {record : NormalizedRecord}
    (prepared : Prepared now cancel request definition action trail record) :
    (stages resolve store now cancel request).on ⟨state, []⟩ =
      (perform store cancel definition request action record).on ⟨after, trail⟩ := by
  rw [on_stages_of_admitted admitted, Operation.on_bind]
  cases prepared with
  | validated writes went valid =>
      rw [on_prepare_of_writes writes]
      simp only [List.length_cons, List.length_nil, went, Bool.false_eq_true, if_false, valid]
      rfl
  | unwritten reads => rw [on_prepare_of_reads reads]

/-- A way to pass through the stages is the way a request takes: what happens in its stages
decides on one of them. -/
theorem stages_eq_of_passage {state : τ} {result : Except Fault Response × Run τ}
    (passage : Passage resolve store now cancel request state result) :
    (stages resolve store now cancel request).on ⟨state, []⟩ = result := by
  cases passage with
  | cancelled reached stopped =>
      cases reached with
      | start => rw [stages, on_enter_bind, stopped, if_pos rfl]
      | resolved began resolved =>
          rw [stages, on_enter_bind, List.length_nil, began]
          simp only [Bool.false_eq_true, if_false, List.nil_append]
          rw [Operation.on_bind, on_onState, resolved]
          simp only
          rw [on_enter_bind, stopped, if_pos rfl]
      | authorized admitted writes =>
          rw [on_stages_of_admitted admitted, Operation.on_bind, on_prepare_of_writes writes,
            stopped]
          simp only [if_true]
      | prepared admitted prepared =>
          rw [on_stages_of_prepared admitted prepared, perform, on_enter_bind, if_pos stopped]
  | unresolved began unresolved =>
      rw [stages, on_enter_bind, List.length_nil, began]
      simp only [Bool.false_eq_true, if_false, List.nil_append]
      rw [Operation.on_bind, on_onState, unresolved]
  | denied began resolved went refused =>
      rw [stages, on_enter_bind, List.length_nil, began]
      simp only [Bool.false_eq_true, if_false, List.nil_append]
      rw [Operation.on_bind, on_onState, resolved]
      simp only
      rw [on_enter_bind, List.length_singleton, went]
      simp only [Bool.false_eq_true, if_false, List.singleton_append]
      rw [Operation.on_bind, refused]
  | invalid admitted writes went invalid =>
      rw [on_stages_of_admitted admitted, Operation.on_bind, on_prepare_of_writes writes]
      simp only [List.length_cons, List.length_nil, went, Bool.false_eq_true, if_false, invalid]
      rfl
  | failed admitted prepared ready failed =>
      rw [on_stages_of_prepared admitted prepared, perform, on_enter_bind,
        if_neg (by simpa using ready), Operation.on_bind, failed]
  | answered admitted prepared ready answered =>
      rw [on_stages_of_prepared admitted prepared, perform, on_enter_bind,
        if_neg (by simpa using ready), Operation.on_bind, answered]
      simp only [Operation.on_bind, on_note, Operation.on_ofExcept, List.append_assoc,
        List.singleton_append]

/-- **The stages of a request have a result exactly when a passage leads to it.** -/
theorem stages_eq_iff_passage {state : τ} {result : Except Fault Response × Run τ} :
    (stages resolve store now cancel request).on ⟨state, []⟩ = result ↔
      Passage resolve store now cancel request state result :=
  ⟨fun same => same ▸ stages_passage state, stages_eq_of_passage⟩

end Run

/-- A request leaves the state as its stages leave it. -/
theorem RecordRequest.on_run_snd [Host] {τ : Type} {resolve : Value → Operation τ Definition}
    {store : RecordStore τ} {now : Instant} {cancel : Nat → Bool} {request : RecordRequest}
    {state : τ} :
    ((request.run resolve store now cancel).on state).2 =
      ((Run.stages resolve store now cancel request).on ⟨state, []⟩).2.state := by
  rw [RecordRequest.run, Operation.on_of]
  cases (Run.stages resolve store now cancel request).on ⟨state, []⟩ with
  | mk result run =>
      cases result with
      | ok response => rfl
      | error fault => cases fault <;> rfl

end GovernedRecords
