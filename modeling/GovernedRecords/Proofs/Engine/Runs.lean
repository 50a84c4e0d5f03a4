import GovernedRecords.Engine
import GovernedRecords.Proofs.Pipeline.Answers
import GovernedRecords.Proofs.Registry.Calls

/-!
# Runs of an engine

An engine with records in memory is driven by events: calls of the registry and requests for
records, each at its own instant.  A run is a list of events, and what every event keeps holds
after every run (`after_induction`).

A request changes the records only by the one step of its action (`handle_effect`), and the
names in the cache and the ids of the records are right after every run (`wellKept_after`).
-/

set_option autoImplicit false

namespace GovernedRecords.Engine

variable [Host] {σ : Type}

/-- A registry with records in memory. -/
abbrev State (σ : Type) := Registry σ × MemoryRecords

/-- What drives an engine: a call of the registry, or a request, with the instant at which it
is checked and the one at which records are stored. -/
inductive Event where
  | call (now : Instant) (call : RegistryCall)
  | request (now stored : Instant) (cancel : Nat → Bool) (request : RecordRequest)

/-- The state after an event. -/
def step (definitions : DefinitionStore σ) (state : State σ) : Event → State σ
  | .call now call => (((Registry.answer definitions now call).on state.1).2, state.2)
  | .request now stored cancel request =>
    ((handle definitions (MemoryRecords.store stored) now cancel request).on state).2

/-- The state after a run. -/
def after (definitions : DefinitionStore σ) (state : State σ) : List Event → State σ
  | [] => state
  | event :: rest => after definitions (step definitions state event) rest

/-- The state before a run: nothing in the cache, and no record. -/
def start (initial : σ) : State σ := (.ofStore initial, .empty)

/-- What every event keeps holds after every run. -/
theorem after_induction {definitions : DefinitionStore σ} {holds : State σ → Prop}
    (kept : ∀ state event, holds state → holds (step definitions state event)) {state : State σ}
    (before : holds state) (events : List Event) : holds (after definitions state events) := by
  induction events generalizing state with
  | nil => exact before
  | cons event rest ih => exact ih (kept state event before)

/-! ## The effect of a request -/

/-- What performing an action does to the records in memory: a new record is added, one that
is there is changed or removed, or nothing happens. -/
inductive RecordStep (stored : Instant) (definition : Definition) (request : RecordRequest)
    (record : NormalizedRecord) (records : MemoryRecords) : Action → MemoryRecords → Prop where
  | unchanged {action : Action} : RecordStep stored definition request record records action records
  | created : RecordStep stored definition request record records .create
      (records.add definition.name (MemoryRecords.stamped records.newId (.text stored.stamp)
        (.text stored.stamp) record.values))
  | updated {key : Text} {existing : Entries} (identified : request.id = .text key)
      (named : request.id.isTruthy = true)
      (there : records.find? definition.name key = some existing) :
      RecordStep stored definition request record records .update
        (records.putRecord definition.name key
          (MemoryRecords.stamped key (Entries.get existing "createdAt") (.text stored.stamp)
            (Entries.merge existing record.values)))
  | removed {key : Text} (identified : request.id = .text key)
      (named : request.id.isTruthy = true) :
      RecordStep stored definition request record records .delete
        (records.remove definition.name key)

/-- What an action did to answer is one of these steps. -/
theorem recordStep_of_answered {stored : Instant} {definition : Definition}
    {request : RecordRequest} {record : NormalizedRecord} {records after : MemoryRecords}
    {action : Action} {response : Response}
    (answered : Run.Answered stored definition request record records action response after) :
    RecordStep stored definition request record records action after := by
  cases answered with
  | created done =>
      obtain ⟨-, rfl, rfl⟩ := MemoryRecords.create_eq_ok done
      exact .created
  | found => exact .unchanged
  | listed => exact .unchanged
  | updated named done =>
      obtain ⟨key, existing, identified, there, -, rfl, rfl⟩ := MemoryRecords.update_eq_ok done
      exact .updated identified named there
  | removed named done =>
      obtain ⟨key, existing, identified, -, rfl⟩ := MemoryRecords.delete_eq_true done
      exact .removed identified named

section Handle

variable {definitions : DefinitionStore σ} {now stored : Instant} {cancel : Nat → Bool}
  {request : RecordRequest} {state : State σ}

/-- What a request did before it performed its action, in an engine: it was admitted under
the definition it loaded, and its values were prepared. -/
structure Admission (definitions : DefinitionStore σ) (now stored : Instant)
    (cancel : Nat → Bool) (request : RecordRequest) (state between : State σ)
    (definition : Definition) (action : Action) (owner : Value) (trail : List Stage)
    (record : NormalizedRecord) : Prop where
  loaded : ∃ registry,
    (Registry.loadValue definitions now request.model).on state.1 = (.ok definition, registry)
  named : Action.ofValue? request.action = some action
  read : Run.OwnerRead (MemoryRecords.store stored).onSecond definition request action between
    owner between
  judged : Run.judgement definition request action owner = .ok ()
  prepared : Run.Prepared now cancel request definition action trail record
  unchanged : between.2 = state.2

theorem on_handle_snd :
    ((handle definitions (MemoryRecords.store stored) now cancel request).on state).2 =
      ((Run.stages (fun name => (Registry.loadValue definitions now name).onFirst)
        (MemoryRecords.store stored).onSecond now cancel request).on ⟨state, []⟩).2.state :=
  RecordRequest.on_run_snd

/-- The owner of a record in memory is read without any change. -/
theorem after_of_ownerRead {definition : Definition} {action : Action} {owner : Value}
    {between after : State σ}
    (read : Run.OwnerRead (MemoryRecords.store stored).onSecond definition request action between
      owner after) : after = between := by
  cases read with
  | unneeded => rfl
  | unnamed => rfl
  | fetched _ _ lookup => exact (congrArg Prod.snd lookup).symm

/-- The registry after a request is the one before it, or the one that loading left. -/
def LeftByLoad (definitions : DefinitionStore σ) (now : Instant) (name : Value)
    (before after : Registry σ) : Prop :=
  after = before ∨ after = ((Registry.loadValue definitions now name).on before).2

theorem resolved_iff {name : Value} {between : State σ} {result : Except Fault Definition}
    (resolved : (Registry.loadValue definitions now name).onFirst.on state = (result, between)) :
    (Registry.loadValue definitions now name).on state.1 = (result, between.1) ∧
      between.2 = state.2 ∧ LeftByLoad definitions now name state.1 between.1 := by
  rw [Operation.on_onFirst] at resolved
  obtain ⟨rfl, rfl⟩ := Prod.mk.injEq .. ▸ resolved
  exact ⟨rfl, rfl, .inr rfl⟩

theorem admission_of_admitted {between after : State σ} {definition : Definition}
    {action : Action} {owner : Value} {trail : List Stage} {record : NormalizedRecord}
    (admitted : Run.Admitted (fun name => (Registry.loadValue definitions now name).onFirst)
      (MemoryRecords.store stored).onSecond cancel request state between after definition action
      owner)
    (prepared : Run.Prepared now cancel request definition action trail record) :
    Admission definitions now stored cancel request state after definition action owner trail
      record := by
  obtain ⟨loaded, kept, -⟩ := resolved_iff admitted.resolved
  have same := after_of_ownerRead admitted.read
  refine ⟨⟨between.1, loaded⟩, admitted.named, ?_, admitted.judged, prepared, same ▸ kept⟩
  exact same ▸ admitted.read

/-- A request that was admitted has left the registry as loading left it and the records
alone. -/
theorem left_of_admitted {between after : State σ} {definition : Definition} {action : Action}
    {owner : Value}
    (admitted : Run.Admitted (fun name => (Registry.loadValue definitions now name).onFirst)
      (MemoryRecords.store stored).onSecond cancel request state between after definition action
      owner) :
    LeftByLoad definitions now request.model state.1 after.1 ∧ after.2 = state.2 := by
  obtain ⟨-, kept, left⟩ := resolved_iff admitted.resolved
  have same := after_of_ownerRead admitted.read
  exact same ▸ ⟨left, kept⟩

/-- How a request ends that was admitted and performed: with a response to its action. -/
inductive Responded (definitions : DefinitionStore σ) (now stored : Instant)
    (cancel : Nat → Bool) (request : RecordRequest) (state : State σ) :
    Except Fault Response → List Stage → MemoryRecords → Prop where
  | answered {between : State σ} {definition : Definition} {action : Action} {owner : Value}
      {trail : List Stage} {record : NormalizedRecord} {response : Response}
      {records : MemoryRecords}
      (admission : Admission definitions now stored cancel request state between definition action
        owner trail record)
      (answered : Run.Answered stored definition request record state.2 action response records) :
      Responded definitions now stored cancel request state (.ok response)
        (trail ++ [.execute, .respond]) records

/-- However a request passes through its stages, it leaves the registry as loading left it; and
it ends with a fault and leaves the records alone, or it was performed and responds. -/
theorem ended_of_passage {result : Except Fault Response × Run (State σ)}
    (passage : Run.Passage (fun name => (Registry.loadValue definitions now name).onFirst)
      (MemoryRecords.store stored).onSecond now cancel request state result) :
    LeftByLoad definitions now request.model state.1 result.2.state.1 ∧
      ((∃ fault, result.1 = .error fault) ∧ result.2.state.2 = state.2 ∨
        Responded definitions now stored cancel request state result.1 result.2.trail
          result.2.state.2) := by
  cases passage with
  | cancelled stopped =>
      cases stopped with
      | start => exact ⟨.inl rfl, .inl ⟨⟨_, rfl⟩, rfl⟩⟩
      | resolved _ resolved =>
          obtain ⟨-, kept, left⟩ := resolved_iff resolved
          exact ⟨left, .inl ⟨⟨_, rfl⟩, kept⟩⟩
      | authorized admitted =>
          exact (left_of_admitted admitted).imp_right fun kept => .inl ⟨⟨_, rfl⟩, kept⟩
      | prepared admitted =>
          exact (left_of_admitted admitted).imp_right fun kept => .inl ⟨⟨_, rfl⟩, kept⟩
  | unresolved _ unresolved =>
      obtain ⟨-, kept, left⟩ := resolved_iff unresolved
      exact ⟨left, .inl ⟨⟨_, rfl⟩, kept⟩⟩
  | denied _ resolved _ refused =>
      obtain ⟨-, kept, left⟩ := resolved_iff resolved
      rcases (Run.authorize_eq_error refused).2 with same | ⟨_, _, _, same⟩
      · cases same
        exact ⟨left, .inl ⟨⟨_, rfl⟩, kept⟩⟩
      · cases same
        exact ⟨left, .inl ⟨⟨_, rfl⟩, kept⟩⟩
  | invalid admitted =>
      exact (left_of_admitted admitted).imp_right fun kept => .inl ⟨⟨_, rfl⟩, kept⟩
  | failed admitted prepared _ failed =>
      obtain ⟨left, kept⟩ := left_of_admitted admitted
      rcases Run.performed _ _ with ⟨fault, same⟩ | ⟨answer, response, records, same, -, -⟩
      · cases failed.symm.trans same
        exact ⟨left, .inl ⟨⟨_, rfl⟩, kept⟩⟩
      · cases failed.symm.trans same
  | answered admitted prepared _ answered =>
      obtain ⟨left, kept⟩ := left_of_admitted admitted
      rcases Run.performed _ _ with ⟨fault, same⟩ | ⟨answer, response, records, same, made, done⟩
      · cases answered.symm.trans same
      · cases answered.symm.trans same
        rw [made]
        exact ⟨left, .inr (.answered (admission_of_admitted admitted prepared) (kept ▸ done))⟩

/-- A request ends without a response and leaves the records alone, or it was admitted and
performed, and responds. -/
theorem handle_cases (definitions : DefinitionStore σ) (now stored : Instant)
    (cancel : Nat → Bool) (request : RecordRequest) (state : State σ) :
    let ended := (handle definitions (MemoryRecords.store stored) now cancel request).on state
    ((∀ trail response, ended.1 ≠ .ok ⟨trail, .ok response⟩) ∧ ended.2.2 = state.2) ∨
      ∃ trail response, ended.1 = .ok ⟨trail, .ok response⟩ ∧
        Responded definitions now stored cancel request state (.ok response) trail ended.2.2 := by
  rw [handle, RecordRequest.run, Operation.on_of]
  have passage : Run.Passage (fun name => (Registry.loadValue definitions now name).onFirst)
      (MemoryRecords.store stored).onSecond now cancel request state _ := Run.stages_passage state
  have ended := (ended_of_passage passage).2
  cases done : (Run.stages (fun name => (Registry.loadValue definitions now name).onFirst)
      (MemoryRecords.store stored).onSecond now cancel request).on ⟨state, []⟩ with
  | mk result run =>
      rw [done] at ended
      rcases ended with ⟨⟨fault, failed⟩, kept⟩ | responded
      · cases failed
        cases fault <;> exact .inl ⟨by simp, kept⟩
      · cases result with
        | error fault => cases responded
        | ok response => exact .inr ⟨_, _, rfl, responded⟩

/-- A request leaves the records alone, or it was admitted and had the effect of its action. -/
theorem handle_effect :
    (step definitions state (.request now stored cancel request)).2 = state.2 ∨
      ∃ between definition action owner trail record,
        Admission definitions now stored cancel request state between definition action owner
          trail record ∧
        RecordStep stored definition request record state.2 action
          (step definitions state (.request now stored cancel request)).2 := by
  rw [step]
  rcases handle_cases definitions now stored cancel request state with
    ⟨-, kept⟩ | ⟨_, _, -, ⟨admission, answered⟩⟩
  · exact .inl kept
  · exact .inr ⟨_, _, _, _, _, _, admission, recordStep_of_answered answered⟩

theorem handle_left :
    LeftByLoad definitions now request.model state.1
      (step definitions state (.request now stored cancel request)).1 := by
  rw [step, on_handle_snd]
  exact (ended_of_passage (Run.stages_passage state)).1

end Handle

/-! ## What every run keeps -/

/-- What the steps of the calls keep of a registry, every event keeps. -/
theorem kept_step {definitions : DefinitionStore σ} {holds : Registry σ → Prop}
    (kept : ∀ now, Registry.KeptBySteps holds definitions now) {state : State σ}
    (before : holds state.1) (event : Event) : holds (step definitions state event).1 := by
  cases event with
  | call now call => exact ((kept now).answer call state.1 before).1
  | request now stored cancel request =>
      rcases handle_left with same | loaded
      · rw [same]
        exact before
      · rw [loaded]
        exact (Registry.keeps_loadValue (kept now).load request.model state.1 before).1

/-- Definitions are cached under their names, and records stored under numbered ids. -/
structure WellKept (state : State σ) : Prop where
  cached : Registry.CacheNamed state.1
  numbered : state.2.Numbered

omit [Host] in
theorem wellKept_start (initial : σ) : WellKept (start initial) :=
  ⟨Registry.cacheNamed_ofStore initial, MemoryRecords.numbered_empty⟩

omit [Host] in
theorem numbered_of_recordStep {stored : Instant} {definition : Definition}
    {request : RecordRequest} {record : NormalizedRecord} {records after : MemoryRecords}
    {action : Action} (numbered : records.Numbered)
    (stepped : RecordStep stored definition request record records action after) :
    after.Numbered := by
  cases stepped with
  | unchanged => exact numbered
  | created => exact numbered.add _ _
  | updated _ _ there => exact numbered.putRecord there _
  | removed => exact numbered.remove _ _

theorem WellKept.step {definitions : DefinitionStore σ} {state : State σ} (kept : WellKept state)
    (event : Event) : WellKept (step definitions state event) := by
  refine ⟨kept_step (Registry.keptBySteps_cacheNamed definitions) kept.cached event, ?_⟩
  cases event with
  | call now call => exact kept.numbered
  | request now stored cancel request =>
      rcases handle_effect with same | ⟨_, _, _, _, _, _, _, stepped⟩
      · rw [same]
        exact kept.numbered
      · exact numbered_of_recordStep kept.numbered stepped

/-- After every run the cache and the ids are well kept. -/
theorem wellKept_after (definitions : DefinitionStore σ) (initial : σ) (events : List Event) :
    WellKept (after definitions (start initial) events) :=
  after_induction (fun _ event kept => kept.step event) (wellKept_start initial) events

end GovernedRecords.Engine
