import GovernedRecords.Proofs.Pipeline.Discipline
import GovernedRecords.Proofs.Records.Memory

/-!
# Denials

A request is denied by its authorization, or by whoever keeps its model (`denial_of_passage`):
nothing that comes later denies a permission, as long as the record store has no denials of its
own (`RecordStore.Impartial`), as the store in memory has none (`MemoryRecords.impartial`).

Authorization reads little.  Without a grant it reads neither the request nor the record store
(`on_authorize_of_ungranted`), of a payload it reads the owner that is named for a new record
(`authorize_withPayload`), and of an owner who is not the principal only that
(`authorize_of_ownerFound`).
-/

set_option autoImplicit false

namespace GovernedRecords

variable {ρ τ α β : Type}

/-! ## Denials -/

/-- Whether a fault denies a permission. -/
def Fault.isDenial : Fault → Bool
  | .refused refusal => refusal.isDenial
  | _ => false

theorem Fault.isDenial_ofText (error : TextError) : (Fault.ofText error).isDenial = false := by
  cases error <;> rfl

theorem RefusalKind.isDenial_of_code {kind : RefusalKind} {denial : Denial}
    (code : kind.code = denial.code) : kind.isDenial = true := by
  revert code
  cases denial <;> cases kind <;> decide

/-- The code of a denial is that of no other refusal. -/
theorem Refusal.isDenial_of_code {refusal : Refusal} {denial : Denial}
    (code : refusal.code = denial.code) : refusal.isDenial = true := by
  cases refusal with
  | plain kind message path detail => exact RefusalKind.isDenial_of_code code
  | invalidDefinition message problems =>
      have different : ("INVALID_DEFINITION" : Text) ≠ denial.code := by cases denial <;> decide
      exact absurd code different
  | validationFailed errors =>
      have different : ("VALIDATION_FAILED" : Text) ≠ denial.code := by cases denial <;> decide
      exact absurd code different

/-- The faults of an operation deny no permission. -/
def Operation.Impartial (operation : Operation τ α) : Prop :=
  ∀ state fault, (operation.on state).1 = .error fault → fault.isDenial = false

namespace Operation.Impartial

theorem pure (value : α) : Impartial (Pure.pure value : Operation τ α) := by
  intro state fault failed
  cases failed

theorem refuse {refusal : Refusal} (harmless : refusal.isDenial = false) :
    Impartial (Operation.refuse refusal : Operation τ α) := by
  intro state fault failed
  cases failed
  exact harmless

theorem bind {first : Operation τ α} {next : α → Operation τ β} (impartial : Impartial first)
    (later : ∀ value, Impartial (next value)) : Impartial (first >>= next) := by
  intro state fault failed
  rw [on_bind] at failed
  cases opened : first.on state with
  | mk result after =>
      rw [opened] at failed
      cases result with
      | ok value => exact later value after fault failed
      | error other =>
          cases failed
          exact impartial state fault (congrArg Prod.fst opened)

theorem map {operation : Operation τ α} (change : α → β) (impartial : Impartial operation) :
    Impartial (change <$> operation) := by
  intro state fault failed
  cases opened : operation.on state with
  | mk result after =>
      rw [on_map, opened] at failed
      cases result with
      | ok value => cases failed
      | error other =>
          cases failed
          exact impartial state fault (congrArg Prod.fst opened)

end Operation.Impartial

/-- A record store that leaves it to others to deny permissions. -/
structure RecordStore.Impartial (store : RecordStore τ) : Prop where
  create : ∀ model values unique, (store.create model values unique).Impartial
  get : ∀ model id, (store.get model id).Impartial
  list : ∀ model, (store.list model).Impartial
  update : ∀ model id changes unique, (store.update model id changes unique).Impartial
  delete : ∀ model id, (store.delete model id).Impartial
  fetchOwner : ∀ model id field, (store.fetchOwner model id field).Impartial

theorem RecordStore.Impartial.onSecond {store : RecordStore ρ} (impartial : store.Impartial) :
    (store.onSecond : RecordStore (τ × ρ)).Impartial where
  create model values unique state := impartial.create model values unique state.2
  get model id state := impartial.get model id state.2
  list model state := impartial.list model state.2
  update model id changes unique state := impartial.update model id changes unique state.2
  delete model id state := impartial.delete model id state.2
  fetchOwner model id field state := impartial.fetchOwner model id field state.2

namespace MemoryRecords

theorem isDenial_of_asKey {id : Value} {fault : Fault} (failed : id.asKey = .error fault) :
    fault.isDenial = false := by
  unfold Value.asKey at failed
  split at failed
  · cases failed
  · split at failed <;> cases failed
    rfl

theorem isDenial_of_copy [Host] {values : Entries} {fault : Fault}
    (failed : values.copy = .error fault) : fault.isDenial = false := by
  unfold Entries.copy at failed
  split at failed <;> cases failed
  rfl

theorem isDenial_of_requireFree {records : MemoryRecords} {model : Text} {values : Entries}
    {unique : List Text} {except : Option Text} {fault : Fault}
    (taken : records.requireFree model values unique except = .error fault) :
    fault.isDenial = false := by
  unfold requireFree at taken
  split at taken <;> cases taken
  rfl

/-- The store in memory denies no permission. -/
theorem impartial [Host] (now : Instant) : (MemoryRecords.store now).Impartial where
  create model values unique := by
    apply Operation.Impartial.map
    intro records fault failed
    rw [Operation.on_of, create, createUnder] at failed
    split at failed
    · next taken =>
        cases failed
        exact isDenial_of_requireFree taken
    · next deep =>
        cases failed
        exact isDenial_of_copy deep
    · cases failed
  get model id := by
    intro records fault failed
    cases keyed : id.asKey with
    | error other =>
        simp only [MemoryRecords.store, Operation.on_of, record?, keyed] at failed
        cases failed
        exact isDenial_of_asKey keyed
    | ok key =>
        simp only [MemoryRecords.store, Operation.on_of, record?, keyed] at failed
        cases failed
  list model := by
    intro records fault failed
    cases failed
  update model id changes unique := by
    apply Operation.Impartial.map
    intro records fault failed
    rw [Operation.on_of, update] at failed
    split at failed
    · next keyed =>
        cases failed
        exact isDenial_of_asKey keyed
    · cases failed
      rfl
    · split at failed
      · cases failed
        rfl
      · split at failed
        · next deep =>
            cases failed
            exact isDenial_of_copy deep
        · simp only at failed
          split at failed
          · next taken =>
              cases failed
              exact isDenial_of_requireFree taken
          · cases failed
  delete model id := by
    apply Operation.Impartial.map
    intro records fault failed
    rw [Operation.on_of, delete] at failed
    split at failed
    · cases failed
    · split at failed
      · next keyed =>
          cases failed
          exact isDenial_of_asKey keyed
      · cases failed
      · split at failed <;> cases failed
  fetchOwner model id field := by
    intro records fault failed
    cases keyed : id.asKey with
    | error other =>
        simp only [MemoryRecords.store, Operation.on_of, owner?, record?, keyed] at failed
        cases failed
        exact isDenial_of_asKey keyed
    | ok key =>
        simp only [MemoryRecords.store, Operation.on_of, owner?, record?, keyed] at failed
        cases failed

end MemoryRecords

/-! ## Where denials come from -/

namespace Run

section Stages

variable [Host] {resolve : Value → Operation τ Definition} {store : RecordStore τ} {now : Instant}
  {cancel : Nat → Bool} {definition : Definition} {request : RecordRequest} {action : Action}

omit [Host] in
theorem impartial_call {operation : Operation τ α} (impartial : operation.Impartial) :
    (call operation).Impartial := by
  intro run fault failed
  rw [on_call] at failed
  cases called : (operation.on run.state).1 with
  | ok value =>
      rw [called] at failed
      cases failed
  | error other =>
      rw [called] at failed
      cases failed
      have harmless := impartial run.state other called
      cases other with
      | refused refusal => exact harmless
      | _ => rfl

omit [Host] in
theorem impartial_execute (impartial : store.Impartial) (action : Action)
    (record : NormalizedRecord) :
    (execute store definition request action record).Impartial := by
  cases action with
  | create => exact impartial_call (impartial.create _ _ _)
  | read =>
      rw [execute]
      split
      · apply (impartial_call (impartial.get _ _)).bind
        intro found
        split
        · exact .refuse rfl
        · exact .pure found
      · exact impartial_call (impartial.list _)
  | update =>
      rw [execute]
      split
      · exact impartial_call (impartial.update _ _ _ _)
      · exact .refuse rfl
  | delete =>
      rw [execute]
      split
      · apply (impartial_call (impartial.delete _ _)).bind
        intro removed
        split
        · exact .pure _
        · exact .refuse rfl
      · exact .refuse rfl

theorem isDenial_of_validated {fault : Fault}
    (invalid : validated now definition request action = .error fault) :
    fault.isDenial = false := by
  unfold validated at invalid
  split at invalid
  · cases invalid
    rfl
  · cases invalid
    rfl
  · split at invalid
    · cases invalid
      exact Fault.isDenial_ofText _
    · cases invalid

omit [Host] in
theorem isDenial_of_ofAnswer {answer : Value} {fault : Fault}
    (failed : Response.ofAnswer action answer = .error fault) : fault.isDenial = false := by
  cases fault with
  | refused refusal => exact absurd failed (ofAnswer_ne_refused action answer refusal)
  | _ => rfl

/-- Before its action is performed, only its model and its authorization deny a request. -/
theorem denial_of_passage (impartial : store.Impartial) {state : τ} {fault : Fault} {run : Run τ}
    (denial : fault.isDenial = true)
    (passage : Passage resolve store now cancel request state (.error fault, run)) :
    cancel 0 = false ∧
      ((resolve request.model).on state = (.error fault, run.state) ∧
          run.trail = [.resolveModel] ∨
        ∃ definition between, (resolve request.model).on state = (.ok definition, between) ∧
          cancel 1 = false ∧
          (authorize store definition request (Action.ofValue? request.action)).on
            ⟨between, [.resolveModel, .authorize]⟩ = (.error fault, run) ∧
          run.trail = [.resolveModel, .authorize]) := by
  generalize ended : (Except.error fault, run) = result at passage
  cases passage with
  | cancelled =>
      cases ended
      cases denial
  | unresolved began unresolved =>
      cases ended
      exact ⟨began, .inl ⟨unresolved, rfl⟩⟩
  | denied began resolved went refused =>
      cases ended
      exact ⟨began, .inr ⟨_, _, resolved, went, refused, rfl⟩⟩
  | invalid _ _ _ invalid =>
      cases ended
      rw [isDenial_of_validated invalid] at denial
      cases denial
  | failed _ _ _ failed =>
      cases ended
      rw [impartial_execute impartial _ _ _ _ (congrArg Prod.fst failed)] at denial
      cases denial
  | answered =>
      obtain ⟨failed, -⟩ := Prod.mk.injEq .. ▸ ended
      rw [isDenial_of_ofAnswer failed.symm] at denial
      cases denial

/-! ## What authorization reads -/

/-- The owner of the record of a request is found in a state. -/
def OwnerFound (store : RecordStore τ) (definition : Definition) (request : RecordRequest)
    (state : τ) (owner : Value) : Prop :=
  ∃ answer after, (ownerLookup store definition request).on state = (.ok answer, after) ∧
    ownerOf answer = .ok owner

omit [Host] in
theorem OwnerFound.onSecond {store : RecordStore ρ} {state : ρ} {owner : Value}
    (found : OwnerFound store definition request state owner) (first : τ) :
    OwnerFound store.onSecond definition request (first, state) owner := by
  obtain ⟨answer, after, lookup, read⟩ := found
  refine ⟨answer, (first, after), ?_, read⟩
  have looked : (ownerLookup store.onSecond definition request).on (first, state) =
      (((ownerLookup store definition request).on state).1,
        (first, ((ownerLookup store definition request).on state).2)) := rfl
  rw [looked, lookup]

/-- Where the owner is found if it matters, authorization is the judgement on it. -/
theorem authorize_eq_judgement {run : Run τ} {owner : Value}
    (known : definition.needsOwner request.principal (some action) = true →
      request.id.isTruthy = true ∧ OwnerFound store definition request run.state owner) :
    ((authorize store definition request (some action)).on run).1 =
      judgement definition request action owner := by
  rw [on_authorize]
  split
  case isTrue ungranted =>
    have verdict : definition.evaluate request.principal (some action) owner = _ :=
      Definition.evaluate_eq_insufficient_iff.mpr ungranted
    simp only [judgement, verdict]
  case isFalse =>
    split
    case isTrue needed =>
      obtain ⟨named, answer, after, lookup, read⟩ := known needed
      have looked : (fetchOwner store definition request).on run =
          (.ok owner, { run with state := after }) :=
        (fetchOwner_eq_ok_iff needed).mpr ⟨.fetched needed named lookup read, rfl⟩
      rw [looked]
    case isFalse needless =>
      rw [Bool.not_eq_true] at needless
      simp only [judgement, Definition.evaluate_of_not_needsOwner needless owner]

end Stages

end Run

/-- The owner of a record in memory is found in the record. -/
theorem MemoryRecords.ownerFound_of_find? [Host] {now : Instant} {definition : Definition}
    {request : RecordRequest} {records : MemoryRecords} {key : Text} {record : Entries}
    (identified : request.id = .text key)
    (there : records.find? definition.name key = some record) :
    Run.OwnerFound (MemoryRecords.store now) definition request records
      (Entries.get record (definition.ownerField.getD [])) := by
  refine ⟨RecordStore.ownerValue (some (Entries.get record (definition.ownerField.getD []))),
    records, ?_, rfl⟩
  have found : MemoryRecords.owner? definition.name request.id (definition.ownerField.getD [])
      records = .ok (some (Entries.get record (definition.ownerField.getD []))) := by
    rw [MemoryRecords.find?] at there
    simp only [MemoryRecords.owner?, MemoryRecords.record?, identified, Value.asKey, Except.map,
      Option.bind_some, there, Option.map_some]
  simp only [Run.ownerLookup, MemoryRecords.store, Operation.on_of, found]
  rfl

end GovernedRecords
