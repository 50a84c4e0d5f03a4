import GovernedRecords.Proofs.Engine.Refusals
import GovernedRecords.Proofs.Definition.Plain
import GovernedRecords.Store.Directory

/-!
# Asking for a permission foretells what a request is denied

The engine tells what it would decide about an action, given the owner of the record, without a
request for it.  A request is decided otherwise: the grant is asked for first, the owner is looked
up only where it may matter, and a new record is looked at once more.  The two agree
(`denials_foretold`): a request to change or remove a record that is there is denied exactly for
the reason that is told for the owner in the record, a request to read for the one that is told for
any owner, and a request to create also when the new record would be someone else's.

The definition store may be any that denies no permission when it is read; those in memory and in a
directory deny none.
-/

set_option autoImplicit false

namespace GovernedRecords

theorem Denial.code_injective {denial other : Denial} (same : denial.code = other.code) :
    denial = other := by
  revert same
  cases denial <;> cases other <;> decide

/-! ## Loading a definition denies nothing -/

/-- A definition store that denies no permission when it is read. -/
def DefinitionStore.ReadsImpartially {σ : Type} (store : DefinitionStore σ) : Prop :=
  ∀ name, (store.read name).Impartial

theorem Value.isDenial_of_copy [Host] {value : Value} {fault : Fault}
    (failed : value.copy = .error fault) : fault.isDenial = false := by
  cases Value.eq_tooDeep_of_copy failed
  rfl

theorem MemoryDefinitions.readsImpartially [Host] :
    MemoryDefinitions.store.ReadsImpartially := by
  intro name documents fault failed
  simp only [MemoryDefinitions.store, Operation.on_of] at failed
  cases stored : documents.document? name with
  | none =>
      rw [stored] at failed
      cases failed
  | some document =>
      cases copied : document.copy with
      | ok copy =>
          rw [stored, Option.mapM_some, copied] at failed
          cases failed
      | error other =>
          rw [stored, Option.mapM_some, copied] at failed
          cases failed
          exact Value.isDenial_of_copy copied

theorem Directory.isDenial_of_document [Host] {file : Text} {octets : List Octet} {fault : Fault}
    (failed : Directory.document file octets = .error fault) : fault.isDenial = false := by
  unfold Directory.document at failed
  split at failed
  · cases failed
    rfl
  · split at failed
    · cases failed
      rfl
    · next cause _ _ =>
        cases failed
        cases cause <;> rfl
    · cases failed
    · cases failed
      rfl

theorem Directory.readsImpartially [Host] : Directory.store.ReadsImpartially := by
  intro name directory fault failed
  simp only [Directory.store, Operation.on_of, Directory.read] at failed
  split at failed
  · split at failed
    · cases failed
      rfl
    · split at failed
      · cases failed
      · cases read : Directory.document (Directory.fileName name) _ with
        | ok document =>
            rw [read] at failed
            cases failed
        | error other =>
            rw [read] at failed
            cases failed
            exact Directory.isDenial_of_document read
  · cases failed
    rfl

namespace Registry

variable [Host] {σ : Type} {definitions : DefinitionStore σ}

omit [Host] in
theorem Fault.isDenial_ofDocument (cause : DocumentError) :
    (Fault.ofDocument cause).isDenial = false := by
  cases cause with
  | text error => exact Fault.isDenial_ofText error
  | _ => rfl

theorem isDenial_of_checked {now : Instant} {name : Text} {document : Value} {fault : Fault}
    (failed : checked now name document = .error fault) : fault.isDenial = false := by
  unfold checked at failed
  split at failed
  · cases failed
    rfl
  · next cause _ _ =>
    cases failed
    exact Fault.isDenial_ofDocument cause
  · split at failed
    · cases failed
      rfl
    · split at failed <;> cases failed
      rfl

theorem impartial_read (reads : definitions.ReadsImpartially) (now : Instant) (name : Text) :
    (read definitions now name).Impartial := by
  intro registry fault failed
  rw [read, Operation.on_bind] at failed
  simp only [Operation.on_attempt, onStore, Operation.on_within] at failed
  cases stored : ((definitions.read name).on registry.store).1 with
  | error other =>
      rw [stored] at failed
      simp only at failed
      split at failed
      · cases failed
        rfl
      · cases failed
        exact reads name registry.store _ stored
  | ok document =>
      rw [stored] at failed
      cases document with
      | none =>
          cases failed
          rfl
      | some document =>
          simp only [Operation.on_ofExcept] at failed
          exact isDenial_of_checked failed

theorem impartial_load (reads : definitions.ReadsImpartially) (now : Instant) (name : Text) :
    (load definitions now name).Impartial := by
  intro registry fault failed
  rw [load, Operation.on_bind, Operation.on_get] at failed
  cases cached : Keyed.get? registry.cache name with
  | some definition =>
      simp only [cached] at failed
      cases failed
  | none =>
      simp only [cached] at failed
      split at failed
      · refine (impartial_read reads now name).bind ?_ registry fault failed
        intro definition between other changed
        cases changed
      · cases failed
        rfl

/-- A model that cannot be loaded is no matter of permission. -/
theorem impartial_loadValue (reads : definitions.ReadsImpartially) (now : Instant) (name : Value) :
    (loadValue definitions now name).Impartial := by
  intro registry fault failed
  rw [loadValue, named, Operation.on_bind, Operation.on_ofExcept] at failed
  cases keyed : name.asKey with
  | error other =>
      rw [keyed] at failed
      cases failed
      exact MemoryRecords.isDenial_of_asKey keyed
  | ok key =>
      rw [keyed] at failed
      cases key with
      | none =>
          cases failed
          rfl
      | some text => exact impartial_load reads now text registry fault failed

end Registry

/-! ## What authorization denies -/

/-- A new record would be someone else's: under a model with an owner field, the payload of a
principal who is no administrator names an owner who is not the principal. -/
structure NamesOther [Host] (definition : Definition) (request : RecordRequest) : Prop where
  member : request.principal.isAdmin = false
  named : ∃ field entries, definition.owner? = some field ∧ request.payload = .object entries ∧
    (Entries.get entries field).isMissing = false ∧
    (Entries.get entries field).ReadsApart request.principal.id

namespace Run

variable [Host] {τ : Type} {store : RecordStore τ} {definition : Definition}
  {request : RecordRequest} {action : Action}

theorem createsForOther_iff :
    createsForOther definition request = .ok true ↔ NamesOther definition request := by
  have missing : ∀ field, createsForOther definition request = .ok true →
      definition.owner? = some field → ∃ entries, request.payload = .object entries := by
    intro field creates owned
    cases payload : request.payload with
    | object entries => exact ⟨entries, rfl⟩
    | _ => simp [createsForOther, payloadOwner, owned, payload, Value.isMissing] at creates
  constructor
  · intro creates
    cases owned : definition.owner? with
    | none => simp [createsForOther, owned] at creates
    | some field =>
        obtain ⟨entries, payload⟩ := missing field creates owned
        simp only [createsForOther, payloadOwner, owned, payload, Option.isSome_some,
          Bool.true_and] at creates
        split at creates
        · next looks =>
            simp only [Bool.and_eq_true, Bool.not_eq_true'] at looks
            refine ⟨looks.1, field, entries, owned, payload, looks.2, ?_⟩
            rw [← Value.sameText_eq_false_iff]
            cases same : (Entries.get entries field).sameText request.principal.id with
            | error error =>
                rw [same] at creates
                cases creates
            | ok alike =>
                rw [same] at creates
                cases alike with
                | false => rfl
                | true => cases creates
        · cases creates
  · rintro ⟨member, field, entries, owned, payload, present, other⟩
    simp [createsForOther, payloadOwner, owned, payload, member, present,
      Value.sameText_eq_false_iff.mpr other, Except.map]

/-- A judgement denies for a reason exactly when the verdict on the owner does, or when a new
record that is allowed as such would be someone else's. -/
theorem judgement_denies_iff {owner : Value} {denial : Denial} :
    (∃ refusal, judgement definition request action owner = .error (.refused refusal) ∧
        refusal.code = denial.code) ↔
      definition.evaluate request.principal (some action) owner = .denied denial ∨
        denial = .notOwner ∧
          definition.evaluate request.principal (some action) owner = .allowed ∧
          action = .create ∧ NamesOther definition request := by
  rw [judgement]
  cases verdict : definition.evaluate request.principal (some action) owner with
  | denied reason =>
      constructor
      · rintro ⟨refusal, same, code⟩
        cases same
        exact .inl (congrArg Verdict.denied (Denial.code_injective code))
      · rintro (same | ⟨-, allowed, -⟩)
        · cases same
          exact ⟨_, rfl, rfl⟩
        · cases allowed
  | failed error =>
      constructor
      · rintro ⟨refusal, same, -⟩
        cases error <;> cases same
      · rintro (same | ⟨-, allowed, -⟩)
        · cases same
        · cases allowed
  | allowed =>
      constructor
      · rintro ⟨refusal, same, code⟩
        simp only at same
        split at same
        · next creates =>
            split at same
            · next error _ => cases error <;> cases same
            · next other =>
                cases same
                exact .inr ⟨(@Denial.code_injective .notOwner denial code).symm, rfl, creates,
                  createsForOther_iff.mp other⟩
            · cases same
        · cases same
      · rintro (denied | ⟨rfl, -, rfl, other⟩)
        · cases denied
        · simp only [createsForOther_iff.mpr other, if_true]
          exact ⟨_, rfl, rfl⟩

end Run

/-! ## What a request is denied -/

/-- The value of a record under the owner field of its model, null under a model without one. -/
def Definition.ownerIn (definition : Definition) (record : Entries) : Value :=
  match definition.ownerField with
  | some field => Entries.get record field
  | none => .null

namespace Engine

section Foretelling

variable [Host] {σ ρ : Type} {definitions : DefinitionStore σ} {records : RecordStore ρ}
  {now : Instant} {request : RecordRequest} {registry : Registry σ} {state : ρ}

/-- A request is denied a permission for a reason. -/
def Denies (ended : Except Fault Outcome) (denial : Denial) : Prop :=
  ∃ trail refusal, ended = .ok ⟨trail, .error refusal⟩ ∧ refusal.code = denial.code

/-- A request is denied for a reason exactly when its model is loaded and its authorization denies
it for this reason. -/
theorem denies_iff (reads : definitions.ReadsImpartially) (impartial : records.Impartial)
    {denial : Denial} :
    Denies ((handle definitions records now (fun _ => false) request).on (registry, state)).1
        denial ↔
      ∃ definition left,
        (Registry.loadValue definitions now request.model).on registry = (.ok definition, left) ∧
        ∃ refusal, ((Run.authorize records.onSecond definition request
          (Action.ofValue? request.action)).on ⟨(left, state), [.resolveModel, .authorize]⟩).1 =
            .error (.refused refusal) ∧ refusal.code = denial.code := by
  constructor
  · rintro ⟨trail, refusal, ended, code⟩
    have denied := Refusal.isDenial_of_code code
    have stopped := stopped_of_denial impartial ended rfl denied
    cases stopped with
    | unloaded _ unloaded =>
        have harmless := Registry.impartial_loadValue reads now request.model registry _
          (congrArg Prod.fst unloaded)
        rw [Fault.isDenial, denied] at harmless
        cases harmless
    | unauthorized _ loaded _ refused => exact ⟨_, _, loaded, refusal, refused, code⟩
  · rintro ⟨definition, left, loaded, refusal, refused, code⟩
    exact ⟨_, refusal, handle_of_stopped (.unauthorized rfl loaded rfl refused), code⟩

section Told

variable {name : Value} {principal : Principal} {action owner : Value}

/-- What is told of an action is the verdict of the definition that is loaded. -/
theorem told_iff
    {verdict : Verdict} (decided : ∀ error, verdict ≠ .failed error) :
    ((authorize definitions now name principal action owner).on registry).1 = .ok verdict ↔
      ∃ definition left,
        (Registry.loadValue definitions now name).on registry = (.ok definition, left) ∧
        definition.evaluate principal (Action.ofValue? action) owner = verdict := by
  rw [authorize, Operation.on_bind]
  cases (Registry.loadValue definitions now name).on registry with
  | mk result left =>
      cases result with
      | error fault => simp
      | ok definition =>
          cases judged : definition.evaluate principal (Action.ofValue? action) owner with
          | failed error => simp [judged, (decided error).symm]
          | _ => simp [judged]

theorem told_denied_iff {denial : Denial} :
    ((authorize definitions now name principal action owner).on registry).1 =
        .ok (.denied denial) ↔
      ∃ definition left,
        (Registry.loadValue definitions now name).on registry = (.ok definition, left) ∧
        definition.evaluate principal (Action.ofValue? action) owner = .denied denial :=
  told_iff nofun

theorem told_allowed_iff :
    ((authorize definitions now name principal action owner).on registry).1 = .ok .allowed ↔
      ∃ definition left,
        (Registry.loadValue definitions now name).on registry = (.ok definition, left) ∧
        definition.evaluate principal (Action.ofValue? action) owner = .allowed :=
  told_iff nofun

end Told

/-- A request whose owner is found where it matters is denied exactly for the reason that is told
for this owner, or because a new record would be someone else's. -/
theorem denies_iff_told (reads : definitions.ReadsImpartially) (impartial : records.Impartial)
    {action : Action} (named : Action.ofValue? request.action = some action) (owner : Value)
    (known : ∀ definition,
      ((Registry.loadValue definitions now request.model).on registry).1 = .ok definition →
      definition.needsOwner request.principal (some action) = true →
      request.id.isTruthy = true ∧ Run.OwnerFound records definition request state owner)
    (denial : Denial) :
    Denies ((handle definitions records now (fun _ => false) request).on (registry, state)).1
        denial ↔
      ((authorize definitions now request.model request.principal request.action owner).on
          registry).1 = .ok (.denied denial) ∨
        denial = .notOwner ∧
          ((authorize definitions now request.model request.principal request.action owner).on
            registry).1 = .ok .allowed ∧
          action = .create ∧
          ∃ definition, ((Registry.loadValue definitions now request.model).on registry).1 =
            .ok definition ∧ NamesOther definition request := by
  have judged : ∀ {definition left}, (Registry.loadValue definitions now request.model).on
      registry = (.ok definition, left) →
      ((Run.authorize records.onSecond definition request (some action)).on
        ⟨(left, state), [.resolveModel, .authorize]⟩).1 =
          Run.judgement definition request action owner := fun loaded =>
    Run.authorize_eq_judgement fun needed =>
      (known _ (congrArg Prod.fst loaded) needed).imp_right fun found => found.onSecond _
  rw [denies_iff reads impartial, named, told_denied_iff, told_allowed_iff, named]
  constructor
  · rintro ⟨definition, left, loaded, denied⟩
    rw [judged loaded] at denied
    rcases Run.judgement_denies_iff.mp denied with verdict | ⟨same, allowed, creates, other⟩
    · exact .inl ⟨definition, left, loaded, verdict⟩
    · exact .inr ⟨same, ⟨definition, left, loaded, allowed⟩, creates, definition,
        congrArg Prod.fst loaded, other⟩
  · rintro (⟨definition, left, loaded, verdict⟩ |
      ⟨same, ⟨definition, left, loaded, allowed⟩, creates, again, alike, other⟩)
    · refine ⟨definition, left, loaded, ?_⟩
      rw [judged loaded]
      exact Run.judgement_denies_iff.mpr (.inl verdict)
    · refine ⟨definition, left, loaded, ?_⟩
      rw [loaded] at alike
      cases alike
      rw [judged loaded]
      exact Run.judgement_denies_iff.mpr (.inr ⟨same, allowed, creates, other⟩)

/-- A value that names no action is denied like any action without a grant. -/
theorem denies_iff_told_of_unnamed (reads : definitions.ReadsImpartially)
    (impartial : records.Impartial) (unnamed : Action.ofValue? request.action = none)
    (owner : Value) (denial : Denial) :
    Denies ((handle definitions records now (fun _ => false) request).on (registry, state)).1
        denial ↔
      ((authorize definitions now request.model request.principal request.action owner).on
        registry).1 = .ok (.denied denial) := by
  rw [denies_iff reads impartial, told_denied_iff, unnamed]
  refine exists₂_congr fun definition left => and_congr_right fun loaded => ?_
  constructor
  · rintro ⟨refusal, refused, code⟩
    cases refused
    exact congrArg Verdict.denied (Denial.code_injective code)
  · intro verdict
    cases verdict
    exact ⟨_, rfl, rfl⟩

/-- What is told of an action, for the owner of a record, foretells for which reasons a request for
the action is denied, under the model that is loaded and with the records there are. -/
structure Predicted (request : RecordRequest) (loaded : Except Fault Definition)
    (records : MemoryRecords) (told : Value → Except Fault Verdict)
    (ended : Except Fault Outcome) : Prop where
  change : ∀ action, Action.ofValue? request.action = some action → action.isMutating = true →
    ∀ definition key record, loaded = .ok definition → request.id = .text key →
      records.find? definition.name key = some record →
      ∀ denial, Denies ended denial ↔ told (definition.ownerIn record) = .ok (.denied denial)
  read : Action.ofValue? request.action = some .read → ∀ owner denial,
    Denies ended denial ↔ told owner = .ok (.denied denial)
  unnamed : Action.ofValue? request.action = none → ∀ owner denial,
    Denies ended denial ↔ told owner = .ok (.denied denial)
  create : Action.ofValue? request.action = some .create → ∀ owner denial,
    Denies ended denial ↔ told owner = .ok (.denied denial) ∨
      denial = .notOwner ∧ told owner = .ok .allowed ∧
        ∃ definition, loaded = .ok definition ∧ NamesOther definition request

/-- A record that is there is found with its owner by a request that names it. -/
theorem ownerFound_of_there {stored : Instant} {records : MemoryRecords}
    (numbered : records.Numbered) {definition : Definition} {action : Action} {key : Text}
    {record : Entries} (identified : request.id = .text key)
    (there : records.find? definition.name key = some record)
    (needed : definition.needsOwner request.principal (some action) = true) :
    request.id.isTruthy = true ∧ Run.OwnerFound (MemoryRecords.store stored) definition request
      records (definition.ownerIn record) := by
  have found := @MemoryRecords.ownerFound_of_find? _ stored definition request records key record
    identified there
  constructor
  · obtain ⟨number, -, same⟩ := numbered definition.name key record there
    rw [identified, same]
    rfl
  · cases owned : definition.owner? with
    | none => simp [Definition.needsOwner, owned] at needed
    | some field =>
        have declared := Definition.ownerField_of_owner? owned
        rw [declared, Option.getD_some] at found
        rwa [Definition.ownerIn, declared]

/-- With numbered records, what is told foretells the denials. -/
theorem predicted_of_numbered (reads : definitions.ReadsImpartially) (registry : Registry σ)
    {records : MemoryRecords} (numbered : records.Numbered) (now stored : Instant)
    (request : RecordRequest) :
    Predicted request ((Registry.loadValue definitions now request.model).on registry).1 records
      (fun owner => ((authorize definitions now request.model request.principal request.action
        owner).on registry).1)
      ((handle definitions (MemoryRecords.store stored) now (fun _ => false) request).on
        (registry, records)).1 := by
  have impartial := MemoryRecords.impartial stored
  -- A change may need the owner, who is found in the record; a reading or a creation needs none.
  refine ⟨?_, ?_, denies_iff_told_of_unnamed reads impartial, ?_⟩
  · intro action named mutating definition key record loaded identified there denial
    have notCreate : action ≠ .create := by
      rintro rfl
      cases mutating
    have known : ∀ other,
        ((Registry.loadValue definitions now request.model).on registry).1 = .ok other →
        other.needsOwner request.principal (some action) = true →
        request.id.isTruthy = true ∧ Run.OwnerFound (MemoryRecords.store stored) other request
          records (definition.ownerIn record) := by
      intro other again needed
      cases loaded.symm.trans again
      exact ownerFound_of_there numbered identified there needed
    refine (denies_iff_told reads impartial named _ known denial).trans ?_
    simp only [notCreate, false_and, and_false, or_false]
  · intro named owner denial
    refine (denies_iff_told reads impartial named owner ?_ denial).trans ?_
    · intro definition loaded needed
      cases needed
    · simp only [reduceCtorEq, false_and, and_false, or_false]
  · intro named owner denial
    refine (denies_iff_told reads impartial named owner ?_ denial).trans ?_
    · intro definition loaded needed
      cases needed
    · simp only [true_and]

/-- **Asking for a permission foretells what a request is denied.**  After any run, what is told of
an action says for which reasons a request for it is denied. -/
theorem denials_foretold (reads : definitions.ReadsImpartially) (initial : σ)
    (events : List Event) (now stored : Instant) (request : RecordRequest) :
    let state := after definitions (start initial) events
    Predicted request ((Registry.loadValue definitions now request.model).on state.1).1 state.2
      (fun owner => ((authorize definitions now request.model request.principal request.action
        owner).on state.1).1)
      ((handle definitions (MemoryRecords.store stored) now (fun _ => false) request).on
        state).1 :=
  predicted_of_numbered reads _ (wellKept_after definitions initial events).numbered now stored
    request

end Foretelling

/-- A manager creates a note, and another one asks whether a change of it would be allowed: it is
told that it would not, and the request for the change is denied for this reason. -/
theorem note_change_denied :
    let now : Instant := ⟨0, by decide⟩
    let noted : RecordRequest := { noteUpdate with action := .text "create", id := .null }
    let changed : RecordRequest := { noteUpdate with principal := ⟨.text "u2", .text "Manager"⟩ }
    let state := after MemoryDefinitions.store (start [("note", noteDefinition.toDocument)])
      [.request now now (fun _ => false) noted]
    ((authorize MemoryDefinitions.store now (.text "note") changed.principal (.text "update")
        (.text "u1")).on state.1).1 = .ok (.denied .notOwner) ∧
      Denies ((handle MemoryDefinitions.store (MemoryRecords.store now) now (fun _ => false)
        changed).on state).1 .notOwner := by
  intro now noted changed state
  have told : ((authorize MemoryDefinitions.store now (.text "note") changed.principal
      (.text "update") (.text "u1")).on state.1).1 = .ok (.denied .notOwner) := by
    rfl
  have foretold := denials_foretold MemoryDefinitions.readsImpartially
    [("note", noteDefinition.toDocument)] [.request now now (fun _ => false) noted] now now changed
  obtain ⟨record, there, owned⟩ : ∃ record,
      state.2.find? noteDefinition.name "rec-1" = some record ∧
        noteDefinition.ownerIn record = .text "u1" := ⟨_, rfl, rfl⟩
  refine ⟨told, (foretold.change .update rfl rfl noteDefinition "rec-1" record rfl rfl there
    .notOwner).mpr ?_⟩
  rw [owned]
  exact told

end Engine

end GovernedRecords
