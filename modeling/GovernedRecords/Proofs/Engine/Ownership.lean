import GovernedRecords.Proofs.Engine.Runs
import GovernedRecords.Proofs.Entries

/-!
# Who may change a record

Permission is asked for in several places: the grant of the role, the owner of the record as
the record store knows it, and the judgement that joins them.  Over whole runs these add up:
a record is changed or removed only by someone whose role may do so under the definition of
its model, and who owns it, unless there are no owners or the role is that of an
administrator.
-/

set_option autoImplicit false

namespace GovernedRecords.Engine

variable [Host] {σ : Type} {definitions : DefinitionStore σ} {now stored : Instant}
  {cancel : Nat → Bool} {request : RecordRequest} {state between : State σ}
  {definition : Definition} {action : Action} {owner : Value} {trail : List Stage}
  {record : NormalizedRecord}

/-- The action that made a record what it is afterwards: an update while it is there. -/
def actionOf : Option Entries → Action
  | some _ => .update
  | none => .delete

/-- A principal may change a record under a definition: there are no owners, or the role is
that of an administrator, or the record has an owner whose text is that of the principal. -/
def MayChange (definition : Definition) (principal : Principal) (existing : Entries) : Prop :=
  definition.owner? = none ∨ principal.isAdmin = true ∨
    ∃ field owner, definition.owner? = some field ∧ Entries.get? existing field = some owner ∧
      owner.isNull = false ∧ owner.ReadsAs principal.id

omit [Host] in
theorem ownerOf_ownerValue (found : Option Value) :
    Run.ownerOf (RecordStore.ownerValue found) =
      match found with
      | some owner => .ok owner
      | none => .error (.refused Run.recordNotFound) := by
  cases found <;> rfl

/-- An owner who was read in memory is the owner of a record that is there. -/
theorem existing_of_fetched {answer : Value} {after : State σ}
    (lookup : (Run.ownerLookup (MemoryRecords.store stored).onSecond definition request).on between
      = (.ok answer, after)) (read : Run.ownerOf answer = .ok owner) :
    ∃ key existing, request.id = .text key ∧
      between.2.find? definition.name key = some existing ∧
      Entries.get existing (definition.ownerField.getD []) = owner := by
  have answered : (MemoryRecords.owner? definition.name request.id
      (definition.ownerField.getD []) between.2).map RecordStore.ownerValue = .ok answer :=
    congrArg Prod.fst lookup
  cases found : MemoryRecords.owner? definition.name request.id (definition.ownerField.getD [])
      between.2 with
  | error fault =>
      rw [found] at answered
      cases answered
  | ok result =>
      rw [found] at answered
      cases answered
      rw [ownerOf_ownerValue] at read
      cases result with
      | none => cases read
      | some stored =>
          cases read
          exact MemoryRecords.owner?_eq_ok found

/-- Whoever changes a record that is there is allowed to. -/
theorem mayChange_of_admission {key : Text} {existing : Entries}
    (admission : Admission definitions now stored cancel request state between definition action
      owner trail record)
    (mutating : action.isMutating = true) (identified : request.id = .text key)
    (named : request.id.isTruthy = true)
    (there : state.2.find? definition.name key = some existing) :
    MayChange definition request.principal existing := by
  have allowed := Run.allowed_of_judgement admission.judged
  cases owned : definition.owner? with
  | none => exact .inl owned
  | some field =>
      cases admin : request.principal.isAdmin with
      | true => exact .inr (.inl admin)
      | false =>
          have needed : definition.needsOwner request.principal (some action) = true := by
            simp [Definition.needsOwner, mutating, owned, admin]
          cases admission.read with
          | unneeded needless =>
              rw [needless] at needed
              cases needed
          | unnamed nameless =>
              rw [nameless] at named
              cases named
          | fetched _ _ lookup read =>
              obtain ⟨other, found, same, stored, value⟩ := existing_of_fetched lookup read
              cases identified.symm.trans same
              rw [admission.unchanged] at stored
              cases there.symm.trans stored
              rw [Definition.ownerField_of_owner? owned, Option.getD_some] at value
              obtain ⟨known, same⟩ := Definition.owner_of_allowed mutating owned admin allowed
              refine .inr (.inr ⟨field, owner, owned, ?_, known, same⟩)
              exact Entries.get?_of_get value known

/-- **A record is changed or removed only by someone who may.**  After any run of calls of the
registry and requests, when a request changes or removes a record, the definition of its model
that the request loaded grants the action to the role of the principal, who is the owner of the
record as it was before, unless the definition knows no owners or the role is that of an
administrator. -/
theorem changed_only_by_owner (definitions : DefinitionStore σ) (initial : σ)
    (events : List Event) (now stored : Instant) (cancel : Nat → Bool) (request : RecordRequest)
    {model id : Text} {existing : Entries}
    (there : (after definitions (start initial) events).2.find? model id = some existing)
    (changed : (step definitions (after definitions (start initial) events)
      (.request now stored cancel request)).2.find? model id ≠ some existing) :
    ∃ definition registry action,
      (Registry.loadValue definitions now request.model).on
        (after definitions (start initial) events).1 = (.ok definition, registry) ∧
      definition.name = model ∧ request.model = .text model ∧ request.id = .text id ∧
      action = actionOf ((step definitions (after definitions (start initial) events)
        (.request now stored cancel request)).2.find? model id) ∧
      Action.ofValue? request.action = some action ∧
      (definition.actionsFor request.principal.role).has action = true ∧
      MayChange definition request.principal existing := by
  have kept := wellKept_after definitions initial events
  generalize after definitions (start initial) events = state at there changed kept
  rcases handle_effect with same | ⟨between, definition, action, owner, trail, record, admission,
    stepped⟩
  · rw [same] at changed
    exact absurd there changed
  · obtain ⟨registry, loaded⟩ := admission.loaded
    have model_eq : request.model = .text definition.name :=
      (Registry.ensures_loadValue definitions now request.model state.1 kept.cached).2 definition
        (congrArg Prod.fst loaded)
    have granted := Definition.granted_of_allowed (Run.allowed_of_judgement admission.judged)
    generalize step definitions state (.request now stored cancel request) = afterwards
      at changed stepped
    generalize result_eq : afterwards.2 = result at changed stepped
    cases stepped with
    | unchanged => exact absurd there changed
    | created =>
        rw [MemoryRecords.find?_add] at changed
        split at changed
        · next same =>
            rw [← same.2, kept.numbered.find?_newId model] at there
            cases there
        · exact absurd there changed
    | @updated key previous identified named found =>
        have place := MemoryRecords.find?_putRecord state.2 definition.name key model id
          (MemoryRecords.stamped key (Entries.get previous "createdAt") (.text stored.stamp)
            (Entries.merge previous record.values))
        rw [place] at changed ⊢
        split at changed
        · next same =>
            obtain ⟨rfl, rfl⟩ := same
            rw [if_pos ⟨rfl, rfl⟩]
            exact ⟨definition, registry, .update, loaded, rfl, model_eq, identified, rfl,
              admission.named, granted,
              mayChange_of_admission admission rfl identified named there⟩
        · exact absurd there changed
    | @removed key identified named =>
        rw [MemoryRecords.find?_remove] at changed ⊢
        split at changed
        · next same =>
            obtain ⟨rfl, rfl⟩ := same
            rw [if_pos ⟨rfl, rfl⟩]
            exact ⟨definition, registry, .delete, loaded, rfl, model_eq, identified, rfl,
              admission.named, granted,
              mayChange_of_admission admission rfl identified named there⟩
        · exact absurd there changed

end GovernedRecords.Engine

/-! ## A manager and a note -/

namespace GovernedRecords.Engine

/-- A request about the first note by a manager. -/
def noteRequest (action title : String) : RecordRequest where
  model := .text "note"
  action := .text action
  principal := ⟨.text "u1", .text "Manager"⟩
  payload := .object [(.text "title", .text title)]
  id := .text "rec-1"

/-- The event of such a request, uncancelled, at the first instant. -/
def noteEvent (action title : String) : Event :=
  .request ⟨0, by decide⟩ ⟨0, by decide⟩ (fun _ => false) (noteRequest action title)

/-- The state before any run, with the definition of notes stored. -/
def noteStart : State MemoryDefinitions := start [("note", noteDefinition.toDocument)]

/-- The first note after its creation. -/
def firstNote (title : String) : Entries :=
  [(.text "title", .text title), (.text "ownerId", .text "u1"), (.text "id", .text "rec-1"),
    (.text "createdAt", .text (Instant.stamp ⟨0, by decide⟩)),
    (.text "updatedAt", .text (Instant.stamp ⟨0, by decide⟩))]

/-- The manager who created a note changes its title. -/
theorem note_changed_by_owner :
    let created := after MemoryDefinitions.store noteStart [noteEvent "create" "Plan"]
    created.2.find? "note" "rec-1" = some (firstNote "Plan") ∧
      (step MemoryDefinitions.store created (noteEvent "update" "Draft")).2.find? "note" "rec-1" =
        some (firstNote "Draft") ∧
      ∃ definition, MayChange definition (noteRequest "update" "Draft").principal
        (firstNote "Plan") := by
  have there : (after MemoryDefinitions.store noteStart [noteEvent "create" "Plan"]).2.find? "note"
      "rec-1" = some (firstNote "Plan") := rfl
  have updated : (step MemoryDefinitions.store (after MemoryDefinitions.store noteStart
      [noteEvent "create" "Plan"]) (noteEvent "update" "Draft")).2.find? "note" "rec-1" =
        some (firstNote "Draft") := rfl
  have changed : some (firstNote "Draft") ≠ some (firstNote "Plan") := by
    intro same
    have titles := congrArg (fun found => (found.bind fun note => Entries.get? note "title").bind
      Value.asText?) same
    exact absurd titles (by decide)
  obtain ⟨definition, _, _, _, _, _, _, _, _, _, may⟩ :=
    changed_only_by_owner MemoryDefinitions.store _ _ ⟨0, by decide⟩ ⟨0, by decide⟩ (fun _ => false)
      (noteRequest "update" "Draft") there (updated ▸ changed)
  exact ⟨there, updated, definition, may⟩

end GovernedRecords.Engine
