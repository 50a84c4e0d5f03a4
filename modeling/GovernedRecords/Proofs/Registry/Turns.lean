import GovernedRecords.Proofs.Registry.LastSaves

/-!
# Turns of the registry

A run of calls is a list of turns, each a call with its answer.  A turn that succeeded may be a
revision of a name: a definition was saved under it, or the one under it was removed.  The
revisions of a name are read off from calls and answers alone (`revisions`).

What a call does to a registry that is coherent with a table is one of a few things
(`effect_answer`).  It leaves table and histories as they are; or it puts a definition into the
table, or takes a name out of it, and records that.  An actor of whom there is no copy comes in
between: then the table has changed, nothing is recorded, and the call fails.
-/

set_option autoImplicit false

namespace GovernedRecords

/-- What a call that succeeded did under a name: it saved a definition, or removed the one that
was there. -/
inductive Revision where
  | saved (definition : Definition)
  | removed
  deriving DecidableEq

namespace Registry

variable [Host] {σ : Type} {store : DefinitionStore σ} {holds : σ → Keyed Definition → Prop}
  {tooLong : σ → Text → Bool} {registry : Registry σ} {saves : Keyed Definition} {now : Instant}
  {call : RegistryCall}

/-! ## Turns -/

/-- A call that was made, with its answer. -/
structure Turn where
  call : RegistryCall
  answer : Except Fault RegistryAnswer

/-- What a turn did under a name. -/
def Turn.revision? (name : Text) (turn : Turn) : Option Revision :=
  if turn.call.target? = some name then
    match turn.answer with
    | .ok (.definition definition) => some (.saved definition)
    | .ok .done => some .removed
    | _ => none
  else none

/-- The definitions that a turn returned. -/
def Turn.returned (turn : Turn) : List Definition :=
  match turn.answer with
  | .ok answer => answer.returned
  | .error _ => []

/-- The turns of a run of calls. -/
def turns (store : DefinitionStore σ) :
    Registry σ → List (Instant × RegistryCall) → List Turn
  | _, [] => []
  | registry, timed :: rest =>
    let outcome := (answer store timed.1 timed.2).on registry
    ⟨timed.2, outcome.1⟩ :: turns store outcome.2 rest

/-- The registry after a run of calls. -/
def reached (store : DefinitionStore σ) :
    Registry σ → List (Instant × RegistryCall) → Registry σ
  | registry, [] => registry
  | registry, timed :: rest => reached store ((answer store timed.1 timed.2).on registry).2 rest

/-- What was saved and removed under a name, in this order. -/
def revisions (name : Text) (turns : List Turn) : List Revision :=
  turns.filterMap (Turn.revision? name)

omit [Host] in
theorem Turn.revision?_error (name : Text) (call : RegistryCall) (fault : Fault) :
    Turn.revision? name ⟨call, .error fault⟩ = none := by
  simp [Turn.revision?]

omit [Host] in
theorem Turn.revision?_saved {target : Text} (targeted : call.target? = some target) (name : Text)
    (definition : Definition) :
    Turn.revision? name ⟨call, .ok (.definition definition)⟩ =
      if target = name then some (.saved definition) else none := by
  simp only [Turn.revision?, targeted, Option.some.injEq]

omit [Host] in
theorem Turn.revision?_removed {target : Text} (targeted : call.target? = some target)
    (name : Text) :
    Turn.revision? name ⟨call, .ok .done⟩ = if target = name then some .removed else none := by
  simp only [Turn.revision?, targeted, Option.some.injEq]

omit [Host] in
theorem Turn.revision?_reading (reading : call.target? = none) (name : Text)
    (answer : Except Fault RegistryAnswer) : Turn.revision? name ⟨call, answer⟩ = none := by
  simp [Turn.revision?, reading]

/-! ## Calls -/

/-- What a caller keeps to when a call is made at an instant: a definition that is saved was read
from a document, and no text that is saved holds a lone surrogate. -/
def Proper (store : DefinitionStore σ) (registry : Registry σ) (now : Instant) :
    RegistryCall → Prop
  | .save definition _ => (∃ document, Definition.ofDocument document = .ok definition) ∧
      (definition.problems now = .ok [] → definition.IsPlain)
  | .update name changes _ => ∀ current,
      ((loadValue store now name).on registry).1 = .ok current → KeepsPlain now changes current
  | _ => True

/-- Every call of a run is made in the years from 1000 on, by a caller who keeps to that. -/
def ProperRun (store : DefinitionStore σ) : Registry σ → List (Instant × RegistryCall) → Prop
  | _, [] => True
  | registry, timed :: rest => 1000 ≤ timed.1.year ∧ Proper store registry timed.1 timed.2 ∧
      ProperRun store ((answer store timed.1 timed.2).on registry).2 rest

/-! ## Effects -/

/-- A definition is the next one of a name, at an instant: it is stamped after the one that the
table has under the name. -/
structure IsNext (saves : Keyed Definition) (now : Instant) (name : Text) (stored : Definition) :
    Prop where
  named : stored.name = name
  stamped : ∃ (definition : Definition) (stamp : Instant),
    stored = definition.stampedAfter (Keyed.get? saves name) stamp ∧
      nextStamp now ((Keyed.get? saves name).bind Definition.updatedAt) = .ok stamp

/-- What a call does to a registry that is coherent with a table, with its answer. -/
inductive Effect (holds : σ → Keyed Definition → Prop) (registry : Registry σ)
    (saves : Keyed Definition) (now : Instant) (call : RegistryCall) :
    Except Fault RegistryAnswer × Registry σ → Prop where
  /-- Nothing is saved or removed, and what is returned is of the table. -/
  | idle {answer : Except Fault RegistryAnswer} {after : Registry σ}
      (settled : Settled holds saves registry.histories after)
      (unrevised : ∀ name, Turn.revision? name ⟨call, answer⟩ = none)
      (served : ∀ definition ∈ Turn.returned ⟨call, answer⟩,
        ∃ name, Keyed.get? saves name = some definition) :
      Effect holds registry saves now call (answer, after)
  /-- A definition is put into the table, and the save is recorded. -/
  | saved {name hash : Text} {actor shown : Value} {stored : Definition} {between : Registry σ}
      (targeted : call.target? = some name) (authored : call.actor? = some actor)
      (copied : shownActor actor = .ok shown) (next : IsNext saves now name stored)
      (hashed : stored.hash = .ok hash)
      (settled : Settled holds (Keyed.put name stored saves) registry.histories between) :
      Effect holds registry saves now call
        (.ok (.definition stored), record now name .save (some hash) shown between)
  /-- A name is taken out of the table, and the removal is recorded. -/
  | removed {name : Text} {actor shown : Value} {between : Registry σ}
      (targeted : call.target? = some name) (authored : call.actor? = some actor)
      (copied : shownActor actor = .ok shown)
      (settled : Settled holds (Keyed.erase name saves) registry.histories between) :
      Effect holds registry saves now call (.ok .done, record now name .delete none shown between)
  /-- A definition is put into the table, but there is no copy of the actor. -/
  | unrecordedSave {name : Text} {actor : Value} {fault : Fault} {stored : Definition}
      {after : Registry σ} (authored : call.actor? = some actor)
      (uncopied : shownActor actor = .error fault) (next : IsNext saves now name stored)
      (settled : Settled holds (Keyed.put name stored saves) registry.histories after) :
      Effect holds registry saves now call (.error fault, after)
  /-- A name is taken out of the table, but there is no copy of the actor. -/
  | unrecordedRemoval {name : Text} {actor : Value} {fault : Fault} {after : Registry σ}
      (removal : call = .delete (.text name) actor) (uncopied : shownActor actor = .error fault)
      (settled : Settled holds (Keyed.erase name saves) registry.histories after) :
      Effect holds registry saves now call (.error fault, after)

theorem Effect.failed {after : Registry σ} (settled : Settled holds saves registry.histories after)
    (fault : Fault) : Effect holds registry saves now call (.error fault, after) :=
  .idle settled (fun name => Turn.revision?_error name call fault) (List.forall_mem_nil _)

/-- What a save or an update does, by how it ends. -/
theorem Storing.effect {name : Text} {actor : Value}
    {outcome : Except Fault Definition × Registry σ}
    (ended : Storing holds registry saves now name actor outcome)
    (targeted : call.target? = some name) (authored : call.actor? = some actor) :
    Effect holds registry saves now call (outcome.1.map .definition, outcome.2) := by
  cases ended with
  | failed coherent histories => exact .failed ⟨coherent, histories⟩ _
  | @stored definition stamp between named stamped coherent histories =>
      have plain := (coherent.stored _ _ (Keyed.get?_put_self _ _ _)).2.plain
      have next : IsNext saves now name
          (definition.stampedAfter (Keyed.get? saves name) stamp) :=
        ⟨named, definition, stamp, rfl, stamped⟩
      obtain ⟨hash, hashed⟩ := exists_hash plain
      cases copied : shownActor actor with
      | error fault =>
          rw [recorded, hashed, copied]
          exact .unrecordedSave authored copied next ⟨coherent, histories⟩
      | ok shown =>
          rw [recorded, hashed, copied, next.named]
          exact .saved targeted authored copied next hashed ⟨coherent, histories⟩

/-- What a removal does, by how it ends. -/
theorem Removing.effect {name : Text} {actor : Value} {outcome : Except Fault Unit × Registry σ}
    (ended : Removing holds registry saves now name actor outcome) :
    Effect holds registry saves now (.delete (.text name) actor)
      (outcome.1.map fun _ => .done, outcome.2) := by
  cases ended with
  | failed coherent histories => exact .failed ⟨coherent, histories⟩ _
  | removed coherent histories =>
      cases copied : shownActor actor with
      | error fault =>
          rw [audit, Operation.on_bind, Operation.on_ofExcept, copied]
          exact .unrecordedRemoval rfl copied ⟨coherent, histories⟩
      | ok shown =>
          rw [on_audit copied]
          exact .removed rfl rfl copied ⟨coherent, histories⟩

/-- **A call has one of these effects.** -/
theorem effect_answer (lawful : store.Lawful holds tooLong)
    (coherent : Coherent holds registry saves) (year : 1000 ≤ now.year)
    (proper : Proper store registry now call) :
    Effect holds registry saves now call ((answer store now call).on registry) := by
  cases target : call.target? with
  | none =>
      obtain ⟨settled, served⟩ := ensures_reading lawful now target registry ⟨coherent, rfl⟩
      generalize (answer store now call).on registry = outcome at settled served
      refine .idle settled (fun name => Turn.revision?_reading target name _) ?_
      rw [Turn.returned]
      split
      · next given => exact served _ given
      · exact List.forall_mem_nil _
  | some name =>
      obtain ⟨definition, actor, rfl, rfl⟩ | ⟨changes, actor, rfl⟩ | ⟨actor, rfl⟩ :=
        RegistryCall.target?_eq_some target
      · obtain ⟨⟨document, read⟩, plain⟩ := proper
        rw [answer, Operation.on_map]
        exact (storing_save lawful coherent actor (Definition.ofDocument_readable read) plain
          year).effect rfl rfl
      · have keeps : ∀ current, Keyed.get? saves name = some current →
            KeepsPlain now changes current := by
          intro current saved
          obtain ⟨after, loaded, -⟩ := load_of_saved lawful coherent saved now
          refine proper current ?_
          rw [loadValue, on_named_text, loaded]
        rw [answer, Operation.on_map, updateValue, on_named_text]
        exact (storing_update lawful coherent name actor keeps year).effect rfl rfl
      · have removing : Removing holds registry saves now name actor
            ((delete store now name actor).on registry) :=
          removing_delete lawful coherent name actor
        rw [answer, Operation.on_map, deleteValue]
        exact removing.effect

omit [Host] in
/-- A record changes nothing but the histories. -/
theorem Coherent.record (coherent : Coherent holds registry saves) (now : Instant) (name : Text)
    (action : AuditAction) (hash : Option Text) (shown : Value) :
    Coherent holds (record now name action hash shown registry) saves :=
  ⟨coherent.stored, coherent.holds, coherent.cached⟩

/-- After a call the registry is coherent with some table. -/
theorem Effect.coherent {outcome : Except Fault RegistryAnswer × Registry σ}
    (effect : Effect holds registry saves now call outcome) :
    ∃ next, Coherent holds outcome.2 next := by
  cases effect with
  | idle settled => exact ⟨_, settled.coherent⟩
  | saved _ _ _ _ _ settled => exact ⟨_, settled.coherent.record _ _ _ _ _⟩
  | removed _ _ _ settled => exact ⟨_, settled.coherent.record _ _ _ _ _⟩
  | unrecordedSave _ _ _ settled => exact ⟨_, settled.coherent⟩
  | unrecordedRemoval _ _ settled => exact ⟨_, settled.coherent⟩

/-- **After a run of calls the registry is coherent with some table.** -/
theorem coherent_reached (lawful : store.Lawful holds tooLong)
    (coherent : Coherent holds registry saves) {calls : List (Instant × RegistryCall)}
    (proper : ProperRun store registry calls) :
    ∃ next, Coherent holds (reached store registry calls) next := by
  induction calls generalizing registry saves with
  | nil => exact ⟨saves, coherent⟩
  | cons timed rest ih =>
      obtain ⟨year, first, others⟩ := proper
      obtain ⟨next, kept⟩ := (effect_answer lawful coherent year first).coherent
      exact ih kept others

end Registry

end GovernedRecords
