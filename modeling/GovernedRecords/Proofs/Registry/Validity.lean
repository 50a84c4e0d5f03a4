import GovernedRecords.Proofs.Registry.LastSaves

/-!
# Only valid definitions are served

The store behind a registry may hold anything, and others may write, replace and remove documents
there at any moment.  Whatever they do, every definition in the cache and every definition that a
call returns passes its check at every instant, and has the name under which it is kept or was
asked for (`only_valid_served`).

A definition comes in by a document that is read, by a save, or by an update, which is a save of
what its changes make of the current document.  Each of these ends in the check of definitions.
The check looks at no stamp and its outcome is the same at every instant, so a definition that
passed it once passes it always (`fromCheck_servedAs`).

The store may be any definition store, whatever its operations do to its state.  One that is
changed by others in the midst of a call is among them.
-/

set_option autoImplicit false

namespace GovernedRecords

/-- What a definition has that may be served under a name: it passes its check at every instant,
and the name is its own and one that a model can have. -/
structure ServedAs (name : Text) (definition : Definition) : Prop where
  clean : ∀ now, definition.problems now = .ok []
  named : definition.name = name
  model : name.isModelName = true

/-- What may be served under any name may be served under its own. -/
theorem ServedAs.own {name : Text} {definition : Definition} (served : ServedAs name definition) :
    ServedAs definition.name definition :=
  ⟨served.clean, rfl, served.named ▸ served.model⟩

/-- Whether a call asks for the definition with a name.  The list asks for every one. -/
def RegistryCall.AsksFor (name : Text) : RegistryCall → Prop
  | .load asked => asked = .text name
  | .list => True
  | .save definition _ => definition.name = name
  | .update asked _ _ => asked = .text name
  | _ => False

namespace Registry

open Operation

variable [Host] {σ : Type}

/-- What happens to a registry: a call at an instant, or a change of the store behind it. -/
inductive Event (σ : Type) where
  | call (now : Instant) (call : RegistryCall)
  | behind (change : σ → σ)

/-- The registry after an event. -/
def happen (store : DefinitionStore σ) (registry : Registry σ) : Event σ → Registry σ
  | .call now call => ((answer store now call).on registry).2
  | .behind change => { registry with store := change registry.store }

/-- The registry after some events. -/
def afterEvents (store : DefinitionStore σ) (registry : Registry σ) (events : List (Event σ)) :
    Registry σ :=
  events.foldl (happen store) registry

omit [Host] in
/-- **A definition without problems may be served under its name.** -/
theorem fromCheck_servedAs : FromCheck ServedAs := fun _ _ clean =>
  ⟨fun other => Definition.problems_at clean other, rfl,
    (Definition.wellFormed_of_problems clean).named⟩

section Ensures

variable (store : DefinitionStore σ) (now : Instant)

/-- What an update returns has the name that was asked for, because no change touches the name. -/
theorem ensures_update (name : Text) (changes actor : Value) :
    Ensures (CacheHas ServedAs) (update store now name changes actor) (ServedAs name) := by
  refine (fromCheck_servedAs.ensures_load store now name).bind ?_
  intro current served
  refine (Ensures.keepsOfExcept _).bind ?_
  intro entries _
  refine (Ensures.ofExcept fun changed done => done).bind ?_
  intro changed done
  split
  · exact .refuse _ _
  · exact .fail _ _
  · next updated read =>
      have same : updated.name = name := (name_of_changed done read).trans served.named
      exact same ▸ fromCheck_servedAs.ensures_save store now updated actor

/-- **Every call serves valid definitions with the names it asks for**, and keeps only such in the
cache. -/
theorem ensures_answer (call : RegistryCall) :
    Ensures (CacheHas ServedAs) (answer store now call) fun answer =>
      ∀ definition ∈ answer.returned,
        ServedAs definition.name definition ∧ call.AsksFor definition.name := by
  have sure := fromCheck_servedAs
  have kept : KeptBySteps (CacheHas ServedAs) store now := sure.keptBySteps store now
  cases call with
  | load name =>
      refine (ensures_named (.refuse _ _) ?_).mapTo fun _ => List.forall_mem_singleton.mpr
      intro text same
      refine (sure.ensures_load store now text).weaken fun definition served => ?_
      exact ⟨served.own, by rw [RegistryCall.AsksFor, served.named, same]⟩
  | list =>
      have loads : ∀ name, Ensures (CacheHas ServedAs) (load store now name) fun definition =>
          ServedAs definition.name definition := by
        intro name
        exact (sure.ensures_load store now name).weaken fun definition served => served.own
      refine (kept.names.bind fun names _ => ensures_loadAll loads names).mapTo ?_
      intro definitions served definition member
      exact ⟨served definition member, trivial⟩
  | save definition actor =>
      refine (sure.ensures_save store now definition actor).mapTo fun saved served => ?_
      exact List.forall_mem_singleton.mpr ⟨served.own, served.named.symm⟩
  | update name changes actor =>
      refine (ensures_named (.refuse _ _) ?_).mapTo fun _ => List.forall_mem_singleton.mpr
      intro text same
      refine (ensures_update store now text changes actor).weaken fun definition served => ?_
      exact ⟨served.own, by rw [RegistryCall.AsksFor, served.named, same]⟩
  | exists? name =>
      refine Ensures.mapAll (ensures_named (.pure trivial) fun text _ => ?_) fun _ =>
        List.forall_mem_nil _
      exact kept.exists? text
  | delete name actor => exact (kept.deleteValue name actor).mapAll fun _ => List.forall_mem_nil _
  | invalidate name => exact (kept.invalidateValue name).mapAll fun _ => List.forall_mem_nil _

end Ensures

/-! ## Runs -/

variable {store : DefinitionStore σ} {registry : Registry σ}

theorem cacheHas_happen (before : CacheHas ServedAs registry) (event : Event σ) :
    CacheHas ServedAs (happen store registry event) := by
  cases event with
  | call now call => exact (ensures_answer store now call registry before).1
  | behind change => exact storeFree_cacheHas registry _ before

/-- **Whatever happens, only what may be served is in the cache.** -/
theorem cacheHas_afterEvents (before : CacheHas ServedAs registry) (events : List (Event σ)) :
    CacheHas ServedAs (afterEvents store registry events) := by
  induction events generalizing registry with
  | nil => exact before
  | cons event rest ih => exact ih (cacheHas_happen before event)

/-- **Only valid definitions are served.**  Whatever calls were made on a registry and however the
store behind it was changed between them and in their midst, every definition in its cache and
every definition that the next call returns passes its check at every instant and has the name of
a model that it is kept under or was asked for by. -/
theorem only_valid_served (store : DefinitionStore σ) (initial : σ) (events : List (Event σ)) :
    let registry := afterEvents store (ofStore initial) events
    (∀ name definition, Keyed.get? registry.cache name = some definition →
      ServedAs name definition) ∧
    ∀ now call answer, ((Registry.answer store now call).on registry).1 = .ok answer →
      ∀ definition ∈ answer.returned,
        ServedAs definition.name definition ∧ call.AsksFor definition.name := by
  have served : CacheHas ServedAs (afterEvents store (ofStore initial) events) :=
    cacheHas_afterEvents (cacheHas_ofStore initial) events
  exact ⟨served, fun now call => (ensures_answer store now call _ served).2⟩

end Registry

/-! ## Repaired notes -/

namespace Registry

/-- A store in which others put rubbish under a name, and then a definition without stamps. -/
def repairedEvents : List (Event MemoryDefinitions) :=
  [.behind fun _ => [("note", "rubbish")], .call noon (.load "note"),
    .behind fun _ => [("note", noteDefinition.toDocument)]]

/-- Rubbish is refused, and what is put in its place is served. -/
theorem repaired_served :
    let registry := fun events => afterEvents MemoryDefinitions.store (ofStore []) events
    let load := fun events =>
      ((answer MemoryDefinitions.store noon (.load "note")).on (registry events)).1
    load (repairedEvents.take 1) = .error (.refused (corrupt "note" "is invalid")) ∧
      load repairedEvents = .ok (.definition noteDefinition) ∧ ServedAs "note" noteDefinition := by
  refine ⟨rfl, rfl, ?_⟩
  exact ((only_valid_served MemoryDefinitions.store [] repairedEvents).2 noon (.load "note") _ rfl
    noteDefinition (List.mem_singleton.mpr rfl)).1

end Registry

end GovernedRecords
