import GovernedRecords.Proofs.Engine.Runs
import GovernedRecords.Proofs.Registry.Coherence
import GovernedRecords.Proofs.Registry.Outcomes

/-!
# Failed writes of definitions

A definition is saved, changed or removed in steps: it is checked, the one before it is loaded,
the store is written, the cache follows, and the write is recorded with a content hash and a
copy of the actor.  Whatever fails before the store is written leaves all documents, histories
and answers as they were.

The last steps come after the store was written.  They fail for a text with a lone surrogate,
which has no content hash, and for an actor nested so deeply that there is no copy, and then the
write is not undone (`surrogate_save_not_undone`).  Where neither occurs a write that fails
changes nothing (`failed_write_changes_nothing`).

A removal that finds no document still drops the name from the cache.  That changes nothing
because in every run a name in the cache has a document (`Backed`).
-/

set_option autoImplicit false

namespace GovernedRecords

/-- A write of definitions that an engine offers: saving the definition of a document, changing
parts of one, and removing one, each for an actor. -/
inductive DefinitionWrite where
  | save (document actor : Value)
  | update (name changes actor : Value)
  | delete (name actor : Value)

namespace DefinitionWrite

/-- Performs a write at an instant. -/
def perform [Host] {σ : Type} (store : DefinitionStore σ) (now : Instant) :
    DefinitionWrite → Operation (Registry σ) Unit
  | .save document actor => (fun _ => ()) <$> Engine.saveDocument store now document actor
  | .update name changes actor =>
    (fun _ => ()) <$> Registry.updateValue store now name changes actor
  | .delete name actor => Registry.deleteValue store now name actor

/-- The actor of a write. -/
def actor : DefinitionWrite → Value
  | .save _ actor => actor
  | .update _ _ actor => actor
  | .delete _ actor => actor

/-- What a write would save at an instant holds no lone surrogate. -/
def SavesPlain [Host] {σ : Type} (store : DefinitionStore σ) (registry : Registry σ)
    (now : Instant) : DefinitionWrite → Prop
  | .save document _ => ∀ definition, Definition.coerce document = .ok definition →
    definition.problems now = .ok [] → definition.IsPlain
  | .update name changes _ => ∀ current,
    ((Registry.loadValue store now name).on registry).1 = .ok current →
    Registry.KeepsPlain now changes current
  | .delete _ _ => True

end DefinitionWrite

namespace Registry

variable [Host] {registry after : Registry MemoryDefinitions} {now : Instant} {fault : Fault}

/-! ## Reading and writing memory -/

/-- What reading memory gives out: a copy of the document, if there is one. -/
def copied (documents : MemoryDefinitions) (name : Text) : Except Fault (Option Value) :=
  (documents.document? name).mapM Value.copy

theorem reads_memory : MemoryDefinitions.store.ReadsAs copied :=
  fun _ _ => rfl

/-- Whoever reads a document in memory reads one that is there. -/
theorem isSome_of_copied {documents : MemoryDefinitions} {name : Text} {document : Value}
    (read : copied documents name = .ok (some document)) :
    (Keyed.get? documents name).isSome := by
  cases found : Keyed.get? documents name with
  | some document => rfl
  | none =>
      rw [copied, MemoryDefinitions.document?, found] at read
      cases read

/-- The document of a definition is written under the name of one without problems. -/
theorem on_write_memory {definition : Definition} (clean : definition.problems now = .ok [])
    (stored : Definition) (documents : MemoryDefinitions) :
    (MemoryDefinitions.store.write now definition.name stored.toDocument).on documents =
      (.ok (), Keyed.put definition.name stored.toDocument documents) := by
  have named := (Definition.wellFormed_of_problems clean).named
  simp only [MemoryDefinitions.store, Operation.on_of, named, Definition.copy_toDocument, if_true]

/-- A removal refuses a name that no model can have or that has no document; otherwise the document
is gone, and so is the name in the cache, before the actor is copied for the record. -/
theorem on_delete_memory (name : Text) (actor : Value) :
    (delete MemoryDefinitions.store now name actor).on registry =
      if name.isModelName then
        if (Keyed.get? registry.store name).isSome then
          match shownActor actor with
          | .error fault => (.error fault,
              Registry.drop name { registry with store := Keyed.erase name registry.store })
          | .ok shown => (.ok (), record now name .delete none shown
              (Registry.drop name { registry with store := Keyed.erase name registry.store }))
        else (.error (.refused (notFound name)),
          Registry.drop name { registry with store := Keyed.erase name registry.store })
      else (.error (.refused noSuchName), registry) := by
  rw [delete]
  split
  · rw [Operation.on_bind, onStore, Operation.on_within]
    simp only [MemoryDefinitions.store, Operation.on_of, MemoryDefinitions.delete,
      Keyed.has_eq_isSome]
    cases (Keyed.get? registry.store name).isSome with
    | true =>
        simp only [if_true, Operation.on_bind, change, Operation.on_modify, audit,
          Operation.on_ofExcept]
        cases shownActor actor <;> rfl
    | false => rfl
  · rfl

/-! ## Cached names -/

/-- Every name in the cache has a document in the store. -/
def Backed (registry : Registry MemoryDefinitions) : Prop :=
  ∀ name, (Keyed.get? registry.cache name).isSome → (Keyed.get? registry.store name).isSome

omit [Host] in
theorem backed_ofStore (documents : MemoryDefinitions) : Backed (ofStore documents) := by
  intro name cached
  cases cached

omit [Host] in
theorem Backed.drop (backed : Backed registry) (name : Text) : Backed (registry.drop name) := by
  intro other cached
  refine backed other ?_
  simp only [Registry.drop, Keyed.get?_erase] at cached
  split at cached
  · cases cached
  · exact cached

omit [Host] in
/-- A name that has a document may be kept in the cache. -/
theorem Backed.keep (backed : Backed registry) {name : Text}
    (there : (Keyed.get? registry.store name).isSome) (definition : Definition) :
    Backed (Registry.keep name definition registry) := by
  intro other cached
  simp only [Registry.keep, Keyed.get?_put] at cached ⊢
  split at cached
  · next same => exact same ▸ there
  · exact backed other cached

omit [Host] in
/-- A name that is written may be kept in the cache. -/
theorem Backed.write (backed : Backed registry) (name : Text) (document : Value)
    (definition : Definition) :
    Backed (Registry.keep name definition
      { registry with store := Keyed.put name document registry.store }) := by
  refine Backed.keep (fun other cached => ?_) (by simp) definition
  rw [Keyed.get?_put]
  split
  · rfl
  · exact backed other cached

omit [Host] in
/-- A name that is erased is dropped from the cache. -/
theorem Backed.erase (backed : Backed registry) (name : Text) :
    Backed (Registry.drop name { registry with store := Keyed.erase name registry.store }) := by
  intro other cached
  simp only [Registry.drop, Keyed.get?_erase] at cached ⊢
  split
  · next same =>
      rw [if_pos same] at cached
      cases cached
  · next differ =>
      rw [if_neg differ] at cached
      exact backed other cached

omit [Host] in
/-- A name without a document is not in the cache, so dropping it changes nothing. -/
theorem Backed.drop_eq_self (backed : Backed registry) {name : Text}
    (absent : Keyed.get? registry.store name = none) : registry.drop name = registry := by
  have uncached : Keyed.get? registry.cache name = none := by
    rw [← Option.not_isSome_iff_eq_none]
    intro cached
    have there := backed name cached
    rw [absent] at there
    cases there
  rw [Registry.drop, Keyed.erase_of_get?_eq_none uncached]

section Keeps

open Operation

variable (now)

theorem isSome_of_loadOf {name : Text} {documents : MemoryDefinitions} {definition : Definition}
    (loaded : loadOf now name (copied documents name) = .ok definition) :
    (Keyed.get? documents name).isSome := by
  cases read : copied documents name with
  | error fault =>
      rw [read, loadOf, readOf] at loaded
      repeat' split at loaded
      all_goals cases loaded
  | ok document =>
      cases document with
      | some document => exact isSome_of_copied read
      | none =>
          rw [read, loadOf] at loaded
          split at loaded <;> cases loaded

theorem backed_load (name : Text) : Keeps Backed (load MemoryDefinitions.store now name) := by
  intro registry backed
  refine ⟨?_, fun _ _ => trivial⟩
  rw [on_load reads_memory]
  cases cached : Keyed.get? registry.cache name with
  | some definition => exact backed
  | none =>
      dsimp only
      cases loaded : loadOf now name (copied registry.store name) with
      | error fault => exact backed
      | ok definition => exact backed.keep (isSome_of_loadOf now loaded) definition

theorem backed_save (definition : Definition) (actor : Value) :
    Keeps Backed (save MemoryDefinitions.store now definition actor) := by
  intro registry backed
  refine ⟨?_, fun _ _ => trivial⟩
  have loaded := (backed_load now definition.name registry backed).1
  have ended := saving MemoryDefinitions.store now definition actor registry
  generalize (save MemoryDefinitions.store now definition actor).on registry = outcome at ended
  cases ended with
  | refused => exact backed
  | unloaded => exact loaded
  | unstamped => exact loaded
  | unwritten clean _ _ failed =>
      rw [on_write_memory clean] at failed
      cases failed
  | written clean _ _ done =>
      rw [on_write_memory clean] at done
      cases done
      simp only [Backed, recorded_store, recorded_cache]
      exact loaded.write _ _ _

theorem backed_delete (name : Text) (actor : Value) :
    Keeps Backed (delete MemoryDefinitions.store now name actor) := by
  intro registry backed
  refine ⟨?_, fun _ _ => trivial⟩
  rw [on_delete_memory]
  cases name.isModelName with
  | false => exact backed
  | true =>
      cases (Keyed.get? registry.store name).isSome with
      | false => exact backed.erase name
      | true => cases shownActor actor <;> exact backed.erase name

theorem keptBySteps_backed : KeptBySteps Backed MemoryDefinitions.store now where
  load := backed_load now
  exists? := by
    intro name registry backed
    rw [on_exists?_snd reads_memory]
    exact ⟨backed, fun _ _ => trivial⟩
  names := fun _ backed => ⟨backed, fun _ _ => trivial⟩
  save := backed_save now
  delete := backed_delete now
  drop := fun _ name backed => backed.drop name

end Keeps

/-- After every run of an engine the names in the cache are backed. -/
theorem backed_after (initial : MemoryDefinitions) (events : List Engine.Event) :
    Backed (Engine.after MemoryDefinitions.store (Engine.start initial) events).1 := by
  have kept : ∀ (state : Engine.State MemoryDefinitions) (event : Engine.Event),
      Backed state.1 → Backed (Engine.step MemoryDefinitions.store state event).1 :=
    fun _ event backed => Engine.kept_step keptBySteps_backed backed event
  exact Engine.after_induction kept (backed_ofStore initial) events

/-! ## Writes that fail -/

theorem sameAnswers_save {definition : Definition} {actor shown : Value}
    (plain : definition.problems now = .ok [] → definition.IsPlain)
    (copied : shownActor actor = .ok shown)
    (failed : (save MemoryDefinitions.store now definition actor).on registry =
      (.error fault, after)) :
    SameAnswers MemoryDefinitions.store registry after := by
  have ended := saving MemoryDefinitions.store now definition actor registry
  generalize (save MemoryDefinitions.store now definition actor).on registry = outcome
    at ended failed
  cases ended with
  | refused =>
      cases failed
      exact .refl registry
  | unloaded =>
      cases failed
      exact sameAnswers_load reads_memory now definition.name registry
  | unstamped =>
      cases failed
      exact sameAnswers_load reads_memory now definition.name registry
  | unwritten clean _ _ unwritten =>
      rw [on_write_memory clean] at unwritten
      cases unwritten
  | written clean =>
      obtain ⟨hash, noted⟩ := exists_recorded ((plain clean).stampedAfter _ _) copied
      rw [noted] at failed
      cases failed

theorem sameAnswers_update {name : Text} {changes actor shown : Value}
    (plain : ∀ current, ((load MemoryDefinitions.store now name).on registry).1 = .ok current →
      KeepsPlain now changes current)
    (copied : shownActor actor = .ok shown)
    (failed : (update MemoryDefinitions.store now name changes actor).on registry =
      (.error fault, after)) :
    SameAnswers MemoryDefinitions.store registry after := by
  -- Up to the save of what is changed, the current definition was loaded and no more.
  have same := sameAnswers_load reads_memory now name registry
  cases loaded : (load MemoryDefinitions.store now name).on registry with
  | mk result between =>
      rw [loaded] at same plain
      cases result with
      | error fault =>
          rw [update, Operation.on_bind_of_error loaded] at failed
          cases failed
          exact same
      | ok current =>
          have ended := updating loaded changes actor
          generalize (update MemoryDefinitions.store now name changes actor).on registry = outcome
            at ended failed
          cases ended with
          | unlisted | unapplied | textless | refused | outOfRange =>
              cases failed
              exact same
          | saving given done read =>
              exact same.trans (sameAnswers_save (plain current rfl _ _ _ given done read) copied
                failed)

theorem sameAnswers_delete {name : Text} {actor shown : Value} (backed : Backed registry)
    (copied : shownActor actor = .ok shown)
    (failed : (delete MemoryDefinitions.store now name actor).on registry =
      (.error fault, after)) :
    SameAnswers MemoryDefinitions.store registry after := by
  rw [on_delete_memory, copied] at failed
  cases named : name.isModelName with
  | false =>
      rw [named] at failed
      cases failed
      exact .refl registry
  | true =>
      rw [named] at failed
      cases found : Keyed.get? registry.store name with
      | some document =>
          rw [found] at failed
          cases failed
      | none =>
          -- A name without a document is not in the cache either.
          rw [found, Keyed.erase_of_get?_eq_none found, backed.drop_eq_self found] at failed
          cases failed
          exact .refl registry

theorem sameAnswers_updateValue {name changes actor shown : Value}
    (plain : ∀ current, ((loadValue MemoryDefinitions.store now name).on registry).1 = .ok current →
      KeepsPlain now changes current)
    (copied : shownActor actor = .ok shown)
    (failed : (updateValue MemoryDefinitions.store now name changes actor).on registry =
      (.error fault, after)) :
    SameAnswers MemoryDefinitions.store registry after := by
  simp only [updateValue, loadValue, named, Operation.on_bind, Operation.on_ofExcept]
    at failed plain
  cases asked : name.asKey with
  | error fault =>
      rw [asked] at failed
      cases failed
      exact .refl registry
  | ok key =>
      rw [asked] at failed plain
      cases key with
      | none =>
          cases failed
          exact .refl registry
      | some text => exact sameAnswers_update plain copied failed

/-- However a write fails, the registry answers as before. -/
theorem sameAnswers_perform {write : DefinitionWrite} {shown : Value} (backed : Backed registry)
    (plain : write.SavesPlain MemoryDefinitions.store registry now)
    (copied : shownActor write.actor = .ok shown)
    (failed : (write.perform MemoryDefinitions.store now).on registry = (.error fault, after)) :
    SameAnswers MemoryDefinitions.store registry after := by
  cases write with
  | save document actor =>
      have failed := Operation.on_map_eq_error.mp failed
      rw [Engine.saveDocument, Operation.on_bind, Operation.on_ofExcept] at failed
      cases coerced : Definition.coerce document with
      | error fault =>
          rw [coerced] at failed
          cases failed
          exact .refl registry
      | ok definition =>
          rw [coerced] at failed
          exact sameAnswers_save (plain definition coerced) copied failed
  | update name changes actor =>
      exact sameAnswers_updateValue plain copied (Operation.on_map_eq_error.mp failed)
  | delete name actor =>
      cases name with
      | text name => exact sameAnswers_delete backed copied failed
      | _ =>
          cases failed
          exact .refl registry

/-- **A write that fails changes nothing.**  In every state that an engine reaches over a store
in memory, saving a document, changing a definition and removing one leave the documents and the
histories as they are when they end with a fault, and every name is then loaded with the outcome
it had before; provided that nothing with a lone surrogate is saved, and that there is a copy of
the actor. -/
theorem failed_write_changes_nothing (initial : MemoryDefinitions) (events : List Engine.Event)
    (now : Instant) (write : DefinitionWrite) :
    let registry := (Engine.after MemoryDefinitions.store (Engine.start initial) events).1
    write.SavesPlain MemoryDefinitions.store registry now →
    (∃ shown, shownActor write.actor = .ok shown) →
    ∀ fault after, (write.perform MemoryDefinitions.store now).on registry =
      (.error fault, after) →
    after.store = registry.store ∧ after.histories = registry.histories ∧
      ∀ later name, ((loadValue MemoryDefinitions.store later name).on after).1 =
        ((loadValue MemoryDefinitions.store later name).on registry).1 := by
  intro registry plain ⟨shown, copied⟩ fault after failed
  have backed : Backed registry := backed_after initial events
  have same := sameAnswers_perform backed plain copied failed
  exact ⟨same.documents, same.histories, same.loadsValue⟩

end Registry

/-! ## Writes of notes -/

namespace Registry

/-- Notes with a field that belongs to the record store. -/
def reservedDefinition : Definition :=
  { noteDefinition with fields := [⟨"id", .string, true, false, none, none⟩] }

/-- After a save of notes, one with a reserved field is refused and leaves the notes as they
were. -/
theorem reserved_save_changes_nothing :
    let now : Instant := ⟨0, by decide⟩
    let registry := (Engine.after MemoryDefinitions.store (Engine.start [])
      [.call now (.save noteDefinition .null)]).1
    ∃ fault after, ((DefinitionWrite.save reservedDefinition.toDocument .null).perform
        MemoryDefinitions.store now).on registry = (.error fault, after) ∧
      after.store = registry.store ∧ after.histories = registry.histories ∧
      ∀ later name, ((loadValue MemoryDefinitions.store later name).on after).1 =
        ((loadValue MemoryDefinitions.store later name).on registry).1 := by
  intro now registry
  have plain : (DefinitionWrite.save reservedDefinition.toDocument .null).SavesPlain
      MemoryDefinitions.store registry now := by
    intro definition coerced clean
    cases coerced
    cases clean
  exact ⟨_, _, rfl, failed_write_changes_nothing [] [.call now (.save noteDefinition .null)] now
    (.save reservedDefinition.toDocument .null) plain ⟨.null, rfl⟩ _ _ rfl⟩

/-- Notes with a field whose name is a lone surrogate. -/
def surrogateDefinition : Definition :=
  { noteDefinition with fields := [⟨[⟨0xD800, by decide⟩], .string, true, false, none, none⟩] }

/-- Without the provision a write that fails is not undone: a save of a lone surrogate ends with a
fault because there is no content hash, after the document was stored and the definition kept. -/
theorem surrogate_save_not_undone :
    let now : Instant := ⟨0, by decide⟩
    let before : Registry MemoryDefinitions := (Engine.start []).1
    ∃ after, ((DefinitionWrite.save surrogateDefinition.toDocument .null).perform
        MemoryDefinitions.store now).on before = (.error .unencodable, after) ∧
      Keyed.names after.store ≠ Keyed.names before.store ∧
      ((loadValue MemoryDefinitions.store now "note").on before).1 =
        .error (.refused (notFound "note")) ∧
      ((loadValue MemoryDefinitions.store now "note").on after).1 =
        .ok (surrogateDefinition.withStamps (some now) (some now)) :=
  ⟨_, rfl, by decide, rfl, rfl⟩

end Registry

end GovernedRecords
