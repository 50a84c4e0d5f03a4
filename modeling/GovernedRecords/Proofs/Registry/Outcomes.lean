import GovernedRecords.Proofs.Definition.Check
import GovernedRecords.Proofs.Definition.Plain
import GovernedRecords.Proofs.Json.Canonical
import GovernedRecords.Proofs.Keyed
import GovernedRecords.Proofs.Operation
import GovernedRecords.Registry.Named

/-!
# How loading and saving end

Of a store whose reading changes nothing, the registry loads under a name what is in its cache,
and otherwise what the document of the name comes to (`loadOf`); a definition that was loaded is
kept in the cache (`on_load`).  What a document comes to does not depend on the instant
(`loadOf_at`), so loading changes no answer of the registry: the store and the histories stay as
they are, and every name is loaded as before (`sameAnswers_load`).

A save ends before the store is written, with the write, or with what comes after it, the record
of the save (`saving`).
-/

set_option autoImplicit false

namespace GovernedRecords

/-- A definition as it is saved at a stamp after another one: created with that one, if there is
one, and changed at the stamp. -/
def Definition.stampedAfter (definition : Definition) (previous : Option Definition)
    (stamp : Instant) : Definition :=
  definition.withStamps (some ((previous.bind Definition.createdAt).getD stamp)) (some stamp)

theorem Definition.IsPlain.stampedAfter {definition : Definition} (plain : definition.IsPlain)
    (previous : Option Definition) (stamp : Instant) :
    (definition.stampedAfter previous stamp).IsPlain :=
  plain.withStamps _ _

/-- A document without a content hash is no refusal. -/
theorem Fault.ofHash_ne_refused (error : HashError) (refusal : Refusal) :
    Fault.ofHash error ≠ .refused refusal := by
  rcases error with cause | _
  · cases cause with
    | text error => exact ofText_ne_refused error refusal
    | _ => nofun
  · nofun

/-- Reading a store changes nothing: it shows what is under a name in a state. -/
def DefinitionStore.ReadsAs {σ : Type} (store : DefinitionStore σ)
    (content : σ → Text → Except Fault (Option Value)) : Prop :=
  ∀ name state, (store.read name).on state = (content state name, state)

/-- A store does not refuse to write a document: a write that fails has another fault. -/
def DefinitionStore.NeverRefuses {σ : Type} (store : DefinitionStore σ) : Prop :=
  ∀ now name document state refusal,
    ((store.write now name document).on state).1 ≠ .error (.refused refusal)

namespace Registry

variable [Host] {σ : Type} {store : DefinitionStore σ}
  {content : σ → Text → Except Fault (Option Value)} {registry : Registry σ}

/-- The definition that reading a name comes to, given what is under the name. -/
def readOf (now : Instant) (name : Text) : Except Fault (Option Value) → Except Fault Definition
  | .error fault =>
    if fault.isUnreadable then .error (.refused (corrupt name "is unreadable")) else .error fault
  | .ok none => .error (.refused (notFound name))
  | .ok (some document) => checked now name document

/-- The definition that a name outside the cache is loaded as, given what is under the name. -/
def loadOf (now : Instant) (name : Text) (found : Except Fault (Option Value)) :
    Except Fault Definition :=
  if name.isModelName then readOf now name found else .error (.refused noSuchName)

theorem on_readOf (reads : store.ReadsAs content) (now : Instant) (name : Text) :
    (Registry.read store now name).on registry =
      (readOf now name (content registry.store name), registry) := by
  have read := reads name registry.store
  rw [Registry.read, Operation.on_bind, Operation.on_attempt, onStore, Operation.on_within, read]
  cases content registry.store name with
  | error fault =>
      simp only [readOf]
      cases fault.isUnreadable <;> rfl
  | ok document =>
      cases document with
      | none => rfl
      | some document => simp only [Operation.on_ofExcept, readOf]

/-- **A name is loaded from the cache, or as its document comes to**, which is kept if it is a
definition. -/
theorem on_load (reads : store.ReadsAs content) (now : Instant) (name : Text) :
    (load store now name).on registry =
      match Keyed.get? registry.cache name with
      | some definition => (.ok definition, registry)
      | none =>
        match loadOf now name (content registry.store name) with
        | .ok definition => (.ok definition, registry.keep name definition)
        | .error fault => (.error fault, registry) := by
  rw [load, Operation.on_bind, Operation.on_get]
  cases cached : Keyed.get? registry.cache name with
  | some definition => simp only [cached, Operation.on_pure]
  | none =>
      simp only [cached, loadOf]
      split
      · rw [Operation.on_bind, on_readOf reads]
        cases readOf now name (content registry.store name) with
        | error fault => rfl
        | ok definition => rfl
      · rfl

theorem on_load_fst (reads : store.ReadsAs content) (now : Instant) (name : Text) :
    ((load store now name).on registry).1 =
      match Keyed.get? registry.cache name with
      | some definition => .ok definition
      | none => loadOf now name (content registry.store name) := by
  rw [on_load reads]
  cases Keyed.get? registry.cache name with
  | some definition => rfl
  | none => cases loadOf now name (content registry.store name) <;> rfl

omit [Host] in
/-- Asking for a name changes nothing. -/
theorem on_exists?_snd (reads : store.ReadsAs content) (name : Text) :
    ((exists? store name).on registry).2 = registry := by
  have read := reads name registry.store
  rw [exists?, Operation.on_bind, Operation.on_get]
  dsimp only
  split
  · rfl
  · split
    · rw [Operation.on_bind, Operation.on_attempt, onStore, Operation.on_within, read]
      cases content registry.store name with
      | ok document => rfl
      | error fault =>
          dsimp only
          split <;> rfl
    · rfl

/-! ## Instants -/

/-- A document that holds a definition at one instant holds it at any. -/
theorem checked_at {now : Instant} {name : Text} {document : Value} {definition : Definition}
    (done : checked now name document = .ok definition) (later : Instant) :
    checked later name document = .ok definition := by
  unfold checked at done ⊢
  split at done
  · cases done
  · cases done
  · next read =>
      split at done
      · cases done
      · next problems judged =>
          split at done
          · next passed =>
              cases done
              simp only [Bool.and_eq_true, List.isEmpty_iff] at passed
              rw [passed.1] at judged
              simp [Definition.problems_at judged later, passed.2]
          · cases done

theorem loadOf_at {now : Instant} {name : Text} {found : Except Fault (Option Value)}
    {definition : Definition} (done : loadOf now name found = .ok definition) (later : Instant) :
    loadOf later name found = .ok definition := by
  rw [loadOf] at done ⊢
  split at done
  · next named =>
      rw [if_pos named]
      cases found with
      | error fault =>
          simp only [readOf] at done
          split at done <;> cases done
      | ok document =>
          cases document with
          | none => cases done
          | some document => exact checked_at done later
  · cases done

/-! ## Registries that answer alike -/

/-- Two registries have the same documents and histories, and load every name with the same
outcome, whenever they are asked. -/
structure SameAnswers (store : DefinitionStore σ) (before after : Registry σ) : Prop where
  documents : after.store = before.store
  histories : after.histories = before.histories
  loads : ∀ later name,
    ((load store later name).on after).1 = ((load store later name).on before).1

namespace SameAnswers

variable {before between after : Registry σ}

theorem refl (registry : Registry σ) : SameAnswers store registry registry :=
  ⟨rfl, rfl, fun _ _ => rfl⟩

theorem trans (first : SameAnswers store before between)
    (second : SameAnswers store between after) : SameAnswers store before after :=
  ⟨second.documents.trans first.documents, second.histories.trans first.histories,
    fun later name => (second.loads later name).trans (first.loads later name)⟩

/-- The names may be values of any kind. -/
theorem loadsValue (same : SameAnswers store before after) (later : Instant) (name : Value) :
    ((loadValue store later name).on after).1 = ((loadValue store later name).on before).1 := by
  simp only [loadValue, named, Operation.on_bind, Operation.on_ofExcept]
  cases name.asKey with
  | error fault => rfl
  | ok key =>
      cases key with
      | none => rfl
      | some text => exact same.loads later text

end SameAnswers

/-- **Loading changes no answer.** -/
theorem sameAnswers_load (reads : store.ReadsAs content) (now : Instant) (name : Text)
    (registry : Registry σ) :
    SameAnswers store registry ((load store now name).on registry).2 := by
  rw [on_load reads]
  cases cached : Keyed.get? registry.cache name with
  | some definition => exact .refl registry
  | none =>
      cases loaded : loadOf now name (content registry.store name) with
      | error fault => exact .refl registry
      | ok definition =>
          -- The name is now kept as what its document comes to, at this instant and any later one.
          refine ⟨rfl, rfl, fun later other => ?_⟩
          rw [on_load_fst reads, on_load_fst reads]
          simp only [keep, Keyed.get?_put]
          by_cases same : name = other
          · subst same
            simp only [if_true, cached]
            exact (loadOf_at loaded later).symm
          · rw [if_neg same]

theorem on_previous? (now : Instant) (name : Text) :
    (previous? store now name).on registry =
      (match ((load store now name).on registry).1 with
        | .ok definition => .ok (some definition)
        | .error fault => if isSkipped fault then .ok none else .error fault,
        ((load store now name).on registry).2) := by
  rw [previous?, Operation.on_bind, Operation.on_attempt]
  cases ((load store now name).on registry).1 with
  | ok definition => rfl
  | error fault =>
      simp only
      cases isSkipped fault <;> rfl

/-- The definition before the one that is saved is the one that was loaded. -/
theorem previous?_of_load {now : Instant} {name : Text} {definition : Definition}
    {after : Registry σ} (loaded : (load store now name).on registry = (.ok definition, after)) :
    (previous? store now name).on registry = (.ok (some definition), after) := by
  rw [on_previous?, loaded]

/-! ## Saving -/

/-- How a save ends once the store and the cache have the definition: it is recorded with its
content hash and a copy of the actor, if there are both. -/
def recorded (now : Instant) (stored : Definition) (actor : Value) (registry : Registry σ) :
    Except Fault Definition × Registry σ :=
  match stored.hash, shownActor actor with
  | .error fault, _ => (.error fault, registry)
  | .ok _, .error fault => (.error fault, registry)
  | .ok hash, .ok shown => (.ok stored, record now stored.name .save (some hash) shown registry)

/-- A definition without lone surrogates has a content hash. -/
theorem exists_hash {definition : Definition} (plain : definition.IsPlain) :
    ∃ hash, definition.hash = .ok hash := by
  obtain ⟨hash, done⟩ := exists_contentHash (Definition.isPlain_toDocument plain)
    definition.nesting_toDocument_le_copied
  exact ⟨hash, by rw [Definition.hash, done]; rfl⟩

/-- What holds no lone surrogate is recorded for an actor of whom there is a copy. -/
theorem exists_recorded {now : Instant} {stored : Definition} {actor shown : Value}
    (plain : stored.IsPlain) (copied : shownActor actor = .ok shown) :
    ∃ hash, recorded now stored actor registry =
      (.ok stored, record now stored.name .save (some hash) shown registry) := by
  obtain ⟨hash, hashed⟩ := exists_hash plain
  exact ⟨hash, by rw [recorded, hashed, copied]⟩

/-- A save that cannot be recorded is not refused. -/
theorem recorded_ne_refused (now : Instant) (stored : Definition) (actor : Value)
    (refusal : Refusal) : (recorded now stored actor registry).1 ≠ .error (.refused refusal) := by
  rw [recorded]
  split
  · next fault hashed =>
      rintro ⟨⟩
      rw [Definition.hash] at hashed
      cases found : contentHash stored.toDocument with
      | ok hash =>
          rw [found] at hashed
          cases hashed
      | error error =>
          rw [found] at hashed
          exact absurd (Except.error.inj hashed) (Fault.ofHash_ne_refused error refusal)
  · next fault _ copied =>
      rintro ⟨⟩
      rw [shownActor] at copied
      split at copied
      · cases Value.eq_tooDeep_of_copy copied
      · cases copied
  · nofun

/-- Recording a save leaves the store alone. -/
@[simp] theorem recorded_store (now : Instant) (stored : Definition) (actor : Value) :
    (recorded now stored actor registry).2.store = registry.store := by
  rw [recorded]
  split <;> rfl

/-- Recording a save leaves the cache alone. -/
@[simp] theorem recorded_cache (now : Instant) (stored : Definition) (actor : Value) :
    (recorded now stored actor registry).2.cache = registry.cache := by
  rw [recorded]
  split <;> rfl

/-- The ways a save ends. -/
inductive Saving (store : DefinitionStore σ) (now : Instant) (definition : Definition)
    (actor : Value) (registry : Registry σ) : Except Fault Definition × Registry σ → Prop where
  /-- The definition has problems, or a default that is out of range. -/
  | refused {fault : Fault} (unclean : definition.problems now ≠ .ok []) :
      Saving store now definition actor registry (.error fault, registry)
  /-- The definition before it cannot be told. -/
  | unloaded {fault : Fault}
      (failed : ((previous? store now definition.name).on registry).1 = .error fault) :
      Saving store now definition actor registry
        (.error fault, ((load store now definition.name).on registry).2)
  /-- There is no instant after the last change of the one before it. -/
  | unstamped {previous : Option Definition} {fault : Fault}
      (found : ((previous? store now definition.name).on registry).1 = .ok previous)
      (failed : nextStamp now (previous.bind Definition.updatedAt) = .error fault) :
      Saving store now definition actor registry
        (.error fault, ((load store now definition.name).on registry).2)
  /-- The store does not write it. -/
  | unwritten {previous : Option Definition} {stamp : Instant} {fault : Fault} {state : σ}
      (clean : definition.problems now = .ok [])
      (found : ((previous? store now definition.name).on registry).1 = .ok previous)
      (next : nextStamp now (previous.bind Definition.updatedAt) = .ok stamp)
      (failed : (store.write now definition.name
        (definition.stampedAfter previous stamp).toDocument).on
          ((load store now definition.name).on registry).2.store = (.error fault, state)) :
      Saving store now definition actor registry (.error fault,
        { ((load store now definition.name).on registry).2 with store := state })
  /-- It is written and kept, and the save goes on to its record. -/
  | written {previous : Option Definition} {stamp : Instant} {state : σ}
      (clean : definition.problems now = .ok [])
      (found : ((previous? store now definition.name).on registry).1 = .ok previous)
      (next : nextStamp now (previous.bind Definition.updatedAt) = .ok stamp)
      (done : (store.write now definition.name
        (definition.stampedAfter previous stamp).toDocument).on
          ((load store now definition.name).on registry).2.store = (.ok (), state)) :
      Saving store now definition actor registry
        (recorded now (definition.stampedAfter previous stamp) actor
          (keep definition.name (definition.stampedAfter previous stamp)
            { ((load store now definition.name).on registry).2 with store := state }))

theorem on_record (now : Instant) (stored : Definition) (actor : Value) :
    Operation.on (do
      let hash ← .ofExcept stored.hash
      audit now stored.name .save (some hash) actor
      return stored) registry = recorded now stored actor registry := by
  rw [Operation.on_bind, Operation.on_ofExcept, recorded]
  cases stored.hash with
  | error fault => rfl
  | ok hash =>
      simp only [Operation.on_bind, audit, Operation.on_ofExcept]
      cases shownActor actor <;> rfl

/-- **A save ends in one of these ways.** -/
theorem saving (store : DefinitionStore σ) (now : Instant) (definition : Definition)
    (actor : Value) (registry : Registry σ) :
    Saving store now definition actor registry
      ((save store now definition actor).on registry) := by
  rw [save]
  split
  · next failed => exact .refused (by rw [failed]; simp)
  · next failed => exact .refused (by rw [failed]; simp)
  · next clean =>
      have left : ((previous? store now definition.name).on registry).2 =
          ((load store now definition.name).on registry).2 := by
        rw [on_previous?]
      cases found : (previous? store now definition.name).on registry with
      | mk result between =>
          rw [found] at left
          subst left
          cases result with
          | error fault =>
              rw [Operation.on_bind_of_error found]
              exact .unloaded (by rw [found])
          | ok previous =>
              rw [Operation.on_bind_of_ok found]
              cases next : nextStamp now (previous.bind Definition.updatedAt) with
              | error fault =>
                  rw [Operation.on_bind_of_error (by rw [Operation.on_ofExcept])]
                  exact .unstamped (by rw [found]) next
              | ok stamp =>
                  rw [Operation.on_bind_of_ok (by rw [Operation.on_ofExcept])]
                  have told : ((previous? store now definition.name).on registry).1 =
                      .ok previous := by rw [found]
                  change Saving store now definition actor registry (Operation.on (do
                    let stored := definition.stampedAfter previous stamp
                    onStore (store.write now definition.name stored.toDocument)
                    Registry.change (keep definition.name stored)
                    let hash ← .ofExcept stored.hash
                    audit now stored.name .save (some hash) actor
                    return stored) _)
                  rw [Operation.on_bind, onStore, Operation.on_within]
                  cases done : (store.write now definition.name
                      (definition.stampedAfter previous stamp).toDocument).on
                        ((load store now definition.name).on registry).2.store with
                  | mk result state =>
                      cases result with
                      | error fault => exact .unwritten clean told next done
                      | ok _ =>
                          dsimp only
                          rw [Operation.on_bind, Registry.change, Operation.on_modify]
                          dsimp only
                          rw [on_record]
                          exact .written clean told next done

/-- A save that succeeds returns the definition that it was given, stamped after the one before
it. -/
theorem save_stampedAfter {now : Instant} {definition stored : Definition} {actor : Value}
    {after : Registry σ}
    (done : (save store now definition actor).on registry = (.ok stored, after)) :
    ∃ previous stamp, ((previous? store now definition.name).on registry).1 = .ok previous ∧
      stored = definition.stampedAfter previous stamp ∧
      ∃ hash shown between, stored.hash = .ok hash ∧
        after = record now stored.name .save (some hash) shown between := by
  have ended := saving store now definition actor registry
  rw [done] at ended
  generalize left : ((Except.ok stored : Except Fault Definition), after) = outcome at ended
  cases ended with
  | refused => cases left
  | unloaded => cases left
  | unstamped => cases left
  | unwritten => cases left
  | @written previous stamp _ _ found =>
      rw [recorded] at left
      split at left
      · cases left
      · cases left
      · next hash shown hashed _ =>
          cases left
          exact ⟨previous, stamp, found, rfl, hash, shown, _, hashed, rfl⟩

/-- A save that is refused has at most loaded the definition before it.  Where that is loaded
already, nothing changes. -/
theorem eq_of_save_refused (never : store.NeverRefuses) {now : Instant}
    {definition previous : Definition} {actor : Value} {refusal : Refusal} {after : Registry σ}
    (loaded : (load store now definition.name).on registry = (.ok previous, registry))
    (done : (save store now definition actor).on registry = (.error (.refused refusal), after)) :
    after = registry := by
  have ended := saving store now definition actor registry
  rw [done] at ended
  generalize left : ((Except.error (.refused refusal) : Except Fault Definition), after) = outcome
    at ended
  cases ended with
  | refused =>
      cases left
      rfl
  | unloaded | unstamped =>
      cases left
      rw [loaded]
  | unwritten _ _ _ failed =>
      cases left
      exact absurd (congrArg Prod.fst failed) (never _ _ _ _ _)
  | written => exact absurd (congrArg Prod.fst left).symm (recorded_ne_refused _ _ _ _)

/-- **A save that succeeds is recorded last**, with the content hash of what it returns, and returns
the definition that it was given with other stamps. -/
theorem save_eq_ok {now : Instant} {definition stored : Definition} {actor : Value}
    {after : Registry σ}
    (done : (save store now definition actor).on registry = (.ok stored, after)) :
    stored = definition.withStamps stored.createdAt stored.updatedAt ∧
      ∃ hash shown between, stored.hash = .ok hash ∧
        after = record now stored.name .save (some hash) shown between := by
  obtain ⟨previous, stamp, -, rfl, kept⟩ := save_stampedAfter done
  exact ⟨rfl, kept⟩

end Registry

end GovernedRecords
