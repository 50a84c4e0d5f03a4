import GovernedRecords.Proofs.Keyed
import GovernedRecords.Proofs.Operation
import GovernedRecords.Registry.Named

/-!
# Calls of the registry

A registry is used through seven operations.  A call of one of them, with its arguments, is a
value here, so that runs of calls can be spoken of.  A property of registries that loading,
saving and removing keep, and that looking into the store and dropping a name keep as well, is
kept by every call (`KeptBySteps.answer`).

Whatever the definition store does, what is in the cache passed the check of definitions.  So
every call keeps a property of the cached definitions and their names that the check ensures
(`FromCheck.keptBySteps`), and what is loaded or saved has it as well.  The first such property is
that every definition is kept under its own name (`CacheNamed`): a definition that is loaded has
the name it was asked for (`ensures_loadValue`).
-/

set_option autoImplicit false

namespace GovernedRecords

/-- A call of an operation of the registry. -/
inductive RegistryCall where
  | load (name : Value)
  | exists? (name : Value)
  | list
  | save (definition : Definition) (actor : Value)
  | update (name changes actor : Value)
  | delete (name actor : Value)
  | invalidate (name : Value)

namespace RegistryCall

/-- The name under which a call saves a definition or removes one. -/
def target? : RegistryCall → Option Text
  | .save definition _ => some definition.name
  | .update (.text name) _ _ => some name
  | .delete (.text name) _ => some name
  | _ => none

/-- The actor for whom a call saves or removes. -/
def actor? : RegistryCall → Option Value
  | .save _ actor => some actor
  | .update _ _ actor => some actor
  | .delete _ actor => some actor
  | _ => none

/-- A call that saves or removes under a name is a save, an update or a removal. -/
theorem target?_eq_some {call : RegistryCall} {name : Text} (target : call.target? = some name) :
    (∃ definition actor, call = .save definition actor ∧ definition.name = name) ∨
      (∃ changes actor, call = .update (.text name) changes actor) ∨
      ∃ actor, call = .delete (.text name) actor := by
  cases call with
  | save definition actor => exact .inl ⟨definition, actor, rfl, Option.some.inj target⟩
  | update asked changes actor =>
      cases asked with
      | text other =>
          cases target
          exact .inr (.inl ⟨changes, actor, rfl⟩)
      | _ => cases target
  | delete asked actor =>
      cases asked with
      | text other =>
          cases target
          exact .inr (.inr ⟨actor, rfl⟩)
      | _ => cases target
  | _ => cases target

end RegistryCall

/-- What an operation of the registry answers. -/
inductive RegistryAnswer where
  | definition (definition : Definition)
  | truth (truth : Bool)
  | definitions (definitions : List Definition)
  | done

/-- The definitions that an answer returns. -/
def RegistryAnswer.returned : RegistryAnswer → List Definition
  | .definition one => [one]
  | .definitions all => all
  | _ => []

namespace Registry

variable [Host] {σ : Type}

/-- Makes a call at an instant. -/
def answer (store : DefinitionStore σ) (now : Instant) :
    RegistryCall → Operation (Registry σ) RegistryAnswer
  | .load name => .definition <$> loadValue store now name
  | .exists? name => .truth <$> existsValue store name
  | .list => .definitions <$> list store now
  | .save definition actor => .definition <$> save store now definition actor
  | .update name changes actor => .definition <$> updateValue store now name changes actor
  | .delete name actor => (fun _ => .done) <$> deleteValue store now name actor
  | .invalidate name => (fun _ => .done) <$> invalidateValue name

/-! ## What every call keeps -/

section Keeps

open Operation

variable {store : DefinitionStore σ} {now : Instant} {holds : Registry σ → Prop}

omit [Host] in
theorem ensures_named {α : Type} {value : Value} {unnamed : Operation (Registry σ) α}
    {run : Text → Operation (Registry σ) α} {returns : α → Prop}
    (without : Ensures holds unnamed returns)
    (within : ∀ name, value = .text name → Ensures holds (run name) returns) :
    Ensures holds (named value unnamed run) returns := by
  refine (Ensures.ofExcept fun key read => read).bind ?_
  intro key read
  cases key with
  | none => exact without
  | some name => exact within name (Value.asKey_eq_some.mp read)

omit [Host] in
theorem on_named_text {α : Type} (name : Text) (unnamed : Operation (Registry σ) α)
    (run : Text → Operation (Registry σ) α) (registry : Registry σ) :
    (named (.text name) unnamed run).on registry = (run name).on registry := by
  rw [named, Operation.on_bind, Operation.on_ofExcept]
  rfl

theorem keeps_loadValue (loads : ∀ name, Keeps holds (load store now name)) (name : Value) :
    Keeps holds (loadValue store now name) :=
  ensures_named (.refuse _ _) fun text _ => loads text

/-- A property of registries that a change of the store alone keeps. -/
def StoreFree (holds : Registry σ → Prop) : Prop :=
  ∀ registry state, holds registry → holds { registry with store := state }

namespace StoreFree

variable (free : StoreFree holds)
include free

omit [Host] in
theorem keeps_onStore {α : Type} (operation : Operation σ α) : Keeps holds (onStore operation) :=
  fun registry before => ⟨free registry _ before, fun _ _ => trivial⟩

omit [Host] in
theorem keeps_exists? (name : Text) : Keeps holds (exists? store name) := by
  refine (Ensures.get fun _ before => before).bind ?_
  intro registry _
  split
  · exact .pure trivial
  · split
    · refine (free.keeps_onStore (store.read name)).attempt.bind ?_
      intro result _
      cases result with
      | ok document => exact .pure trivial
      | error fault =>
          simp only
          split
          · exact .pure trivial
          · exact .fail _ _
    · exact .pure trivial

/-- Reading a definition changes nothing but the store; what is read has what every checked
document gives. -/
theorem ensures_read {name : Text} {returns : Definition → Prop}
    (given : ∀ document definition, checked now name document = .ok definition →
      returns definition) : Ensures holds (Registry.read store now name) returns := by
  refine (free.keeps_onStore (store.read name)).attempt.bind ?_
  intro result _
  cases result with
  | error fault =>
      simp only
      split
      · exact .refuse _ _
      · exact .fail _ _
  | ok document =>
      cases document with
      | none => exact .refuse _ _
      | some document => exact .ofExcept (given document)

/-- Loading a definition changes the store and keeps the definition in the cache. -/
theorem ensures_load {name : Text} {returns : Definition → Prop}
    (cached : ∀ registry definition, holds registry →
      Keyed.get? registry.cache name = some definition → returns definition)
    (given : ∀ document definition, checked now name document = .ok definition →
      returns definition)
    (kept : ∀ registry definition, holds registry → returns definition →
      holds (registry.keep name definition)) :
    Ensures holds (load store now name) returns := by
  refine (Ensures.get fun _ before => before).bind ?_
  intro registry before
  cases found : Keyed.get? registry.cache name with
  | some definition => exact .pure (cached registry definition before found)
  | none =>
      simp only
      split
      · refine (free.ensures_read given).bind ?_
        intro definition has
        have keep : Keeps holds (change (keep name definition)) := fun registry before =>
          ⟨kept registry definition before has, fun _ _ => trivial⟩
        exact keep.bind fun _ _ => .pure has
      · exact .refuse _ _

end StoreFree

/-- What every definition has that is loaded, all have that are loaded together. -/
theorem ensures_loadAll {returns : Definition → Prop}
    (loads : ∀ name, Ensures holds (load store now name) returns) (names : List Text) :
    Ensures holds (loadAll store now names) fun definitions =>
      ∀ definition ∈ definitions, returns definition := by
  induction names with
  | nil => exact .pure (List.forall_mem_nil _)
  | cons name rest ih =>
      refine (loads name).attempt.bind ?_
      intro result loaded
      cases result with
      | ok definition =>
          have first : returns definition := loaded definition rfl
          refine ih.bind ?_
          intro definitions others
          exact .pure (List.forall_mem_cons.mpr ⟨first, others⟩)
      | error fault =>
          simp only
          split
          · exact ih
          · exact .fail _ _

theorem keeps_loadAll (loads : ∀ name, Keeps holds (load store now name)) (names : List Text) :
    Keeps holds (loadAll store now names) :=
  (ensures_loadAll loads names).weaken fun _ _ => trivial

theorem keeps_update (loads : ∀ name, Keeps holds (load store now name))
    {actor : Value} (saves : ∀ definition, Keeps holds (save store now definition actor))
    (name : Text) (changes : Value) : Keeps holds (update store now name changes actor) := by
  refine (loads name).bind ?_
  intro current _
  refine (Ensures.keepsOfExcept _).bind ?_
  intro entries _
  refine (Ensures.keepsOfExcept _).bind ?_
  intro changed _
  split
  · exact .refuse _ _
  · exact .fail _ _
  · exact saves _

/-- A property of registries that the steps keep which calls are made of. -/
structure KeptBySteps (holds : Registry σ → Prop) (store : DefinitionStore σ) (now : Instant) :
    Prop where
  load : ∀ name, Keeps holds (load store now name)
  exists? : ∀ name, Keeps holds (exists? store name)
  names : Keeps holds (onStore store.names)
  save : ∀ definition actor, Keeps holds (save store now definition actor)
  delete : ∀ name actor, Keeps holds (delete store now name actor)
  drop : ∀ registry name, holds registry → holds (registry.drop name)

namespace KeptBySteps

variable (kept : KeptBySteps holds store now)
include kept

theorem deleteValue (name actor : Value) : Keeps holds (deleteValue store now name actor) := by
  unfold Registry.deleteValue
  split
  · exact kept.delete _ actor
  · exact .refuse _ _

theorem invalidateValue (name : Value) : Keeps holds (invalidateValue name) := by
  refine (Ensures.get fun _ before => before).bind ?_
  intro registry _
  split
  · exact .pure trivial
  · exact ensures_named (.pure trivial) fun text _ registry before =>
      ⟨kept.drop registry text before, fun _ _ => trivial⟩

/-- **What the steps keep, every call keeps.** -/
theorem answer (call : RegistryCall) : Keeps holds (answer store now call) := by
  cases call with
  | load name => exact (keeps_loadValue kept.load name).map _
  | exists? name =>
      exact (ensures_named (.pure trivial) fun text _ => kept.exists? text).map _
  | list => exact (kept.names.bind fun names _ => keeps_loadAll kept.load names).map _
  | save definition actor => exact (kept.save definition actor).map _
  | update name changes actor =>
      exact (ensures_named (.refuse _ _) fun text _ =>
        keeps_update kept.load (kept.save · actor) text changes).map _
  | delete name actor => exact (kept.deleteValue name actor).map _
  | invalidate name => exact (kept.invalidateValue name).map _

end KeptBySteps

end Keeps

/-! ## Loading again -/

/-- A definition that was loaded is in the cache. -/
theorem cached_of_load {store : DefinitionStore σ} {now : Instant} {name : Text}
    {definition : Definition} {registry after : Registry σ}
    (loaded : (load store now name).on registry = (.ok definition, after)) :
    Keyed.get? after.cache name = some definition := by
  rw [load, Operation.on_bind, Operation.on_get] at loaded
  cases found : Keyed.get? registry.cache name with
  | some other =>
      simp only [found, Operation.on_pure] at loaded
      cases loaded
      exact found
  | none =>
      simp only [found] at loaded
      split at loaded
      · obtain ⟨other, between, -, kept⟩ := Operation.on_bind_eq_ok.mp loaded
        cases kept
        simp [Registry.keep]
      · cases loaded

/-- A definition in the cache is loaded at any instant. -/
theorem load_of_cached (store : DefinitionStore σ) (now : Instant) {name : Text}
    {definition : Definition} {registry : Registry σ}
    (cached : Keyed.get? registry.cache name = some definition) :
    (load store now name).on registry = (.ok definition, registry) := by
  rw [load, Operation.on_bind, Operation.on_get]
  simp only [cached, Operation.on_pure]

/-- A definition that was loaded is loaded again at any instant, from the cache. -/
theorem load_again {store : DefinitionStore σ} {now : Instant} {name : Text}
    {definition : Definition} {registry after : Registry σ}
    (loaded : (load store now name).on registry = (.ok definition, after)) (later : Instant) :
    (load store later name).on after = (.ok definition, after) :=
  load_of_cached store later (cached_of_load loaded)

theorem loadValue_again {store : DefinitionStore σ} {now : Instant} {name : Value}
    {definition : Definition} {registry after : Registry σ}
    (loaded : (loadValue store now name).on registry = (.ok definition, after)) (later : Instant) :
    (loadValue store later name).on after = (.ok definition, after) := by
  simp only [loadValue, named, Operation.on_bind, Operation.on_ofExcept] at loaded ⊢
  cases keyed : name.asKey with
  | error fault =>
      rw [keyed] at loaded
      cases loaded
  | ok key =>
      rw [keyed] at loaded
      cases key with
      | none => cases loaded
      | some text => exact load_again loaded later

/-! ## Definitions in the cache -/

/-- Every definition in the cache has a property together with the name it is kept under. -/
def CacheHas (property : Text → Definition → Prop) (registry : Registry σ) : Prop :=
  ∀ name definition, Keyed.get? registry.cache name = some definition → property name definition

/-- Every definition in the cache is kept under its own name. -/
def CacheNamed (registry : Registry σ) : Prop :=
  ∀ name definition, Keyed.get? registry.cache name = some definition → definition.name = name

/-- A definition that passes its check has a property together with its name. -/
def FromCheck (property : Text → Definition → Prop) : Prop :=
  ∀ ⦃now definition⦄, definition.problems now = .ok [] → property definition.name definition

variable {property : Text → Definition → Prop}

omit [Host] in
theorem cacheHas_ofStore (store : σ) : CacheHas property (ofStore store) := by
  intro name definition cached
  cases cached

omit [Host] in
theorem CacheHas.keep {registry : Registry σ} (before : CacheHas property registry) {name : Text}
    {definition : Definition} (has : property name definition) :
    CacheHas property (registry.keep name definition) := by
  intro other kept cached
  simp only [Registry.keep, Keyed.get?_put] at cached
  split at cached
  · next same =>
      cases cached
      exact same ▸ has
  · exact before other kept cached

omit [Host] in
theorem CacheHas.drop {registry : Registry σ} (before : CacheHas property registry) (name : Text) :
    CacheHas property (registry.drop name) := by
  intro other definition cached
  simp only [Registry.drop, Keyed.get?_erase] at cached
  split at cached
  · cases cached
  · exact before other definition cached

/-- A document that holds a definition under a name holds one without problems and of that
name. -/
theorem clean_of_checked {now : Instant} {name : Text} {document : Value} {definition : Definition}
    (done : checked now name document = .ok definition) :
    definition.problems now = .ok [] ∧ definition.name = name := by
  unfold checked at done
  split at done
  · cases done
  · cases done
  · split at done
    · cases done
    · next problems judged =>
        split at done
        · next passed =>
            cases done
            simp only [Bool.and_eq_true, List.isEmpty_iff, beq_iff_eq] at passed
            exact ⟨passed.1 ▸ judged, passed.2⟩
        · cases done

section Ensures

open Operation

variable (store : DefinitionStore σ) (now : Instant)

omit [Host] in
theorem storeFree_cacheHas : StoreFree (σ := σ) (CacheHas property) := fun _ _ before => before

omit [Host] in
theorem keeps_change {step : Registry σ → Registry σ}
    (kept : ∀ registry, CacheHas property registry → CacheHas property (step registry)) :
    Keeps (CacheHas property) (change step) :=
  fun _ before => ⟨kept _ before, fun _ _ => trivial⟩

theorem keeps_audit (name : Text) (action : AuditAction) (hash : Option Text) (actor : Value) :
    Keeps (CacheHas property) (audit (σ := σ) now name action hash actor) :=
  (Ensures.keepsOfExcept _).bind fun _ _ => keeps_change fun _ before => before

theorem keeps_delete (name : Text) (actor : Value) :
    Keeps (CacheHas property) (delete store now name actor) := by
  rw [delete]
  split
  · refine (storeFree_cacheHas.keeps_onStore _).bind ?_
    intro removed _
    split
    · exact (keeps_change fun _ before => before.drop name).bind fun _ _ =>
        keeps_audit now name .delete none actor
    · exact (keeps_change fun _ before => before.drop name).bind fun _ _ => .refuse _ _
  · exact .refuse _ _

namespace FromCheck

variable (sure : FromCheck property)
include sure

/-- A definition that is loaded has the property with the name it was asked for. -/
theorem ensures_load (name : Text) :
    Ensures (CacheHas property) (load store now name) (property name) := by
  refine storeFree_cacheHas.ensures_load (fun _ definition before => before name definition) ?_
    fun _ _ before => before.keep
  intro document definition done
  obtain ⟨clean, rfl⟩ := clean_of_checked done
  exact sure clean

theorem keeps_previous? (name : Text) :
    Keeps (CacheHas property) (previous? store now name) := by
  refine (sure.ensures_load store now name).attempt.bind ?_
  intro result _
  cases result with
  | ok definition => exact .pure trivial
  | error fault =>
      simp only
      split
      · exact .pure trivial
      · exact .fail _ _

/-- A definition that is saved has the property with the name of what was to be saved. -/
theorem ensures_save (definition : Definition) (actor : Value) :
    Ensures (CacheHas property) (save store now definition actor) (property definition.name) := by
  rw [save]
  split
  · exact .fail _ _
  · exact .refuse _ _
  · next clean =>
      -- The check does not look at the stamps, so what is stored passes it like what was given.
      have has : ∀ createdAt updatedAt,
          property definition.name (definition.withStamps createdAt updatedAt) :=
        fun createdAt updatedAt => @sure now (definition.withStamps createdAt updatedAt) clean
      refine (sure.keeps_previous? store now definition.name).bind ?_
      intro previous _
      refine (Ensures.keepsOfExcept _).bind ?_
      intro stamp _
      refine (storeFree_cacheHas.keeps_onStore _).bind ?_
      intro _ _
      refine (keeps_change fun _ before => before.keep (has _ _)).bind ?_
      intro _ _
      refine (Ensures.keepsOfExcept _).bind ?_
      intro hash _
      exact (keeps_audit now _ _ _ actor).bind fun _ _ => .pure (has _ _)

/-- **The steps of the calls keep a property of the definitions in the cache that every definition
has which passes its check.** -/
theorem keptBySteps : KeptBySteps (CacheHas property) store now where
  load := fun name => (sure.ensures_load store now name).weaken fun _ _ => trivial
  exists? := storeFree_cacheHas.keeps_exists?
  names := storeFree_cacheHas.keeps_onStore _
  save := fun definition actor =>
    (sure.ensures_save store now definition actor).weaken fun _ _ => trivial
  delete := keeps_delete store now
  drop := fun _ name before => before.drop name

end FromCheck

/-! ## Histories -/

/-- A property of registries that is one of their histories. -/
def OfHistories (holds : Registry σ → Prop) : Prop :=
  ∀ before after, after.histories = before.histories → holds before → holds after

namespace OfHistories

variable {store now} {holds : Registry σ → Prop} (ofHistories : OfHistories holds)
include ofHistories

omit [Host] in
theorem storeFree : StoreFree holds := fun registry _ before => ofHistories registry _ rfl before

omit [Host] in
theorem keeps_keep (name : Text) (definition : Definition) :
    Keeps holds (change (keep name definition)) :=
  fun registry before => ⟨ofHistories registry _ rfl before, fun _ _ => trivial⟩

omit [Host] in
theorem keeps_drop (name : Text) : Keeps holds (change (drop name)) :=
  fun registry before => ⟨ofHistories registry _ rfl before, fun _ _ => trivial⟩

/-- Loading definitions records nothing, whatever the store does. -/
theorem keeps_load (name : Text) : Keeps holds (load store now name) :=
  ofHistories.storeFree.ensures_load (fun _ _ _ _ => trivial) (fun _ _ _ => trivial)
    fun registry _ before _ => ofHistories registry _ rfl before

theorem keeps_previous? (name : Text) : Keeps holds (previous? store now name) := by
  refine (ofHistories.keeps_load name).attempt.bind ?_
  intro result _
  cases result with
  | ok definition => exact .pure trivial
  | error fault =>
      simp only
      split
      · exact .pure trivial
      · exact .fail _ _

section Recording

variable {actor : Value} (records : ∀ name action hash shown, shownActor actor = .ok shown →
  ∀ registry, holds registry → holds (record now name action hash shown registry))
include records

omit ofHistories in
theorem keeps_audit (name : Text) (action : AuditAction) (hash : Option Text) :
    Keeps holds (audit now name action hash actor) := by
  refine (Ensures.ofExcept fun shown copied => copied).bind ?_
  intro shown copied registry before
  exact ⟨records name action hash shown copied registry before, fun _ _ => trivial⟩

/-- What records for an actor keep, saves for the actor keep. -/
theorem keeps_save (definition : Definition) :
    Keeps holds (save store now definition actor) := by
  rw [save]
  split
  · exact .fail _ _
  · exact .refuse _ _
  · refine (ofHistories.keeps_previous? definition.name).bind ?_
    intro previous _
    refine (Ensures.keepsOfExcept _).bind ?_
    intro stamp _
    refine (ofHistories.storeFree.keeps_onStore _).bind ?_
    intro _ _
    refine (ofHistories.keeps_keep _ _).bind ?_
    intro _ _
    refine (Ensures.keepsOfExcept _).bind ?_
    intro hash _
    exact (keeps_audit records _ _ _).bind fun _ _ => .pure trivial

/-- What records for an actor keep, removals for the actor keep. -/
theorem keeps_delete (name : Text) : Keeps holds (delete store now name actor) := by
  rw [delete]
  split
  · refine (ofHistories.storeFree.keeps_onStore _).bind ?_
    intro removed _
    split
    · exact (ofHistories.keeps_drop name).bind fun _ _ => keeps_audit records _ _ _
    · exact (ofHistories.keeps_drop name).bind fun _ _ => .refuse _ _
  · exact .refuse _ _

end Recording

end OfHistories

/-- Loading definitions leaves the histories as they are. -/
theorem keeps_histories_load (histories : Keyed (List AuditEntry)) (name : Text) :
    Keeps (fun registry => registry.histories = histories) (load store now name) :=
  OfHistories.keeps_load (fun _ _ same recorded => same.trans recorded) name

/-! ## Names in the cache -/

omit [Host] in
theorem fromCheck_name : FromCheck fun name definition => definition.name = name :=
  fun _ _ _ => rfl

omit [Host] in
theorem cacheNamed_ofStore (store : σ) : CacheNamed (ofStore store) := cacheHas_ofStore store

theorem ensures_load (name : Text) :
    Ensures CacheNamed (load store now name) fun definition => definition.name = name :=
  fromCheck_name.ensures_load store now name

theorem ensures_loadValue (name : Value) :
    Ensures CacheNamed (loadValue store now name) fun definition =>
      name = .text definition.name := by
  refine ensures_named (.refuse _ _) ?_
  intro text same
  refine (ensures_load store now text).weaken ?_
  intro definition named
  rw [same, named]

/-- **The steps of the calls keep every definition under its own name.** -/
theorem keptBySteps_cacheNamed : KeptBySteps CacheNamed store now :=
  fromCheck_name.keptBySteps store now

end Ensures

end Registry

end GovernedRecords
