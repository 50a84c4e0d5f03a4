import GovernedRecords.Proofs.Json.Canonical
import GovernedRecords.Proofs.Registry.Calls
import GovernedRecords.Proofs.Registry.Changes
import GovernedRecords.Proofs.Registry.Outcomes
import GovernedRecords.Proofs.Store.Lawful

/-!
# The cache, the store and the last saves

A registry is coherent with a table of definitions when its store holds the table and every
definition in its cache is the one of the table (`Coherent`).  As long as it is, loading a name
of the table gives its definition, from the cache or from the store alike, and any other name
has none (`load_of_saved`, `load_of_unsaved`).

Every operation leaves the registry coherent: with the same table, or after a save with the
saved definition put into it, or after a removal without the removed one.  The table changes
before the record is made (`Storing`, `Removing`).  Where there is a copy of the actor the record
is made, and then what was put into the table is what is returned (`saved_save`, `saved_update`,
`removed_delete`).
-/

set_option autoImplicit false

namespace GovernedRecords

namespace Instant

/-- Later instants lie in later years, or in the same one. -/
theorem year_mono {first second : Instant} (ordered : first.microseconds ≤ second.microseconds) :
    first.year ≤ second.year :=
  Calendar.year_mono (Nat.div_le_div_right ordered)

theorem microseconds_of_advance? {earlier later : Instant}
    (advanced : earlier.advance? 1 = some later) :
    later.microseconds = earlier.microseconds + 1 := by
  rw [advance?, ofMicroseconds?] at advanced
  split at advanced
  · cases advanced
    rfl
  · cases advanced

end Instant

namespace Registry

variable {σ : Type} {store : DefinitionStore σ} {holds : σ → Keyed Definition → Prop}
  {tooLong : σ → Text → Bool} {registry : Registry σ} {saves : Keyed Definition} {now : Instant}

/-- The store of a registry holds a table of stored definitions, and its cache holds some of
them. -/
structure Coherent (holds : σ → Keyed Definition → Prop) (registry : Registry σ)
    (saves : Keyed Definition) : Prop where
  stored : saves.AllStored
  holds : holds registry.store saves
  cached : ∀ name definition, Keyed.get? registry.cache name = some definition →
    Keyed.get? saves name = some definition

theorem coherent_ofStore {initial : σ} (empty : holds initial []) :
    Coherent holds (ofStore initial) [] where
  stored := by
    intro _ _ impossible
    cases impossible
  holds := empty
  cached := by
    intro _ _ impossible
    cases impossible

theorem Coherent.keep (coherent : Coherent holds registry saves) {name : Text}
    {definition : Definition} (saved : Keyed.get? saves name = some definition) :
    Coherent holds (registry.keep name definition) saves where
  stored := coherent.stored
  holds := coherent.holds
  cached := by
    intro other found read
    simp only [Registry.keep, Keyed.get?_put] at read
    split at read
    · next same =>
        cases read
        exact same ▸ saved
    · exact coherent.cached other found read

theorem Coherent.drop (coherent : Coherent holds registry saves) (name : Text) :
    Coherent holds (registry.drop name) saves where
  stored := coherent.stored
  holds := coherent.holds
  cached := by
    intro other found read
    simp only [Registry.drop, Keyed.get?_erase] at read
    split at read
    · cases read
    · exact coherent.cached other found read

theorem Coherent.isModelName (coherent : Coherent holds registry saves) {name : Text}
    {definition : Definition} (saved : Keyed.get? saves name = some definition) :
    name.isModelName = true := by
  obtain ⟨rfl, stored⟩ := coherent.stored name definition saved
  exact stored.named

theorem Coherent.uncached (coherent : Coherent holds registry saves) {name : Text}
    (unsaved : Keyed.get? saves name = none) : Keyed.get? registry.cache name = none := by
  cases read : Keyed.get? registry.cache name with
  | none => rfl
  | some definition =>
      have saved := coherent.cached name definition read
      rw [unsaved] at saved
      cases saved

/-! ## Loading -/

variable [Host]

/-- The document of a stored definition passes every check. -/
theorem checked_toDocument {definition : Definition} (stored : definition.Stored) (now : Instant) :
    checked now definition.name definition.toDocument = .ok definition := by
  rw [checked, stored.ofDocument]
  simp only [stored.clean now, List.isEmpty_nil, BEq.rfl, Bool.and_self, if_true]

/-- What a name without a definition comes to: no model can have it, it is too long, or nothing is
stored under it. -/
def absence (tooLong : σ → Text → Bool) (state : σ) (name : Text) : Fault :=
  if name.isModelName then
    if tooLong state name then .longName else .refused (notFound name)
  else .refused noSuchName

omit [Host] in
/-- What reading the document of a name comes to; the registry stays as it is. -/
theorem on_read (lawful : store.Lawful holds tooLong) (coherent : Coherent holds registry saves)
    {name : Text} (named : name.isModelName = true) :
    (onStore (store.read name)).on registry =
      (if tooLong registry.store name then .error .longName
       else .ok ((Keyed.get? saves name).map Definition.toDocument), registry) := by
  have read := lawful.read coherent.holds coherent.stored named
  rw [onStore, Operation.on_within, read]

/-- **A name of the table is loaded as its definition.** -/
theorem load_of_saved (lawful : store.Lawful holds tooLong)
    (coherent : Coherent holds registry saves) {name : Text} {definition : Definition}
    (saved : Keyed.get? saves name = some definition) (now : Instant) :
    ∃ after, (load store now name).on registry = (.ok definition, after) ∧
      Coherent holds after saves := by
  rw [load, Operation.on_bind, Operation.on_get]
  cases cached : Keyed.get? registry.cache name with
  | some found =>
      cases saved.symm.trans (coherent.cached name found cached)
      simp only [cached, Operation.on_pure]
      exact ⟨registry, rfl, coherent⟩
  | none =>
      obtain ⟨rfl, stored⟩ := coherent.stored name definition saved
      have read := on_read lawful coherent stored.named
      rw [lawful.short coherent.holds (by rw [saved]; rfl), saved] at read
      simp only [cached, stored.named, if_true, Registry.read, Operation.on_bind,
        Operation.on_attempt, read, Bool.false_eq_true, if_false, Option.map_some,
        Operation.on_ofExcept, checked_toDocument stored now]
      exact ⟨_, rfl, coherent.keep saved⟩

/-- **Any other name has no definition**, and looking for one changes nothing. -/
theorem load_of_unsaved (lawful : store.Lawful holds tooLong)
    (coherent : Coherent holds registry saves) {name : Text}
    (unsaved : Keyed.get? saves name = none) (now : Instant) :
    (load store now name).on registry =
      (.error (absence tooLong registry.store name), registry) := by
  rw [load, Operation.on_bind, Operation.on_get, absence]
  simp only [coherent.uncached unsaved]
  by_cases named : name.isModelName = true
  · have read := on_read lawful coherent named
    rw [unsaved, Option.map_none] at read
    rw [if_pos named, if_pos named]
    cases long : tooLong registry.store name <;> rw [long] at read <;>
      simp only [Registry.read, Operation.on_bind, Operation.on_attempt, read] <;> rfl
  · rw [if_neg named, if_neg named]
    rfl

/-- What is loaded is what the table has. -/
theorem saved_of_load (lawful : store.Lawful holds tooLong)
    (coherent : Coherent holds registry saves) {name : Text} {definition : Definition}
    (loaded : ((load store now name).on registry).1 = .ok definition) :
    Keyed.get? saves name = some definition := by
  cases saved : Keyed.get? saves name with
  | none =>
      rw [load_of_unsaved lawful coherent saved now] at loaded
      cases loaded
  | some found =>
      obtain ⟨after, done, -⟩ := load_of_saved lawful coherent saved now
      rw [done] at loaded
      exact congrArg some (Except.ok.inj loaded)

/-! ## Asking -/

omit [Host] in
theorem exists?_of_saved (lawful : store.Lawful holds tooLong)
    (coherent : Coherent holds registry saves) {name : Text} {definition : Definition}
    (saved : Keyed.get? saves name = some definition) :
    (exists? store name).on registry = (.ok true, registry) := by
  have named := coherent.isModelName saved
  have read := on_read lawful coherent named
  rw [lawful.short coherent.holds (by rw [saved]; rfl), saved] at read
  rw [exists?, Operation.on_bind, Operation.on_get]
  by_cases cached : Keyed.has registry.cache name = true
  · simp only [cached, if_true, Operation.on_pure]
  · simp only [cached, named, if_true, Operation.on_bind, Operation.on_attempt, read,
      Bool.false_eq_true, if_false, Option.map_some, Operation.on_pure, Option.isSome_some]

omit [Host] in
theorem exists?_of_unsaved (lawful : store.Lawful holds tooLong)
    (coherent : Coherent holds registry saves) {name : Text}
    (unsaved : Keyed.get? saves name = none) :
    (exists? store name).on registry =
      (if name.isModelName && tooLong registry.store name then .error .longName else .ok false,
        registry) := by
  have cached : Keyed.has registry.cache name = false := by
    rw [Keyed.has_eq_isSome, coherent.uncached unsaved]
    rfl
  rw [exists?, Operation.on_bind, Operation.on_get]
  by_cases named : name.isModelName = true
  · have read := on_read lawful coherent named
    rw [unsaved, Option.map_none] at read
    cases long : tooLong registry.store name <;> rw [long] at read <;>
      simp only [cached, named, if_true, Bool.false_eq_true, if_false, Operation.on_bind,
        Operation.on_attempt, read] <;>
      rfl
  · simp only [cached, named, Bool.false_eq_true, if_false, Operation.on_pure, Bool.false_and]

/-! ## Listing -/

theorem loadAll_of_saved (lawful : store.Lawful holds tooLong) (now : Instant) {names : List Text}
    (coherent : Coherent holds registry saves)
    (saved : ∀ name ∈ names, (Keyed.get? saves name).isSome = true) :
    ∃ after, (loadAll store now names).on registry =
        (.ok (names.filterMap (Keyed.get? saves)), after) ∧
      Coherent holds after saves := by
  induction names generalizing registry with
  | nil => exact ⟨registry, rfl, coherent⟩
  | cons name rest ih =>
      obtain ⟨first, others⟩ := List.forall_mem_cons.mp saved
      obtain ⟨definition, found⟩ := Option.isSome_iff_exists.mp first
      obtain ⟨between, loaded, kept⟩ := load_of_saved lawful coherent found now
      obtain ⟨after, listed, still⟩ := ih kept others
      refine ⟨after, ?_, still⟩
      rw [loadAll, Operation.on_bind, Operation.on_attempt, loaded]
      simp only [Operation.on_bind, listed, Operation.on_pure]
      rw [List.filterMap_cons_some found]

/-- **The list has the definitions of the table, in the order of their names.** -/
theorem on_list (lawful : store.Lawful holds tooLong) (coherent : Coherent holds registry saves)
    (now : Instant) :
    ∃ names after, (list store now).on registry =
        (.ok ((Text.sorted names).filterMap (Keyed.get? saves)), after) ∧
      Coherent holds after saves ∧ names.Nodup ∧
      ∀ name, name ∈ names ↔ (Keyed.get? saves name).isSome = true := by
  obtain ⟨names, listed, distinct, same⟩ := lawful.names coherent.holds coherent.stored
  have saved : ∀ name ∈ Text.sorted names, (Keyed.get? saves name).isSome = true :=
    fun name member => (same name).mp ((Text.perm_sorted names).mem_iff.mp member)
  obtain ⟨after, loaded, kept⟩ := loadAll_of_saved lawful now coherent saved
  refine ⟨names, after, ?_, kept, distinct, same⟩
  rw [list, Operation.on_bind, onStore, Operation.on_within, listed]
  exact loaded

/-! ## Saving -/

theorem previous?_of_saved (lawful : store.Lawful holds tooLong)
    (coherent : Coherent holds registry saves) {name : Text} {definition : Definition}
    (saved : Keyed.get? saves name = some definition) (now : Instant) :
    ∃ after, (previous? store now name).on registry = (.ok (some definition), after) ∧
      Coherent holds after saves := by
  obtain ⟨after, loaded, kept⟩ := load_of_saved lawful coherent saved now
  refine ⟨after, ?_, kept⟩
  rw [previous?, Operation.on_bind, Operation.on_attempt, loaded]
  rfl

theorem previous?_of_unsaved (lawful : store.Lawful holds tooLong)
    (coherent : Coherent holds registry saves) {name : Text}
    (unsaved : Keyed.get? saves name = none) (now : Instant) :
    (previous? store now name).on registry =
      (if name.isModelName && tooLong registry.store name then .error .longName else .ok none,
        registry) := by
  rw [previous?, Operation.on_bind, Operation.on_attempt,
    load_of_unsaved lawful coherent unsaved now, absence]
  cases name.isModelName <;> cases tooLong registry.store name <;> rfl

/-- What is replaced by a save is the definition of the table, if there is one. -/
theorem previous?_cases (lawful : store.Lawful holds tooLong)
    (coherent : Coherent holds registry saves) (name : Text) (now : Instant) :
    ∃ after, Coherent holds after saves ∧
      ((previous? store now name).on registry = (.ok (Keyed.get? saves name), after) ∨
        (previous? store now name).on registry = (.error .longName, after)) := by
  cases saved : Keyed.get? saves name with
  | some definition =>
      obtain ⟨after, found, kept⟩ := previous?_of_saved lawful coherent saved now
      exact ⟨after, kept, .inl found⟩
  | none =>
      refine ⟨registry, coherent, ?_⟩
      rw [previous?_of_unsaved lawful coherent saved now]
      split
      · exact .inr rfl
      · exact .inl rfl

omit [Host] in
/-- The stamp of a save lies no earlier than the clock. -/
theorem year_nextStamp {previous : Option Instant} {stamp : Instant}
    (next : nextStamp now previous = .ok stamp) (year : 1000 ≤ now.year) : 1000 ≤ stamp.year := by
  refine Nat.le_trans year (Instant.year_mono ?_)
  cases previous with
  | none =>
      cases next
      exact Nat.le_refl _
  | some earlier =>
      simp only [nextStamp] at next
      split at next
      · next passed =>
          split at next
          · next later advanced =>
              cases next
              have step := Instant.microseconds_of_advance? advanced
              simp only [Instant.le, decide_eq_true_eq] at passed
              omega
          · cases next
      · cases next
        exact Nat.le_refl _

omit [Host] in
/-- A definition with stamps is stored as it is, if it may be saved. -/
theorem stored_withStamps {definition : Definition} {createdAt stamp : Instant}
    (clean : definition.problems now = .ok []) (readable : definition.Readable)
    (plain : definition.IsPlain) (created : 1000 ≤ createdAt.year) (updated : 1000 ≤ stamp.year) :
    (definition.withStamps (some createdAt) (some stamp)).Stored where
  clean := fun other => Definition.problems_at clean other
  readable := ⟨readable.named, readable.fields, readable.table, readable.owner⟩
  plain := plain.withStamps _ _
  created := ⟨createdAt, rfl, created⟩
  updated := ⟨stamp, rfl, updated⟩

/-- An actor of whom there is a copy is recorded, and nothing but the history changes. -/
theorem on_audit {actor shown : Value} (copied : shownActor actor = .ok shown) (name : Text)
    (action : AuditAction) (hash : Option Text) :
    (audit now name action hash actor).on registry =
      (.ok (), record now name action hash shown registry) := by
  rw [audit, copied]
  rfl

omit [Host] in
/-- Putting a stored definition into the store and the cache puts it into the table. -/
theorem Coherent.put (coherent : Coherent holds registry saves) {definition : Definition}
    {state : σ} (stored : definition.Stored)
    (held : holds state (Keyed.put definition.name definition saves)) :
    Coherent holds (Registry.keep definition.name definition { registry with store := state })
      (Keyed.put definition.name definition saves) where
  stored := by
    intro name found read
    rw [Keyed.get?_put] at read
    split at read
    · next same =>
        cases read
        exact ⟨same, stored⟩
    · exact coherent.stored name found read
  holds := held
  cached := by
    intro name found read
    simp only [Registry.keep, Keyed.get?_put] at read ⊢
    split
    · next same => rwa [if_pos same] at read
    · next differ =>
        rw [if_neg differ] at read
        exact coherent.cached name found read

omit [Host] in
/-- What is saved at a stamp after a definition of the table may be stored. -/
theorem stored_stampedAfter (coherent : Coherent holds registry saves) {definition : Definition}
    (clean : definition.problems now = .ok []) (readable : definition.Readable)
    (plain : definition.IsPlain) (year : 1000 ≤ now.year) {stamp : Instant}
    (next : nextStamp now ((Keyed.get? saves definition.name).bind Definition.updatedAt) =
      .ok stamp) :
    (definition.stampedAfter (Keyed.get? saves definition.name) stamp).Stored := by
  have stampYear := year_nextStamp next year
  refine stored_withStamps clean readable plain ?_ stampYear
  cases previous : Keyed.get? saves definition.name with
  | none => exact stampYear
  | some old =>
      obtain ⟨created, given, createdYear⟩ :=
        (coherent.stored definition.name old previous).2.created
      simpa [given] using createdYear

/-- How a save or an update of a name ends in a registry that is coherent with a table.  It fails
before anything is stored, or the store and the cache have a definition, stamped after the one of
the table, and it goes on to its record. -/
inductive Storing (holds : σ → Keyed Definition → Prop) (registry : Registry σ)
    (saves : Keyed Definition) (now : Instant) (name : Text) (actor : Value) :
    Except Fault Definition × Registry σ → Prop where
  | failed {fault : Fault} {after : Registry σ} (coherent : Coherent holds after saves)
      (histories : after.histories = registry.histories) :
      Storing holds registry saves now name actor (.error fault, after)
  | stored {definition : Definition} {stamp : Instant} {between : Registry σ}
      (named : definition.name = name)
      (next : nextStamp now ((Keyed.get? saves name).bind Definition.updatedAt) = .ok stamp)
      (coherent : Coherent holds between
        (Keyed.put name (definition.stampedAfter (Keyed.get? saves name) stamp) saves))
      (histories : between.histories = registry.histories) :
      Storing holds registry saves now name actor
        (recorded now (definition.stampedAfter (Keyed.get? saves name) stamp) actor between)

/-- What was recorded before is all that an ending knows of the registry before. -/
theorem Storing.congr {name : Text} {actor : Value} {other : Registry σ}
    {outcome : Except Fault Definition × Registry σ}
    (ended : Storing holds registry saves now name actor outcome)
    (histories : registry.histories = other.histories) :
    Storing holds other saves now name actor outcome := by
  cases ended with
  | failed coherent same => exact .failed coherent (same.trans histories)
  | stored named next coherent same => exact .stored named next coherent (same.trans histories)

/-- **A save stores a definition stamped after the one of the table, or stores nothing.** -/
theorem storing_save (lawful : store.Lawful holds tooLong)
    (coherent : Coherent holds registry saves) {definition : Definition} (actor : Value)
    (readable : definition.Readable) (plain : definition.problems now = .ok [] → definition.IsPlain)
    (year : 1000 ≤ now.year) :
    Storing holds registry saves now definition.name actor
      ((save store now definition actor).on registry) := by
  obtain ⟨between, kept, told⟩ := previous?_cases lawful coherent definition.name now
  have left : ((load store now definition.name).on registry).2 = between := by
    rw [on_previous?] at told
    rcases told with same | same <;> exact congrArg Prod.snd same
  have histories : ((load store now definition.name).on registry).2.histories =
      registry.histories := (keeps_histories_load store now _ definition.name registry rfl).1
  rw [← left] at kept
  have replaced : ∀ previous, ((previous? store now definition.name).on registry).1 =
      .ok previous → previous = Keyed.get? saves definition.name := by
    intro previous found
    rcases told with same | same
    · rw [same] at found
      cases found
      rfl
    · rw [same] at found
      cases found
  have ended := saving store now definition actor registry
  generalize (save store now definition actor).on registry = outcome at ended ⊢
  cases ended with
  | refused => exact .failed coherent rfl
  | unloaded => exact .failed kept histories
  | unstamped => exact .failed kept histories
  | unwritten clean found next failed =>
      cases replaced _ found
      have stored := stored_stampedAfter coherent clean readable (plain clean) year next
      obtain ⟨after, ⟨done, -⟩ | ⟨done, held⟩⟩ := lawful.write now kept.holds kept.stored stored
      · cases failed.symm.trans done
      · cases failed.symm.trans done
        exact .failed ⟨coherent.stored, held, kept.cached⟩ histories
  | written clean found next done =>
      cases replaced _ found
      have stored := stored_stampedAfter coherent clean readable (plain clean) year next
      obtain ⟨after, ⟨written, held⟩ | ⟨failed, -⟩⟩ :=
        lawful.write now kept.holds kept.stored stored
      · cases done.symm.trans written
        exact .stored rfl next (kept.put stored held) histories
      · cases done.symm.trans failed

/-- What a save comes to: the saved definition is put into the table under its name, or the
save ends with a fault and the table stays as it is. -/
inductive Saved (holds : σ → Keyed Definition → Prop) (saves : Keyed Definition) (name : Text) :
    Except Fault Definition × Registry σ → Prop where
  | done {definition : Definition} {after : Registry σ} (named : definition.name = name)
      (coherent : Coherent holds after (Keyed.put name definition saves)) :
      Saved holds saves name (.ok definition, after)
  | failed {fault : Fault} {after : Registry σ} (coherent : Coherent holds after saves) :
      Saved holds saves name (.error fault, after)

/-- Where there is a copy of the actor the record is made, and what was stored is returned. -/
theorem Storing.saved {name : Text} {actor shown : Value}
    {outcome : Except Fault Definition × Registry σ}
    (ended : Storing holds registry saves now name actor outcome)
    (copied : shownActor actor = .ok shown) : Saved holds saves name outcome := by
  cases ended with
  | failed coherent => exact .failed coherent
  | stored named _ coherent =>
      have plain := (coherent.stored _ _ (Keyed.get?_put_self _ _ _)).2.plain
      obtain ⟨hash, noted⟩ := exists_recorded plain copied
      rw [noted]
      exact .done named ⟨coherent.stored, coherent.holds, coherent.cached⟩

/-- **A save puts the definition that it returns into the table, or leaves the table as it is.** -/
theorem saved_save (lawful : store.Lawful holds tooLong) (coherent : Coherent holds registry saves)
    {definition : Definition} {actor shown : Value} (readable : definition.Readable)
    (plain : definition.problems now = .ok [] → definition.IsPlain)
    (copied : shownActor actor = .ok shown) (year : 1000 ≤ now.year) :
    Saved holds saves definition.name ((save store now definition actor).on registry) :=
  (storing_save lawful coherent actor readable plain year).saved copied

/-! ## Changing -/

/-- What some changes make of a definition has no lone surrogates, if it may be saved at an instant
at all. -/
def KeepsPlain (now : Instant) (changes : Value) (current : Definition) : Prop :=
  ∀ (updated : Definition) (entries changed : Entries),
    changeEntries changes = .ok entries →
    applyChanges entries (current.toDocument.asObject?.getD []) = .ok changed →
    Definition.ofDocument (.object changed) = .ok updated → updated.problems now = .ok [] →
    updated.IsPlain

/-- **An update stores a definition stamped after the one of the table, or stores nothing.** -/
theorem storing_update (lawful : store.Lawful holds tooLong)
    (coherent : Coherent holds registry saves) (name : Text) {changes : Value} (actor : Value)
    (plain : ∀ current, Keyed.get? saves name = some current → KeepsPlain now changes current)
    (year : 1000 ≤ now.year) :
    Storing holds registry saves now name actor
      ((update store now name changes actor).on registry) := by
  cases saved : Keyed.get? saves name with
  | none =>
      rw [update, Operation.on_bind_of_error (load_of_unsaved lawful coherent saved now)]
      exact .failed coherent rfl
  | some current =>
      obtain ⟨between, loaded, kept⟩ := load_of_saved lawful coherent saved now
      have histories : between.histories = registry.histories := by
        have same := (keeps_histories_load store now _ name registry rfl).1
        rwa [loaded] at same
      obtain ⟨rfl, stored⟩ := coherent.stored name current saved
      have ended := updating loaded changes actor
      generalize (update store now current.name changes actor).on registry = outcome at ended ⊢
      cases ended with
      | unlisted | unapplied | refused | outOfRange | textless => exact .failed kept histories
      | saving given done read =>
          rw [← name_of_changed done read]
          refine (storing_save lawful kept actor (Definition.ofDocument_readable read)
            (plain current saved _ _ _ given done read) year).congr ?_
          exact histories

/-- **An update puts the definition that it returns into the table, or leaves the table as it
is.** -/
theorem saved_update (lawful : store.Lawful holds tooLong)
    (coherent : Coherent holds registry saves) (name : Text) {changes actor shown : Value}
    (plain : ∀ current, Keyed.get? saves name = some current → KeepsPlain now changes current)
    (copied : shownActor actor = .ok shown) (year : 1000 ≤ now.year) :
    Saved holds saves name ((update store now name changes actor).on registry) :=
  (storing_update lawful coherent name actor plain year).saved copied

/-! ## Removing -/

omit [Host] in
/-- Removing a name from the store and the cache takes it out of the table. -/
theorem Coherent.erase (coherent : Coherent holds registry saves) {name : Text} {state : σ}
    (held : holds state (Keyed.erase name saves)) :
    Coherent holds (Registry.drop name { registry with store := state })
      (Keyed.erase name saves) where
  stored := by
    intro other found read
    rw [Keyed.get?_erase] at read
    split at read
    · cases read
    · exact coherent.stored other found read
  holds := held
  cached := by
    intro other found read
    simp only [Registry.drop, Keyed.get?_erase] at read ⊢
    split
    · next same => rw [if_pos same] at read; cases read
    · next differ =>
        rw [if_neg differ] at read
        exact coherent.cached other found read

/-- How a removal of a name ends in a registry that is coherent with a table.  It fails and the
table stays as it is, or the name is taken out of the table, and it goes on to its record. -/
inductive Removing (holds : σ → Keyed Definition → Prop) (registry : Registry σ)
    (saves : Keyed Definition) (now : Instant) (name : Text) (actor : Value) :
    Except Fault Unit × Registry σ → Prop where
  | failed {fault : Fault} {after : Registry σ} (coherent : Coherent holds after saves)
      (histories : after.histories = registry.histories) :
      Removing holds registry saves now name actor (.error fault, after)
  | removed {between : Registry σ} (coherent : Coherent holds between (Keyed.erase name saves))
      (histories : between.histories = registry.histories) :
      Removing holds registry saves now name actor
        ((audit now name .delete none actor).on between)

/-- **A removal takes its name out of the table, or leaves the table as it is.** -/
theorem removing_delete (lawful : store.Lawful holds tooLong)
    (coherent : Coherent holds registry saves) (name : Text) (actor : Value) :
    Removing holds registry saves now name actor ((delete store now name actor).on registry) := by
  rw [delete]
  split
  · next named =>
      obtain ⟨state, held, deleted⟩ := lawful.delete coherent.holds coherent.stored named
      rw [Operation.on_bind, onStore, Operation.on_within, deleted]
      have kept := coherent.erase held
      cases saved : Keyed.get? saves name with
      | some definition =>
          rw [lawful.short coherent.holds (by rw [saved]; rfl)]
          simp only [Bool.false_eq_true, if_false, Option.isSome_some, if_true]
          exact .removed kept rfl
      | none =>
          rw [Keyed.erase_of_get?_eq_none saved] at held kept
          have unchanged : Coherent holds { registry with store := state } saves :=
            ⟨coherent.stored, held, coherent.cached⟩
          cases tooLong registry.store name with
          | true => exact .failed unchanged rfl
          | false => exact .failed kept rfl
  · exact .failed coherent rfl

/-- What a removal comes to: a name is taken out of the table, or the removal ends with a fault and
the table stays as it is. -/
inductive Removed (holds : σ → Keyed Definition → Prop) (saves : Keyed Definition) (name : Text) :
    Except Fault Unit × Registry σ → Prop where
  | done {after : Registry σ} (coherent : Coherent holds after (Keyed.erase name saves)) :
      Removed holds saves name (.ok (), after)
  | failed {fault : Fault} {after : Registry σ} (coherent : Coherent holds after saves) :
      Removed holds saves name (.error fault, after)

/-- A removal for an actor of whom there is a copy takes its name out of the table, or leaves the
table as it is. -/
theorem removed_delete (lawful : store.Lawful holds tooLong)
    (coherent : Coherent holds registry saves) (name : Text) {actor shown : Value}
    (copied : shownActor actor = .ok shown) :
    Removed holds saves name ((delete store now name actor).on registry) := by
  have ended : Removing holds registry saves now name actor
      ((delete store now name actor).on registry) := removing_delete lawful coherent name actor
  generalize (delete store now name actor).on registry = outcome at ended ⊢
  cases ended with
  | failed coherent => exact .failed coherent
  | removed coherent =>
      rw [on_audit copied]
      exact .done ⟨coherent.stored, coherent.holds, coherent.cached⟩

/-! ## Calls that save and remove nothing -/

/-- A registry is coherent with a table and has some histories. -/
structure Settled (holds : σ → Keyed Definition → Prop) (saves : Keyed Definition)
    (histories : Keyed (List AuditEntry)) (registry : Registry σ) : Prop where
  coherent : Coherent holds registry saves
  histories : registry.histories = histories

section Settled

open Operation

variable {histories : Keyed (List AuditEntry)}

theorem Settled.ensures_load (lawful : store.Lawful holds tooLong) (now : Instant) (name : Text) :
    Ensures (Settled holds saves histories) (load store now name) fun definition =>
      Keyed.get? saves name = some definition := by
  intro registry settled
  have same := (keeps_histories_load store now histories name registry settled.histories).1
  cases saved : Keyed.get? saves name with
  | some definition =>
      obtain ⟨after, loaded, kept⟩ := load_of_saved lawful settled.coherent saved now
      rw [loaded] at same ⊢
      refine ⟨⟨kept, same⟩, ?_⟩
      intro found given
      cases given
      rfl
  | none =>
      rw [load_of_unsaved lawful settled.coherent saved now]
      refine ⟨settled, ?_⟩
      intro found given
      cases given

omit [Host] in
theorem Settled.keeps_exists? (lawful : store.Lawful holds tooLong) (name : Text) :
    Keeps (Settled holds saves histories) (exists? store name) := by
  intro registry settled
  cases saved : Keyed.get? saves name with
  | some definition =>
      rw [exists?_of_saved lawful settled.coherent saved]
      exact ⟨settled, fun _ _ => trivial⟩
  | none =>
      rw [exists?_of_unsaved lawful settled.coherent saved]
      exact ⟨settled, fun _ _ => trivial⟩

theorem Settled.ensures_list (lawful : store.Lawful holds tooLong) (now : Instant) :
    Ensures (Settled holds saves histories) (list store now) fun definitions =>
      ∀ definition ∈ definitions, ∃ name, Keyed.get? saves name = some definition := by
  have names : Keeps (Settled holds saves histories) (onStore store.names) := by
    intro registry settled
    obtain ⟨names, listed, -, -⟩ :=
      lawful.names settled.coherent.holds settled.coherent.stored
    rw [onStore, Operation.on_within, listed]
    exact ⟨settled, fun _ _ => trivial⟩
  refine names.bind fun names _ => ensures_loadAll ?_ names
  intro name
  exact (Settled.ensures_load lawful now name).weaken fun definition saved => ⟨name, saved⟩

omit [Host] in
theorem Settled.keeps_invalidateValue (name : Value) :
    Keeps (Settled holds saves histories) (invalidateValue name) := by
  refine (Ensures.get fun _ settled => settled).bind ?_
  intro registry _
  split
  · exact .pure trivial
  · exact ensures_named (.pure trivial) fun text _ registry settled =>
      ⟨⟨settled.coherent.drop text, settled.histories⟩, fun _ _ => trivial⟩

/-- **A call that saves and removes nothing leaves the table and the histories as they are**, and
returns definitions of the table. -/
theorem ensures_reading (lawful : store.Lawful holds tooLong) (now : Instant) {call : RegistryCall}
    (reading : call.target? = none) :
    Ensures (Settled holds saves histories) (answer store now call) fun answer =>
      ∀ definition ∈ answer.returned, ∃ name, Keyed.get? saves name = some definition := by
  cases call with
  | load name =>
      refine (ensures_named (.refuse _ _) fun text _ => ?_).mapTo fun _ =>
        List.forall_mem_singleton.mpr
      exact (Settled.ensures_load lawful now text).weaken fun definition saved => ⟨text, saved⟩
  | exists? name =>
      refine Ensures.mapAll (ensures_named (.pure trivial) fun text _ => ?_) fun _ =>
        List.forall_mem_nil _
      exact Settled.keeps_exists? lawful text
  | list => exact (Settled.ensures_list lawful now).mapTo fun _ served => served
  | invalidate name =>
      exact (Settled.keeps_invalidateValue name).mapAll fun _ => List.forall_mem_nil _
  | save definition actor => cases reading
  | update name changes actor =>
      refine (ensures_named (.refuse _ _) fun text same => ?_).mapTo fun _ =>
        List.forall_mem_singleton.mpr
      subst same
      cases reading
  | delete name actor =>
      refine Ensures.mapAll ?_ fun _ => List.forall_mem_nil _
      unfold deleteValue
      split
      · cases reading
      · exact .refuse _ _

end Settled

end Registry

end GovernedRecords
