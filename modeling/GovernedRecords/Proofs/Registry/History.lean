import GovernedRecords.Proofs.Registry.Turns
import Mathlib.Data.List.Forall2

/-!
# The history agrees with the store

After every run of calls the history of a name has one entry for each revision of the name, newest
first: a save with the content hash of the definition that was returned, or a removal.  The newest
entry is a save exactly when the store has a document under the name, and then its hash is the
content hash of that document (`history_agrees`).

What ties the three together is the table of what is saved.  Under a name it has what the newest
revision saved there, and nothing when that was a removal or there was none (`Logged`).

A save by an actor of whom there is no copy fails after the store has its document, and is not
recorded (`unrecorded_save_stored`).
-/

set_option autoImplicit false

namespace GovernedRecords

/-- The definition that a revision leaves under its name. -/
def Revision.definition? : Revision → Option Definition
  | .saved definition => some definition
  | .removed => none

namespace Registry

variable [Host] {σ : Type} {store : DefinitionStore σ} {holds : σ → Keyed Definition → Prop}
  {tooLong : σ → Text → Bool} {registry between : Registry σ} {saves : Keyed Definition}
  {now : Instant} {call : RegistryCall}

/-- An entry of the history of a name records a revision: a save with the content hash of the
definition's document, or a removal. -/
def RecordedAs (name : Text) : Revision → AuditEntry → Prop
  | .saved definition, entry => entry.name = name ∧ entry.action = .save ∧
      ∃ hash, contentHash definition.toDocument = .ok hash ∧ entry.hash = some hash
  | .removed, entry => entry.name = name ∧ entry.action = .delete ∧ entry.hash = none

/-! ## Actors -/

/-- A history can be copied that has an entry. -/
def IsShown (entry : AuditEntry) : Prop :=
  ∃ copied, (Value.list [entry.toValue]).copy = .ok copied

/-- Entries for the actor of a call, if it has one, can be copied in a history. -/
def ShowsActor (call : RegistryCall) : Prop :=
  ∀ entry : AuditEntry, call.actor? = some entry.actor → IsShown entry

omit [Host] in
/-- An entry adds its actor to a history two levels down. -/
theorem nesting_list_toValue (entry : AuditEntry) :
    (Value.list [entry.toValue]).nesting = entry.actor.nesting + 2 := by
  have hash : (Value.ofText? entry.hash).nesting = 0 := by cases entry.hash <;> rfl
  simp only [AuditEntry.toValue, Value.ofFields, List.map_cons, List.map_nil, Value.nesting,
    Value.nestingOfEntries, Value.nestingOfItems, hash]
  omega

theorem isShown_iff (entry : AuditEntry) :
    IsShown entry ↔ entry.actor.nesting + 2 ≤ Host.copied := by
  rw [← nesting_list_toValue]
  constructor
  · rintro ⟨copied, copy⟩
    exact Value.nesting_le_of_copy copy
  · intro shallow
    exact ⟨_, if_neg (Nat.not_lt.mpr shallow)⟩

/-- What is shown of an actor is nested no deeper than the actor. -/
theorem nesting_of_shownActor {actor shown : Value} (copied : shownActor actor = .ok shown) :
    shown.nesting ≤ actor.nesting := by
  rw [shownActor] at copied
  split at copied
  · exact Nat.le_of_eq (congrArg Value.nesting (Value.copy_eq_ok copied))
  · cases copied
    exact Nat.zero_le _

/-- The actor of a call that can be shown in a history can be copied on its own. -/
theorem ShowsActor.copied (shows : ShowsActor call) {actor : Value}
    (authored : call.actor? = some actor) (fault : Fault) : shownActor actor ≠ .error fault := by
  have shallow := (isShown_iff ⟨0, [], .save, none, actor, []⟩).mp (shows _ authored)
  simp only at shallow
  have fits : ¬ Host.copied < actor.nesting := by omega
  rw [shownActor]
  split
  · simp [Value.copy, fits]
  · simp

/-- What is shown of the actor of a call can be shown in a history, in any entry. -/
theorem ShowsActor.isShown (shows : ShowsActor call) {actor : Value}
    (authored : call.actor? = some actor) {entry : AuditEntry}
    (copied : shownActor actor = .ok entry.actor) : IsShown entry := by
  have shallow := (isShown_iff ⟨0, [], .save, none, actor, []⟩).mp (shows _ authored)
  have shown := nesting_of_shownActor copied
  rw [isShown_iff]
  simp only at shallow
  omega

/-- There is a copy of a history if each of its entries can be copied in one. -/
theorem on_history {name : Text} (shown : ∀ entry ∈ registry.historyOf name, IsShown entry) :
    (history name).on registry = (.ok (registry.historyOf name), registry) := by
  have fits : (Value.list ((registry.historyOf name).map AuditEntry.toValue)).nesting ≤
      Host.copied := by
    have entries : ∀ item ∈ (registry.historyOf name).map AuditEntry.toValue,
        item.nesting ≤ Host.copied - 1 := by
      intro item member
      obtain ⟨entry, recorded, rfl⟩ := List.mem_map.mp member
      obtain ⟨copied, copy⟩ := shown entry recorded
      have bound := Value.nesting_le_of_copy copy
      simp only [Value.nesting, Value.nestingOfItems] at bound
      omega
    have whole := Value.nestingOfItems_le entries
    have room := Host.room
    rw [Value.nesting]
    omega
  rw [history, Operation.on_bind, Operation.on_get]
  simp only [Operation.on_bind, Operation.on_ofExcept, Value.copy, Nat.not_lt.mpr fits, if_false,
    Operation.on_pure]

/-! ## Entries -/

omit [Host] in
theorem historyOf_congr (same : between.histories = registry.histories) (name : Text) :
    between.historyOf name = registry.historyOf name := by
  rw [historyOf, historyOf, same]

omit [Host] in
/-- A record stands in front of the history of its name, and of no other. -/
theorem historyOf_record (now : Instant) (target : Text) (action : AuditAction)
    (hash : Option Text) (shown : Value) (name : Text) :
    (record now target action hash shown registry).historyOf name =
      if target = name then
        ⟨registry.entries + 1, target, action, hash, shown, now.stamp⟩ :: registry.historyOf name
      else registry.historyOf name := by
  simp only [record, historyOf, Keyed.get?_put]
  split
  · next same => rw [same, Option.getD_some]
  · rfl

/-- The history of a name, the table and the revisions of the name so far, newest first, belong
together. -/
structure Logged (name : Text) (registry : Registry σ) (saves : Keyed Definition)
    (past : List Revision) : Prop where
  recorded : List.Forall₂ (RecordedAs name) past (registry.historyOf name)
  shown : ∀ entry ∈ registry.historyOf name, IsShown entry
  current : Keyed.get? saves name = past.head?.bind Revision.definition?

theorem logged_ofStore (name : Text) (initial : σ) : Logged name (ofStore initial) [] [] :=
  ⟨.nil, List.forall_mem_nil _, rfl⟩

/-- Another table and registry with the same under the name. -/
theorem Logged.congr {name : Text} {past : List Revision} {next : Keyed Definition}
    (logged : Logged name registry saves past)
    (histories : between.historyOf name = registry.historyOf name)
    (same : Keyed.get? next name = Keyed.get? saves name) : Logged name between next past where
  recorded := histories ▸ logged.recorded
  shown := histories ▸ logged.shown
  current := same.trans logged.current

/-- One more entry, for one more revision, which leaves in the table what the revision does. -/
theorem Logged.record {name : Text} {past : List Revision} {next : Keyed Definition}
    (logged : Logged name registry saves past) (same : between.histories = registry.histories)
    {revision : Revision} {action : AuditAction} {hash : Option Text} {shown : Value}
    (fits : IsShown ⟨between.entries + 1, name, action, hash, shown, now.stamp⟩)
    (recorded : RecordedAs name revision
      ⟨between.entries + 1, name, action, hash, shown, now.stamp⟩)
    (current : Keyed.get? next name = revision.definition?) :
    Logged name (record now name action hash shown between) next (revision :: past) where
  recorded := by
    rw [historyOf_record, if_pos rfl, historyOf_congr same]
    exact .cons recorded logged.recorded
  shown := by
    rw [historyOf_record, if_pos rfl, historyOf_congr same]
    exact List.forall_mem_cons.mpr ⟨fits, logged.shown⟩
  current := current

theorem contentHash_of_hash {definition : Definition} {hash : Text}
    (hashed : definition.hash = .ok hash) : contentHash definition.toDocument = .ok hash := by
  rw [Definition.hash] at hashed
  cases found : contentHash definition.toDocument with
  | error error =>
      rw [found] at hashed
      cases hashed
  | ok other =>
      rw [found] at hashed
      cases hashed
      rfl

/-- **A call adds an entry for its revision, and none where it has no revision.** -/
theorem Effect.logged {outcome : Except Fault RegistryAnswer × Registry σ}
    (effect : Effect holds registry saves now call outcome) (shows : ShowsActor call) {name : Text}
    {past : List Revision} (logged : Logged name registry saves past) :
    ∃ next, Coherent holds outcome.2 next ∧
      Logged name outcome.2 next ((Turn.revision? name ⟨call, outcome.1⟩).toList ++ past) := by
  cases effect with
  | idle settled unrevised _ =>
      rw [unrevised]
      exact ⟨saves, settled.coherent, logged.congr (historyOf_congr settled.histories name) rfl⟩
  | @saved other _ _ _ stored _ targeted authored copied next hashed settled =>
      refine ⟨_, settled.coherent.record _ _ _ _ _, ?_⟩
      rw [Turn.revision?_saved targeted]
      by_cases same : other = name
      · subst same
        rw [if_pos rfl]
        exact logged.record settled.histories (shows.isShown authored copied)
          ⟨rfl, rfl, _, contentHash_of_hash hashed, rfl⟩ (Keyed.get?_put_self _ _ _)
      · rw [if_neg same]
        refine logged.congr ?_ (Keyed.get?_put_of_ne _ _ same)
        rw [historyOf_record, if_neg same, historyOf_congr settled.histories]
  | @removed other _ _ _ targeted authored copied settled =>
      refine ⟨_, settled.coherent.record _ _ _ _ _, ?_⟩
      rw [Turn.revision?_removed targeted]
      by_cases same : other = name
      · subst same
        rw [if_pos rfl]
        exact logged.record settled.histories (shows.isShown authored copied) ⟨rfl, rfl, rfl⟩
          (by rw [Keyed.get?_erase, if_pos rfl]; rfl)
      · rw [if_neg same]
        refine logged.congr ?_ (by rw [Keyed.get?_erase, if_neg same])
        rw [historyOf_record, if_neg same, historyOf_congr settled.histories]
  | unrecordedSave authored uncopied =>
      exact absurd uncopied (shows.copied authored _)
  | unrecordedRemoval removal uncopied =>
      subst removal
      exact absurd uncopied (shows.copied rfl _)

/-- **After a run of calls the history of a name has an entry for every revision of it.** -/
theorem logged_reached (lawful : store.Lawful holds tooLong)
    (coherent : Coherent holds registry saves) {calls : List (Instant × RegistryCall)}
    (proper : ProperRun store registry calls) (shows : ∀ timed ∈ calls, ShowsActor timed.2)
    {name : Text} {past : List Revision} (logged : Logged name registry saves past) :
    ∃ next, Coherent holds (reached store registry calls) next ∧
      Logged name (reached store registry calls) next
        ((revisions name (turns store registry calls)).reverse ++ past) := by
  induction calls generalizing registry saves past with
  | nil => exact ⟨saves, coherent, logged⟩
  | cons timed rest ih =>
      obtain ⟨year, first, others⟩ := proper
      obtain ⟨fits, later⟩ := List.forall_mem_cons.mp shows
      obtain ⟨next, kept, still⟩ := (effect_answer lawful coherent year first).logged fits logged
      obtain ⟨last, ends, all⟩ := ih kept others later still
      refine ⟨last, ends, ?_⟩
      rw [turns, revisions, List.filterMap_cons]
      cases revised : Turn.revision? name ⟨timed.2, ((answer store timed.1 timed.2).on registry).1⟩
      with
      | none =>
          rw [revised] at all
          exact all
      | some revision =>
          rw [revised] at all
          rw [List.reverse_cons, List.append_assoc]
          exact all

/-! ## Documents -/

/-- Under a name the store has the document of the definition that the table has there. -/
theorem read_eq_ok_some {registry : Registry (MemoryDefinitions ⊕ Directory)}
    (coherent : Coherent (DefinitionStore.HoldsEither MemoryDefinitions.Holds Directory.Holds)
      registry saves) (name : Text) (document : Value) :
    ((eitherStore.read name).on registry.store).1 = .ok (some document) ↔
      (Keyed.get? saves name).map Definition.toDocument = some document := by
  cases named : name.isModelName with
  | true =>
      rw [lawful_either.read coherent.holds coherent.stored named]
      cases saved : Keyed.get? saves name with
      | none => split <;> simp
      | some definition =>
          rw [lawful_either.short coherent.holds (by rw [saved]; rfl)]
          simp
  | false =>
      have unsaved : Keyed.get? saves name = none := by
        cases saved : Keyed.get? saves name with
        | none => rfl
        | some definition =>
            rw [coherent.isModelName saved] at named
            cases named
      -- The law of reading is about model names only, so here each store is asked.
      have held := coherent.holds
      generalize registry.store = state at held
      rw [unsaved]
      cases state with
      | inl documents =>
          have kept : Keyed.get? documents name = none := by rw [held.kept name, unsaved]; rfl
          have read : ((eitherStore.read name).on (.inl documents)).1 =
              (MemoryDefinitions.document? documents name).mapM Value.copy := rfl
          have absent : MemoryDefinitions.document? documents name = none := by
            rw [MemoryDefinitions.document?, kept, Option.filter_none]
          rw [read, absent]
          constructor <;> intro found <;> cases found
      | inr directory =>
          have read : ((eitherStore.read name).on (.inr directory)).1 =
              Directory.read name directory := rfl
          rw [read]
          simp [Directory.read, named]

/-! ## Runs on an empty store -/

/-- A history that agrees with the store of a registry and with some revisions of its name. -/
structure Agrees (store : DefinitionStore σ) (registry : Registry σ) (name : Text)
    (revisions : List Revision) (entries : List AuditEntry) : Prop where
  /-- The entries are the history of the name, and showing them changes nothing. -/
  shown : (history name).on registry = (.ok entries, registry)
  /-- There is one entry for each revision, newest first. -/
  recorded : List.Forall₂ (RecordedAs name) revisions.reverse entries
  /-- The newest entry is a save exactly when the store has a document under the name. -/
  stored : (∃ document, ((store.read name).on registry.store).1 = .ok (some document)) ↔
    ∃ entry, entries.head? = some entry ∧ entry.action = .save
  /-- The content hash of that document is the one of the newest entry. -/
  hashed : ∀ document, ((store.read name).on registry.store).1 = .ok (some document) →
    ∃ entry hash, entries.head? = some entry ∧ contentHash document = .ok hash ∧
      entry.hash = some hash

/-- What the newest revision left in the table is in the store, with the hash of its entry. -/
theorem Logged.agrees {registry : Registry (MemoryDefinitions ⊕ Directory)} {name : Text}
    {past : List Revision} (logged : Logged name registry saves past)
    (coherent : Coherent (DefinitionStore.HoldsEither MemoryDefinitions.Holds Directory.Holds)
      registry saves) :
    Agrees eitherStore registry name past.reverse (registry.historyOf name) := by
  have recorded := logged.recorded
  have current := logged.current
  refine ⟨on_history logged.shown, by rwa [List.reverse_reverse], ?_, ?_⟩
  all_goals simp only [read_eq_ok_some coherent, current]
  all_goals generalize registry.historyOf name = entries at recorded
  · cases recorded with
    | nil => simp
    | @cons revision entry _ _ first _ =>
        cases revision with
        | saved definition => simp [Revision.definition?, first.2.1]
        | removed => simp [Revision.definition?, first.2.1]
  · intro document there
    cases recorded with
    | nil => cases there
    | @cons revision entry _ _ first _ =>
        cases revision with
        | saved definition =>
            cases there
            obtain ⟨-, -, hash, hashed, kept⟩ := first
            exact ⟨entry, hash, rfl, hashed, kept⟩
        | removed => cases there

/-- **The history agrees with the store** after every run of calls on an empty store, under every
name, if entries for the actors of the calls can be copied in a history. -/
theorem history_agrees {initial : MemoryDefinitions ⊕ Directory} (empty : NoDocuments initial)
    {calls : List (Instant × RegistryCall)}
    (proper : ProperRun eitherStore (ofStore initial) calls)
    (shows : ∀ timed ∈ calls, ShowsActor timed.2) (name : Text) :
    ∃ entries, Agrees eitherStore (reached eitherStore (ofStore initial) calls) name
      (revisions name (turns eitherStore (ofStore initial) calls)) entries := by
  obtain ⟨saves, coherent, logged⟩ := logged_reached lawful_either (coherent_empty empty) proper
    shows (logged_ofStore name initial)
  rw [List.append_nil] at logged
  have agrees := logged.agrees coherent
  rw [List.reverse_reverse] at agrees
  exact ⟨_, agrees⟩

end Registry

/-! ## Two runs -/

namespace Registry

/-- A run that saves the definition of notes, removes it and saves it again.  A second removal comes
in between, and fails. -/
def savedAgainCalls : List (Instant × RegistryCall) :=
  [(noon, .save noteDefinition "u1"), (noon, .delete "note" .null), (noon, .delete "note" .null),
    (noon, .save noteDefinition .null)]

/-- The history of the notes has three entries. -/
theorem saved_again_agrees :
    let stored := noteDefinition.withStamps (some noon) (some noon)
    ∃ entries, Agrees eitherStore (reached eitherStore (ofStore (.inl [])) savedAgainCalls) "note"
      [.saved stored, .removed, .saved stored] entries := by
  have year : 1000 ≤ noon.year := by decide
  have save : ∀ registry actor, Proper eitherStore registry noon (.save noteDefinition actor) :=
    fun _ _ => ⟨⟨noteDefinition.toDocument, rfl⟩, fun _ => isPlain_noteDefinition⟩
  have proper : ProperRun eitherStore (ofStore (.inl [])) savedAgainCalls :=
    ⟨year, save _ _, year, trivial, year, trivial, year, save _ _, trivial⟩
  have shows : ∀ timed ∈ savedAgainCalls, ShowsActor timed.2 := by
    intro timed member entry authored
    have shallow : entry.actor.nesting = 0 := by
      simp only [savedAgainCalls, List.mem_cons, List.not_mem_nil, or_false] at member
      rcases member with rfl | rfl | rfl | rfl <;>
        (rw [← Option.some.inj authored]; rfl)
    rw [isShown_iff, shallow]
    decide
  have revised : revisions "note" (turns eitherStore (ofStore (.inl [])) savedAgainCalls) =
      [.saved (noteDefinition.withStamps (some noon) (some noon)), .removed,
        .saved (noteDefinition.withStamps (some noon) (some noon))] := by decide +kernel
  have empty : NoDocuments (.inl []) := rfl
  obtain ⟨entries, agrees⟩ := history_agrees empty proper shows "note"
  exact ⟨entries, revised ▸ agrees⟩

set_option maxRecDepth 20000 in
/-- A save by an actor of whom there is no copy fails and is not recorded, and still the store has
the document. -/
theorem unrecorded_save_stored :
    let calls : List (Instant × RegistryCall) := [(noon, .save noteDefinition (nested 600))]
    let registry := reached eitherStore (ofStore (.inl [])) calls
    ProperRun eitherStore (ofStore (.inl [])) calls ∧
      ((history "note").on registry).1 = .ok [] ∧
      ((eitherStore.read "note").on registry.store).1 =
        .ok (some (noteDefinition.withStamps (some noon) (some noon)).toDocument) := by
  have year : 1000 ≤ noon.year := by decide
  have read : Definition.ofDocument noteDefinition.toDocument = .ok noteDefinition := rfl
  exact ⟨⟨year, ⟨⟨_, read⟩, fun _ => isPlain_noteDefinition⟩, trivial⟩, rfl, rfl⟩

end Registry

end GovernedRecords
