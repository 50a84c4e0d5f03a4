import GovernedRecords.Proofs.Access.Permission
import GovernedRecords.Proofs.Registry.Coherence
import GovernedRecords.Proofs.Store.Directory

/-!
# The registry answers from the last saves

A run of calls is followed together with a table of what was saved: a save or an update that
returns a definition puts it into the table, a removal that succeeds takes its name out, and
nothing else changes the table.  The table is made from calls and answers alone and knows
neither the cache nor the store.

After every run on an empty store in memory or in a directory the registry answers from that
table (`last_saves_answered`): a name of the table is loaded as its definition, stamps included,
whatever was dropped from the cache; any other name has no model; and the list has the
definitions of the table in the order of their names.  There are two exceptions
(`long_name_not_refused`).  A name that is too long for a file has no model, but looking for it in
a directory that is there is a fault.  A call by an actor of whom there is no copy is a fault as
well, but one that comes after the store was changed.
-/

set_option autoImplicit false

namespace GovernedRecords

/-- What the caller of the registry keeps to when a call is made at an instant, after the saves of
a table: a definition that is saved was read from a document, no text that is saved holds a lone
surrogate, and there is a copy of the actor. -/
def RegistryCall.Sound [Host] (saves : Keyed Definition) (now : Instant) : RegistryCall → Prop
  | .save definition actor =>
    (∃ document, Definition.ofDocument document = .ok definition) ∧
      (definition.problems now = .ok [] → definition.IsPlain) ∧
      ∃ shown, Registry.shownActor actor = .ok shown
  | .update (.text name) changes actor =>
    (∀ current, Keyed.get? saves name = some current →
      Registry.KeepsPlain now changes current) ∧
      ∃ shown, Registry.shownActor actor = .ok shown
  | .delete (.text _) actor => ∃ shown, Registry.shownActor actor = .ok shown
  | _ => True

/-- The table of what was saved, after one more call with its answer. -/
def RegistryCall.note (call : RegistryCall) (answer : Except Fault RegistryAnswer)
    (saves : Keyed Definition) : Keyed Definition :=
  match call, answer with
  | .save definition _, .ok (.definition stored) => Keyed.put definition.name stored saves
  | .update (.text name) _ _, .ok (.definition stored) => Keyed.put name stored saves
  | .delete (.text name) _, .ok _ => Keyed.erase name saves
  | _, _ => saves

namespace Registry

variable [Host] {σ : Type} {store : DefinitionStore σ} {holds : σ → Keyed Definition → Prop}
  {tooLong : σ → Text → Bool} {registry : Registry σ} {saves : Keyed Definition}

/-- Makes a call at an instant, and notes in the table what it saved or removed. -/
def follow (store : DefinitionStore σ) (state : Registry σ × Keyed Definition)
    (timed : Instant × RegistryCall) : Registry σ × Keyed Definition :=
  let result := (answer store timed.1 timed.2).on state.1
  (result.2, timed.2.note result.1 state.2)

/-- The registry and the table after a run of calls. -/
def followed (store : DefinitionStore σ) (state : Registry σ × Keyed Definition)
    (calls : List (Instant × RegistryCall)) : Registry σ × Keyed Definition :=
  calls.foldl (follow store) state

/-- Every call of a run is made in the years from 1000 on, by a caller who keeps to what is
asked. -/
def SoundRun (store : DefinitionStore σ) :
    Registry σ × Keyed Definition → List (Instant × RegistryCall) → Prop
  | _, [] => True
  | state, timed :: rest =>
    1000 ≤ timed.1.year ∧ timed.2.Sound state.2 timed.1 ∧
      SoundRun store (follow store state timed) rest

/-- A registry answers from a table of what was saved. -/
structure AnswersFrom (store : DefinitionStore σ) (tooLong : σ → Text → Bool)
    (registry : Registry σ) (saves : Keyed Definition) : Prop where
  /-- A name of the table is loaded as its definition. -/
  saved : ∀ (now : Instant) (name : Text) (definition : Definition),
    Keyed.get? saves name = some definition →
      ((answer store now (.load (.text name))).on registry).1 = .ok (.definition definition) ∧
      ((answer store now (.exists? (.text name))).on registry).1 = .ok (.truth true)
  /-- Any other name has no model. -/
  unsaved : ∀ (now : Instant) (name : Text), Keyed.get? saves name = none →
    (name.isModelName = true → tooLong registry.store name = false) →
      (∃ refusal, ((answer store now (.load (.text name))).on registry).1 =
        .error (.refused refusal) ∧ refusal.code = RefusalKind.modelNotFound.code) ∧
      ((answer store now (.exists? (.text name))).on registry).1 = .ok (.truth false)
  /-- A model name that the store finds too long is a fault. -/
  beyond : ∀ (now : Instant) (name : Text), name.isModelName = true →
    tooLong registry.store name = true →
      Keyed.get? saves name = none ∧
      ((answer store now (.load (.text name))).on registry).1 = .error .longName ∧
      ((answer store now (.exists? (.text name))).on registry).1 = .error .longName
  /-- The list has the definitions of the table, in ascending order of their names. -/
  listed : ∀ now : Instant, ∃ definitions,
    ((answer store now .list).on registry).1 = .ok (.definitions definitions) ∧
      ((definitions.map Definition.name).Pairwise fun first second => Text.le first second) ∧
      ∀ name, definitions.filter (fun definition => definition.name == name) =
        (Keyed.get? saves name).toList

/-! ## One call -/

omit [Host] in
/-- A call that saves and removes nothing is not noted. -/
theorem note_of_reading {call : RegistryCall} (reading : call.target? = none)
    (answer : Except Fault RegistryAnswer) : call.note answer saves = saves := by
  cases call with
  | save definition actor => cases reading
  | update name changes actor => cases name <;> first | rfl | cases reading
  | delete name actor => cases name <;> first | rfl | cases reading
  | _ => rfl

/-- **A call leaves the registry coherent with the table that it is noted in.** -/
theorem coherent_follow (lawful : store.Lawful holds tooLong)
    {state : Registry σ × Keyed Definition} (coherent : Coherent holds state.1 state.2)
    {timed : Instant × RegistryCall} (year : 1000 ≤ timed.1.year)
    (sound : timed.2.Sound state.2 timed.1) :
    Coherent holds (follow store state timed).1 (follow store state timed).2 := by
  obtain ⟨registry, saves⟩ := state
  obtain ⟨now, call⟩ := timed
  cases target : call.target? with
  | none =>
      have settled : Settled holds saves registry.histories registry := ⟨coherent, rfl⟩
      simp only [follow, note_of_reading target]
      exact (ensures_reading lawful now target registry settled).1.coherent
  | some name =>
      obtain ⟨definition, actor, rfl, rfl⟩ | ⟨changes, actor, rfl⟩ | ⟨actor, rfl⟩ :=
        RegistryCall.target?_eq_some target
      · obtain ⟨⟨document, read⟩, plain, shown, copied⟩ := sound
        have saved := saved_save lawful coherent (Definition.ofDocument_readable read) plain copied
          year
        simp only [follow, answer, Operation.on_map]
        generalize (save store now definition actor).on registry = outcome at saved
        cases saved with
        | done _ kept => exact kept
        | failed kept => exact kept
      · obtain ⟨plain, shown, copied⟩ := sound
        have saved := saved_update lawful coherent name plain copied year
        simp only [follow, answer, Operation.on_map, updateValue, on_named_text]
        generalize (update store now name changes actor).on registry = outcome at saved
        cases saved with
        | done _ kept => exact kept
        | failed kept => exact kept
      · obtain ⟨shown, copied⟩ := sound
        have removed : Removed holds saves name ((delete store now name actor).on registry) :=
          removed_delete lawful coherent name copied
        simp only [follow, answer, Operation.on_map, deleteValue]
        generalize (delete store now name actor).on registry = outcome at removed
        cases removed with
        | done kept => exact kept
        | failed kept => exact kept

/-- **After every run of calls the registry is coherent with the table of what was saved.** -/
theorem coherent_followed (lawful : store.Lawful holds tooLong)
    {state : Registry σ × Keyed Definition} (coherent : Coherent holds state.1 state.2)
    {calls : List (Instant × RegistryCall)} (sound : SoundRun store state calls) :
    Coherent holds (followed store state calls).1 (followed store state calls).2 := by
  induction calls generalizing state with
  | nil => exact coherent
  | cons timed rest ih =>
      obtain ⟨year, kept, later⟩ := sound
      exact ih (coherent_follow lawful coherent year kept) later

/-! ## Answers -/

omit [Host] in
/-- Among the definitions that the table has under some names, those of one name are those that it
has under this name. -/
theorem filter_filterMap_get? (stored : saves.AllStored) (names : List Text) (name : Text) :
    (names.filterMap (Keyed.get? saves)).filter (fun definition => definition.name == name) =
      (names.filter (· == name)).filterMap (Keyed.get? saves) := by
  induction names with
  | nil => rfl
  | cons first rest ih =>
      cases found : Keyed.get? saves first with
      | none =>
          rw [List.filterMap_cons_none found, ih, List.filter_cons]
          split
          · rw [List.filterMap_cons_none found]
          · rfl
      | some definition =>
          rw [List.filterMap_cons_some found, List.filter_cons, List.filter_cons,
            (stored first definition found).1, ih]
          split
          · rw [List.filterMap_cons_some found]
          · rfl

omit [Host] in
/-- Different names that are the names of the table have the definitions of the table. -/
theorem filter_filterMap_of_nodup (stored : saves.AllStored) {names : List Text}
    (distinct : names.Nodup)
    (same : ∀ name, name ∈ names ↔ (Keyed.get? saves name).isSome = true) (name : Text) :
    (names.filterMap (Keyed.get? saves)).filter (fun definition => definition.name == name) =
      (Keyed.get? saves name).toList := by
  rw [filter_filterMap_get? stored, List.filter_beq]
  cases found : Keyed.get? saves name with
  | none =>
      have absent : name ∉ names := by simp [same, found]
      rw [List.count_eq_zero.mpr absent]
      rfl
  | some definition =>
      have member : name ∈ names := by simp [same, found]
      rw [List.count_eq_one_of_mem distinct member, List.replicate_one,
        List.filterMap_cons_some found]
      rfl

omit [Host] in
/-- The names of the definitions that the table has under some names are those names. -/
theorem map_name_filterMap_get? (stored : saves.AllStored) {names : List Text}
    (saved : ∀ name ∈ names, (Keyed.get? saves name).isSome = true) :
    (names.filterMap (Keyed.get? saves)).map Definition.name = names := by
  induction names with
  | nil => rfl
  | cons name rest ih =>
      obtain ⟨first, others⟩ := List.forall_mem_cons.mp saved
      obtain ⟨definition, found⟩ := Option.isSome_iff_exists.mp first
      rw [List.filterMap_cons_some found, List.map_cons, ih others,
        (stored name definition found).1]

theorem on_answer_load (now : Instant) (name : Text) :
    ((answer store now (.load (.text name))).on registry).1 =
      ((load store now name).on registry).1.map RegistryAnswer.definition := by
  rw [answer, Operation.on_map, loadValue, on_named_text]

theorem on_answer_exists? (now : Instant) (name : Text) :
    ((answer store now (.exists? (.text name))).on registry).1 =
      ((exists? store name).on registry).1.map RegistryAnswer.truth := by
  rw [answer, Operation.on_map, existsValue, on_named_text]

/-- **A registry that is coherent with a table answers from it.** -/
theorem Coherent.answersFrom (lawful : store.Lawful holds tooLong)
    (coherent : Coherent holds registry saves) : AnswersFrom store tooLong registry saves where
  saved := by
    intro now name definition saved
    obtain ⟨after, loaded, -⟩ := load_of_saved lawful coherent saved now
    rw [on_answer_load, on_answer_exists?, loaded, exists?_of_saved lawful coherent saved]
    exact ⟨rfl, rfl⟩
  unsaved := by
    intro now name unsaved short
    rw [on_answer_load, on_answer_exists?, load_of_unsaved lawful coherent unsaved,
      exists?_of_unsaved lawful coherent unsaved, absence]
    cases named : name.isModelName with
    | false => exact ⟨⟨_, rfl, rfl⟩, rfl⟩
    | true =>
        rw [short named]
        exact ⟨⟨_, rfl, rfl⟩, rfl⟩
  beyond := by
    intro now name named beyond
    have unsaved : Keyed.get? saves name = none := by
      cases saved : Keyed.get? saves name with
      | none => rfl
      | some definition =>
          rw [lawful.short coherent.holds (by rw [saved]; rfl)] at beyond
          cases beyond
    rw [on_answer_load, on_answer_exists?, load_of_unsaved lawful coherent unsaved,
      exists?_of_unsaved lawful coherent unsaved, absence, named, beyond]
    exact ⟨unsaved, rfl, rfl⟩
  listed := by
    intro now
    obtain ⟨names, after, listed, -, distinct, same⟩ := on_list lawful coherent now
    have members := fun name => (Text.perm_sorted names).mem_iff.trans (same name)
    refine ⟨(Text.sorted names).filterMap (Keyed.get? saves), ?_, ?_, fun name => ?_⟩
    · rw [answer, Operation.on_map, listed]
      rfl
    · rw [map_name_filterMap_get? coherent.stored fun name member => (members name).mp member]
      exact Text.pairwise_sorted names
    · exact filter_filterMap_of_nodup coherent.stored
        ((Text.perm_sorted names).nodup_iff.mpr distinct) members name

/-! ## Memory and directories -/

/-- The store in memory or the one in a directory. -/
def eitherStore : DefinitionStore (MemoryDefinitions ⊕ Directory) :=
  .sum MemoryDefinitions.store Directory.store

/-- No model has a document yet.  A directory may be missing, and may have other files. -/
def NoDocuments : MemoryDefinitions ⊕ Directory → Prop
  | .inl documents => documents = []
  | .inr directory => (Keyed.names directory.files).Nodup ∧ directory.modelNames = []

/-- The names that are too long to be looked for; for memory there are none. -/
def isTooLong : MemoryDefinitions ⊕ Directory → Text → Bool :=
  Sum.elim (fun _ _ => false) fun directory name => directory.isBeyond (Directory.fileName name)

/-- Both stores keep definitions as a table does, and so the one that is either of them. -/
theorem lawful_either :
    eitherStore.Lawful (DefinitionStore.HoldsEither MemoryDefinitions.Holds Directory.Holds)
      isTooLong :=
  DefinitionStore.lawful_sum MemoryDefinitions.lawful Directory.lawful

/-- A registry on an empty store is coherent with the empty table. -/
theorem coherent_empty {initial : MemoryDefinitions ⊕ Directory} (empty : NoDocuments initial) :
    Coherent (DefinitionStore.HoldsEither MemoryDefinitions.Holds Directory.Holds)
      (ofStore initial) [] := by
  refine coherent_ofStore ?_
  cases initial with
  | inl documents =>
      cases empty
      exact MemoryDefinitions.holds_nil
  | inr directory => exact Directory.holds_empty empty.1 empty.2

/-- **After every run of calls on an empty store, the registry answers from the last saves.** -/
theorem last_saves_answered {initial : MemoryDefinitions ⊕ Directory} (empty : NoDocuments initial)
    {calls : List (Instant × RegistryCall)}
    (sound : SoundRun eitherStore (ofStore initial, []) calls) :
    let reached := followed eitherStore (ofStore initial, []) calls
    AnswersFrom eitherStore isTooLong reached.1 reached.2 :=
  (coherent_followed lawful_either (coherent_empty empty) sound).answersFrom lawful_either

end Registry

/-! ## Two runs -/

namespace Registry

/-- Noon of the first day of 2024. -/
def noon : Instant := ⟨63839707200000000, by decide⟩

/-- A run that saves the definition of notes and drops it from the cache. -/
def noteCalls : List (Instant × RegistryCall) :=
  [(noon, .save noteDefinition .null), (noon, .invalidate "note")]

/-- A definition that was dropped from the cache is loaded from its file as it was saved. -/
theorem note_loaded_from_file :
    let reached := followed eitherStore (ofStore (.inr none), []) noteCalls
    Keyed.get? reached.1.cache "note" = none ∧
      ((answer eitherStore noon (.load "note")).on reached.1).1 =
        .ok (.definition (noteDefinition.withStamps (some noon) (some noon))) := by
  have year : 1000 ≤ noon.year := by decide
  have sound : SoundRun eitherStore (ofStore (.inr none), []) noteCalls :=
    ⟨year, ⟨⟨noteDefinition.toDocument, rfl⟩, fun _ => isPlain_noteDefinition, .null, rfl⟩, year,
      trivial, trivial⟩
  have empty : NoDocuments (.inr none) := ⟨.nil, rfl⟩
  have saved : Keyed.get? (followed eitherStore (ofStore (.inr none), []) noteCalls).2 "note" =
      some (noteDefinition.withStamps (some noon) (some noon)) := by decide +kernel
  exact ⟨by decide +kernel, ((last_saves_answered empty sound).saved noon "note" _ saved).1⟩

/-- A definition whose name has 251 letters, one more than fits beside the ending of a file. -/
def longNamed : Definition := { noteDefinition with name := List.replicate 251 (.ofChar 'a') }

/-- A list in a list, as deep as is asked for; there is no copy of a deep one. -/
def nested : Nat → Value
  | 0 => .null
  | depth + 1 => .list [nested depth]

set_option maxRecDepth 20000 in
/-- Without two exceptions the table is not what the registry answers from.  After a save under a
name that is too long for a file, looking for that name is a fault rather than a refusal; and a
save by an actor of whom there is no copy ends with a fault after the definition was stored. -/
theorem long_name_not_refused :
    (Definition.ofDocument longNamed.toDocument = .ok longNamed ∧
      let reached := followed eitherStore (ofStore (.inr none), [])
        [(noon, .save longNamed .null)]
      Keyed.get? reached.2 longNamed.name = none ∧
        ((answer eitherStore noon (.load (.text longNamed.name))).on reached.1).1 =
          .error .longName ∧
        ((answer eitherStore noon (.exists? (.text longNamed.name))).on reached.1).1 =
          .error .longName) ∧
    Definition.ofDocument noteDefinition.toDocument = .ok noteDefinition ∧
      let reached := followed eitherStore (ofStore (.inl []), [])
        [(noon, .save noteDefinition (nested 600))]
      Keyed.get? reached.2 "note" = none ∧
        ((answer eitherStore noon (.load "note")).on reached.1).1 =
          .ok (.definition (noteDefinition.withStamps (some noon) (some noon))) ∧
        ((answer eitherStore noon (.exists? "note")).on reached.1).1 = .ok (.truth true) :=
  ⟨⟨rfl, rfl, rfl, rfl⟩, rfl, rfl, rfl, rfl⟩

end Registry

end GovernedRecords
