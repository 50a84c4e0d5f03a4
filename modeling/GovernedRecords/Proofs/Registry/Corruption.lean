import GovernedRecords.Proofs.Definition.Range
import GovernedRecords.Proofs.Registry.LastSaves
import GovernedRecords.Proofs.Registry.Outcomes

/-!
# Corrupt documents

Documents are written behind a registry: any values in memory, any bytes in the files of a
directory.  Whatever is stored under a name, loading the name gives a definition, or refuses it
as a model that is not there or as a corrupt one; the list passes over what is refused; and a
save repairs it (`corruption_contained`).

That is so within limits.  A timestamp beyond the years 1 to 9999, a default or a key of the
grants without a text, a document nested too deeply to be copied or read, and a name or path too
long for a file end a load with another fault, and then the list and the save end with it as well
(`overflow_not_contained`).  The save needs an instant after the last change of the definition that
it replaces, room for its file, texts that have bytes and an actor of whom there is a copy.
-/

set_option autoImplicit false

namespace GovernedRecords.Registry

variable [Host] {σ : Type} {store : DefinitionStore σ}
  {content : σ → Text → Except Fault (Option Value)} {registry : Registry σ} {now : Instant}

/-! ## What is under a name -/

/-- What is under a name is nothing, a document within the calendar whose parts have texts, or
unreadable. -/
def Legible : Except Fault (Option Value) → Prop
  | .ok none => True
  | .ok (some document) => document.InCalendar ∧ document.HasTexts
  | .error fault => fault.isUnreadable = true

/-- How a name is loaded, given what is under it: as a definition, or it is refused, because
nothing is there or because what is there is corrupt. -/
inductive Loading (name : Text) : Except Fault (Option Value) → Except Fault Definition → Prop where
  | loaded {document : Value} {definition : Definition} :
      Loading name (.ok (some document)) (.ok definition)
  | missing : Loading name (.ok none) (.error (.refused (notFound name)))
  | corrupt {found : Except Fault (Option Value)} (there : found ≠ .ok none) (reason : Text) :
      Loading name found (.error (.refused (corrupt name reason)))

theorem loading_checked {document : Value} (within : document.InCalendar)
    (texts : document.HasTexts) (now : Instant) (name : Text) :
    Loading name (.ok (some document)) (checked now name document) := by
  rw [checked]
  rcases Definition.ofDocument_cases within texts with ⟨definition, read⟩ | ⟨problems, read⟩
  · obtain ⟨problems, judged⟩ := Definition.exists_problems now (within.defaults definition read)
    simp only [read, judged]
    split
    · exact .loaded
    · exact .corrupt (by simp) _
  · simp only [read]
    exact .corrupt (by simp) _

/-- **What is legible is loaded, missing or corrupt.** -/
theorem loading_of_legible (now : Instant) {name : Text} (named : name.isModelName = true)
    {found : Except Fault (Option Value)} (legible : Legible found) :
    Loading name found (loadOf now name found) := by
  rw [loadOf, if_pos named]
  cases found with
  | error fault =>
      have unreadable : fault.isUnreadable = true := legible
      rw [readOf, if_pos unreadable]
      exact .corrupt (by simp) _
  | ok document =>
      cases document with
      | none => exact .missing
      | some document => exact loading_checked legible.1 legible.2 now name

/-- A name that is loaded in one of these ways, or is no model name, is passed over when it is not
loaded. -/
theorem isSkipped_of_legible (reads : store.ReadsAs content) {name : Text}
    (legible : name.isModelName = true → Legible (content registry.store name)) {fault : Fault}
    (failed : ((load store now name).on registry).1 = .error fault) : isSkipped fault = true := by
  rw [on_load_fst reads] at failed
  cases cached : Keyed.get? registry.cache name with
  | some definition =>
      rw [cached] at failed
      cases failed
  | none =>
      rw [cached] at failed
      cases named : name.isModelName with
      | true =>
          have ended := loading_of_legible now named (legible named)
          simp only at failed
          rw [failed] at ended
          generalize content registry.store name = found at ended
          cases ended with
          | missing => rfl
          | corrupt => rfl
      | false =>
          simp only [loadOf, named] at failed
          cases failed
          rfl

/-! ## The list -/

/-- The list has what the names are loaded as, without those that are passed over. -/
theorem on_loadAll (reads : store.ReadsAs content) {names : List Text}
    (legible : ∀ name ∈ names, name.isModelName = true →
      Legible (content registry.store name)) :
    ((loadAll store now names).on registry).1 =
      .ok (names.filterMap fun name => ((load store now name).on registry).1.toOption) := by
  induction names generalizing registry with
  | nil => rfl
  | cons name rest ih =>
      rw [List.forall_mem_cons] at legible
      have same := sameAnswers_load reads now name registry
      have skipped : ∀ fault, ((load store now name).on registry).1 = .error fault →
          isSkipped fault = true := fun _ => isSkipped_of_legible reads legible.1
      rw [loadAll, Operation.on_bind, Operation.on_attempt, List.filterMap_cons]
      cases loaded : (load store now name).on registry with
      | mk result between =>
          rw [loaded] at same skipped
          -- The rest of the list is loaded as it would have been before.
          have others := @ih between (same.documents ▸ legible.2)
          simp only [same.loads] at others
          cases result with
          | ok definition =>
              simp only [Except.toOption, Operation.on_bind]
              cases rested : (loadAll store now rest).on between with
              | mk listed after =>
                  rw [rested] at others
                  cases others
                  rfl
          | error fault =>
              simp only [skipped fault rfl, if_true, Except.toOption]
              exact others

/-! ## The save -/

omit [Host] in
theorem exists_nextStamp {previous : Option Instant}
    (advances : ∀ stamp, previous = some stamp → (stamp.advance? 1).isSome) :
    ∃ stamp, nextStamp now previous = .ok stamp := by
  cases previous with
  | none => exact ⟨now, rfl⟩
  | some earlier =>
      obtain ⟨next, advanced⟩ := Option.isSome_iff_exists.mp (advances earlier rfl)
      rw [nextStamp, advanced]
      split
      · exact ⟨next, rfl⟩
      · exact ⟨now, rfl⟩

/-- What is legible is replaced as the definition that it is loaded as, or as none. -/
theorem exists_previous? (reads : store.ReadsAs content) (now : Instant) {name : Text}
    (legible : name.isModelName = true → Legible (content registry.store name)) :
    ∃ previous, ((previous? store now name).on registry).1 = .ok previous ∧
      ∀ definition, previous = some definition →
        ((load store now name).on registry).1 = .ok definition := by
  rw [on_previous?]
  cases loaded : ((load store now name).on registry).1 with
  | ok definition =>
      refine ⟨some definition, rfl, fun other same => ?_⟩
      cases same
      rfl
  | error fault =>
      simp only [isSkipped_of_legible reads legible loaded, if_true]
      refine ⟨none, rfl, fun definition same => ?_⟩
      cases same

/-- **A save repairs what is under its name**, if the store writes its document and there is an
instant after the last change: it succeeds, and then the definition that it returns is loaded. -/
theorem saved_of_legible (reads : store.ReadsAs content) {definition : Definition}
    {actor shown : Value} (clean : definition.problems now = .ok []) (plain : definition.IsPlain)
    (copied : shownActor actor = .ok shown)
    (legible : Legible (content registry.store definition.name))
    (advances : ∀ previous stamp, ((load store now definition.name).on registry).1 = .ok previous →
      previous.updatedAt = some stamp → (stamp.advance? 1).isSome)
    (writes : ∀ createdAt updatedAt, ∃ state, (store.write now definition.name
      (definition.withStamps createdAt updatedAt).toDocument).on registry.store =
        (.ok (), state)) :
    ∃ createdAt updatedAt after, (save store now definition actor).on registry =
        (.ok (definition.withStamps createdAt updatedAt), after) ∧
      ∀ later, ((load store later definition.name).on after).1 =
        .ok (definition.withStamps createdAt updatedAt) := by
  have same := sameAnswers_load reads now definition.name registry
  obtain ⟨previous, told, loads⟩ :=
    exists_previous? reads now fun _ => legible
  obtain ⟨stamp, stamped⟩ : ∃ stamp, nextStamp now (previous.bind Definition.updatedAt) =
      .ok stamp := by
    refine exists_nextStamp fun stamp given => ?_
    obtain ⟨found, same, updated⟩ := Option.bind_eq_some_iff.mp given
    exact advances found stamp (loads found same) updated
  have ended := saving store now definition actor registry
  generalize (save store now definition actor).on registry = outcome at ended ⊢
  cases ended with
  | refused unclean => exact absurd clean unclean
  | unloaded failed => cases told.symm.trans failed
  | unstamped found failed =>
      cases told.symm.trans found
      cases stamped.symm.trans failed
  | unwritten _ _ _ failed =>
      obtain ⟨state, done⟩ := writes _ _
      rw [same.documents] at failed
      cases failed.symm.trans done
  | written =>
      obtain ⟨hash, noted⟩ := exists_recorded (plain.stampedAfter _ _) copied
      refine ⟨_, _, _, noted, fun later => ?_⟩
      rw [load_of_cached store later (Keyed.get?_put_self _ _ _)]
      rfl

/-! ## Memory and directories -/

/-- What is under a name, in memory or in a directory. -/
def underName : MemoryDefinitions ⊕ Directory → Text → Except Fault (Option Value) :=
  Sum.elim (fun documents name => (MemoryDefinitions.document? documents name).mapM Value.copy)
    fun directory name => Directory.read name directory

theorem reads_either : eitherStore.ReadsAs underName := by
  rintro name (documents | directory) <;> rfl

/-- The names that have a document or a file, in ascending order. -/
def namesOf : MemoryDefinitions ⊕ Directory → List Text :=
  Sum.elim (fun documents => Text.sorted (Keyed.names documents)) Directory.modelNames

/-- What is under a name lies within the limits: the name is not too long, what is there is not
nested too deeply to be copied from memory or read from a file, and a document has no timestamp
beyond the calendar and no part that needs a text and has none. -/
structure WithinLimits (state : MemoryDefinitions ⊕ Directory) (name : Text) : Prop where
  short : isTooLong state name = false
  shallow : underName state name ≠ .error .tooDeep
  calendar : ∀ document, underName state name = .ok (some document) → document.InCalendar
  texts : ∀ document, underName state name = .ok (some document) → document.HasTexts

/-- A file holds a document, or is unreadable, or is nested too deeply. -/
theorem isUnreadable_of_document {file : Text} {octets : List Octet} {fault : Fault}
    (failed : Directory.document file octets = .error fault) (shallow : fault ≠ .tooDeep) :
    fault.isUnreadable = true := by
  rw [Directory.document] at failed
  split at failed
  · cases failed
    rfl
  · split at failed
    · cases failed
      rfl
    · next cause _ _ =>
        cases cause with
        | malformed => cases failed; rfl
        | tooDeep => cases failed; exact absurd rfl shallow
        | tooManyDigits count => cases failed; rfl
    · cases failed
    · cases failed
      rfl

theorem WithinLimits.legible {state : MemoryDefinitions ⊕ Directory} {name : Text}
    (limits : WithinLimits state name) (named : name.isModelName = true) :
    Legible (underName state name) := by
  cases found : underName state name with
  | ok document =>
      cases document with
      | none => trivial
      | some document => exact ⟨limits.calendar document found, limits.texts document found⟩
  | error fault =>
      cases state with
      | inl documents =>
          have read : (MemoryDefinitions.document? documents name).mapM Value.copy = .error fault :=
            found
          cases stored : MemoryDefinitions.document? documents name with
          | none =>
              rw [stored] at read
              cases read
          | some document =>
              cases copied : document.copy with
              | ok copy =>
                  rw [stored, Option.mapM_some, copied] at read
                  cases read
              | error cause =>
                  rw [stored, Option.mapM_some, copied] at read
                  cases read
                  cases Value.eq_tooDeep_of_copy copied
                  exact absurd found limits.shallow
      | inr directory =>
          have short : directory.isBeyond (Directory.fileName name) = false := limits.short
          have read : Directory.read name directory = .error fault := found
          simp only [Directory.read, named, short, if_true, Bool.false_eq_true, if_false] at read
          split at read
          · cases read
          · next octets _ =>
              cases opened : Directory.document (Directory.fileName name) octets with
              | ok document =>
                  rw [opened] at read
                  cases read
              | error cause =>
                  rw [opened] at read
                  cases read
                  exact isUnreadable_of_document opened fun deep => limits.shallow (deep ▸ found)

/-- There is room for the name and the path of the file beside that of a model. -/
def HasRoom : MemoryDefinitions ⊕ Directory → Text → Prop :=
  Sum.elim (fun _ _ => True) fun _ name => Directory.hasRoomBeside name = true

theorem exists_write {state : MemoryDefinitions ⊕ Directory} (now : Instant)
    (definition : Definition) (named : definition.name.isModelName = true)
    (plain : definition.IsPlain) (room : HasRoom state definition.name) :
    ∃ after, (eitherStore.write now definition.name definition.toDocument).on state =
      (.ok (), after) := by
  cases state with
  | inl documents =>
      refine ⟨.inl (Keyed.put definition.name definition.toDocument documents), ?_⟩
      simp [eitherStore, DefinitionStore.sum, DefinitionStore.either, MemoryDefinitions.store,
        named, Definition.copy_toDocument]
  | inr directory =>
      obtain ⟨octets, written, -⟩ := Directory.exists_contents plain
      have beside : Directory.hasRoomBeside definition.name = true := room
      refine ⟨.inr (directory.putFile (Directory.fileName definition.name) octets), ?_⟩
      simp [eitherStore, DefinitionStore.sum, DefinitionStore.either, Directory.store,
        Directory.write_eq, named, beside, written]

/-- A registry gets along with whatever is in its store within the limits. -/
structure Contained (registry : Registry (MemoryDefinitions ⊕ Directory)) : Prop where
  /-- A model name that is not in the cache is loaded as a definition, or it is refused: as a
  model that is not there exactly when nothing is under the name, and else as corrupt. -/
  loads : ∀ (now : Instant) (name : Text), name.isModelName = true →
    WithinLimits registry.store name → Keyed.get? registry.cache name = none →
      let outcome := ((load eitherStore now name).on registry).1
      ((∃ definition, outcome = .ok definition) ∨ outcome = .error (.refused (notFound name)) ∨
          ∃ reason, outcome = .error (.refused (corrupt name reason))) ∧
        (outcome = .error (.refused (notFound name)) ↔ underName registry.store name = .ok none)
  /-- The list has exactly the definitions that are loaded under the names of the store, once
  each and in ascending order of their names. -/
  lists : ∀ now : Instant,
    (∀ name ∈ namesOf registry.store, name.isModelName = true →
      WithinLimits registry.store name) →
      ∃ definitions, ((list eitherStore now).on registry).1 = .ok definitions ∧
        ((definitions.map Definition.name).Pairwise fun first second =>
          Text.le first second = true ∧ first ≠ second) ∧
        ∀ definition, definition ∈ definitions ↔ ∃ name ∈ namesOf registry.store,
          ((load eitherStore now name).on registry).1 = .ok definition
  /-- A save of a definition without problems succeeds, and what it returns is then loaded. -/
  saves : ∀ (now : Instant) (definition : Definition) (actor shown : Value),
    definition.problems now = .ok [] → definition.IsPlain → shownActor actor = .ok shown →
    WithinLimits registry.store definition.name → HasRoom registry.store definition.name →
    (∀ previous stamp, ((load eitherStore now definition.name).on registry).1 = .ok previous →
      previous.updatedAt = some stamp → (stamp.advance? 1).isSome) →
      ∃ createdAt updatedAt after, (save eitherStore now definition actor).on registry =
          (.ok (definition.withStamps createdAt updatedAt), after) ∧
        ∀ later, ((load eitherStore later definition.name).on after).1 =
          .ok (definition.withStamps createdAt updatedAt)

/-- Every name has one document, or one file. -/
def DistinctNames : MemoryDefinitions ⊕ Directory → Prop :=
  Sum.elim (fun documents => (Keyed.names documents).Nodup)
    fun directory => (Keyed.names directory.files).Nodup

omit [Host] in
/-- The names of a store ascend. -/
theorem pairwise_namesOf {state : MemoryDefinitions ⊕ Directory} (distinct : DistinctNames state) :
    (namesOf state).Pairwise fun first second => Text.le first second = true ∧ first ≠ second := by
  have ascending : ∀ names : List Text, names.Nodup → (Text.sorted names).Pairwise
      fun first second => Text.le first second = true ∧ first ≠ second := fun names nodup =>
    (Text.pairwise_sorted names).and ((Text.perm_sorted names).nodup_iff.mpr nodup)
  cases state with
  | inl documents => exact ascending _ distinct
  | inr directory => exact ascending _ (Directory.nodup_modelOf? distinct)

theorem loaded_within {registry : Registry (MemoryDefinitions ⊕ Directory)} {name : Text}
    (model : name.isModelName = true) (limits : WithinLimits registry.store name)
    (uncached : Keyed.get? registry.cache name = none) :
    Loading name (underName registry.store name) ((load eitherStore now name).on registry).1 := by
  rw [on_load_fst reads_either, uncached]
  exact loading_of_legible now model (limits.legible model)

theorem listed_within {registry : Registry (MemoryDefinitions ⊕ Directory)}
    (limits : ∀ name ∈ namesOf registry.store, name.isModelName = true →
      WithinLimits registry.store name) :
    ((list eitherStore now).on registry).1 =
      .ok ((namesOf registry.store).filterMap fun name =>
        ((load eitherStore now name).on registry).1.toOption) := by
  have names : (onStore eitherStore.names).on registry =
      (.ok (namesOf registry.store), registry) := by
    obtain ⟨documents | directory, _, _, _⟩ := registry <;> rfl
  rw [list, Operation.on_bind_of_ok names]
  exact on_loadAll reads_either fun name member model => (limits name member model).legible model

/-- **Corruption is contained.**  Whatever is in the store of a registry that keeps definitions
under their own names, it is contained, within the limits. -/
theorem corruption_contained {registry : Registry (MemoryDefinitions ⊕ Directory)}
    (named : CacheNamed registry) (distinct : DistinctNames registry.store) :
    Contained registry where
  loads := by
    intro now name model limits uncached outcome
    have ended : Loading name _ outcome := loaded_within model limits uncached
    generalize underName registry.store name = found at ended ⊢
    generalize outcome = result at ended ⊢
    cases ended with
    | loaded => exact ⟨.inl ⟨_, rfl⟩, by simp⟩
    | missing => exact ⟨.inr (.inl rfl), by simp⟩
    | corrupt there reason => exact ⟨.inr (.inr ⟨reason, rfl⟩), by simp [corrupt, notFound, there]⟩
  lists := by
    intro now limits
    have loaded : ∀ name definition,
        ((load eitherStore now name).on registry).1.toOption = some definition ↔
          ((load eitherStore now name).on registry).1 = .ok definition := by
      intro name definition
      cases ((load eitherStore now name).on registry).1 <;> simp [Except.toOption]
    refine ⟨_, listed_within limits, ?_, fun definition => ?_⟩
    · rw [List.pairwise_map, List.pairwise_filterMap]
      refine (pairwise_namesOf distinct).imp fun {first second} ascends => ?_
      intro former foundFirst latter foundSecond
      have ensured := ensures_load eitherStore now
      rw [(ensured first registry named).2 former ((loaded _ _).mp foundFirst),
        (ensured second registry named).2 latter ((loaded _ _).mp foundSecond)]
      exact ascends
    · simp only [List.mem_filterMap, loaded]
  saves := by
    intro now definition actor shown clean plain copied limits room advances
    have model := (Definition.wellFormed_of_problems clean).named
    exact saved_of_legible reads_either clean plain copied (limits.legible model) advances
      fun createdAt updatedAt => exists_write now (definition.withStamps createdAt updatedAt) model
        (plain.withStamps createdAt updatedAt) room

end GovernedRecords.Registry

/-! ## Corrupt notes -/

namespace GovernedRecords.Registry

/-- A text where the document of notes should be is no hindrance: it is refused as corrupt and not
listed, and a save of the notes replaces it. -/
theorem corrupt_note_replaced :
    let registry : Registry (MemoryDefinitions ⊕ Directory) :=
      ofStore (.inl [("note", .text "no document")])
    ((load eitherStore noon "note").on registry).1 =
        .error (.refused (corrupt "note" "is invalid")) ∧
      ((list eitherStore noon).on registry).1 = .ok [] ∧
      ∃ createdAt updatedAt after, (save eitherStore noon noteDefinition .null).on registry =
          (.ok (noteDefinition.withStamps createdAt updatedAt), after) ∧
        ∀ later, ((load eitherStore later "note").on after).1 =
          .ok (noteDefinition.withStamps createdAt updatedAt) := by
  intro registry
  have limits : WithinLimits registry.store "note" := by
    refine ⟨rfl, nofun, fun document found => ?_, fun document found => ?_⟩
    · cases found
      refine ⟨fun key _ => nofun, fun definition read => ?_⟩
      cases read
    · cases found
      exact ⟨nofun, nofun⟩
  have refused : ((load eitherStore noon "note").on registry).1 =
      .error (.refused (corrupt "note" "is invalid")) := rfl
  have distinct : DistinctNames registry.store := List.nodup_singleton _
  refine ⟨refused, rfl, (corruption_contained (cacheNamed_ofStore _) distinct).saves noon
    noteDefinition .null .null rfl isPlain_noteDefinition rfl limits trivial
    fun previous _ loaded => ?_⟩
  cases refused.symm.trans loaded

/-- A registry of notes whose document has one more entry, a stamp. -/
def stampedNotes (key stamp : Text) : Registry (MemoryDefinitions ⊕ Directory) :=
  ofStore (.inl [("note", .ofFields (noteDefinition.documentFields ++ [(key, .text stamp)]))])

/-- Beyond the limits corruption is not contained.  A stamp whose offset carries it before the year
1 ends loading, listing and saving; and after the last representable instant there is no other,
so that a definition with that stamp cannot be saved again. -/
theorem overflow_not_contained :
    let early := stampedNotes "createdAt" "0001-01-01T00:00:00+01:00"
    let late := stampedNotes "updatedAt" "9999-12-31T23:59:59.999999Z"
    ((load eitherStore noon "note").on early).1 = .error (.outOfRange .instant) ∧
      ((list eitherStore noon).on early).1 = .error (.outOfRange .instant) ∧
      ((save eitherStore noon noteDefinition .null).on early).1 = .error (.outOfRange .instant) ∧
      ((save eitherStore noon noteDefinition .null).on late).1 = .error (.outOfRange .instant) :=
  ⟨rfl, rfl, rfl, rfl⟩

end GovernedRecords.Registry
