import GovernedRecords.Proofs.Registry.Turns
import Mathlib.Data.List.Chain

/-!
# Versions of a definition

The saves of a name that follow each other without a removal in between are versions of one
definition: each is created when the first one was, and changed later than the one before it,
however the clock of the caller runs.  No definition that is returned was changed before it was
created (`versions_kept`).  The stamps that a saved definition brings along, and those among the
changes of an update, play no part (`turns_withoutStamps`).

A removal by an actor of whom there is no copy takes the definition away and fails.  The next save
then begins anew although no removal succeeded (`failed_removal_begins_anew`).
-/

set_option autoImplicit false

namespace GovernedRecords

namespace Definition

/-- A definition with both stamps that was not changed before it was created. -/
def InOrder (definition : Definition) : Prop :=
  ∃ created updated, definition.createdAt = some created ∧ definition.updatedAt = some updated ∧
    created.microseconds ≤ updated.microseconds

/-- A definition is a later version of another one: created when that one was, and changed
later. -/
def LaterThan (newer older : Definition) : Prop :=
  newer.createdAt = older.createdAt ∧
    ∃ before after, older.updatedAt = some before ∧ newer.updatedAt = some after ∧
      before.microseconds < after.microseconds

theorem LaterThan.trans {newest newer older : Definition} (second : newest.LaterThan newer)
    (first : newer.LaterThan older) : newest.LaterThan older := by
  obtain ⟨created, before, between, was, became, earlier⟩ := first
  obtain ⟨kept, between', after, same, ended, later⟩ := second
  cases became.symm.trans same
  exact ⟨kept.trans created, before, after, was, ended, Nat.lt_trans earlier later⟩

end Definition

/-- How a revision of a name may be followed by the next one: a saved definition only by a later
version of it, or by a removal. -/
def Revision.FollowedBy : Revision → Revision → Prop
  | .saved older, .saved newer => newer.LaterThan older
  | _, _ => True

/-- A document without its stamps, or some changes without theirs. -/
def Value.withoutStamps : Value → Value
  | .object entries => .object (Entries.erase "createdAt" (Entries.erase "updatedAt" entries))
  | other => other

/-- A call without the stamps that it brings along. -/
def RegistryCall.withoutStamps : RegistryCall → RegistryCall
  | .save definition actor => .save (definition.withStamps none none) actor
  | .update name changes actor => .update name changes.withoutStamps actor
  | call => call

/-- A document without its stamps is read as its definition without stamps. -/
theorem Definition.ofDocument_withoutStamps [Host] {document : Value} {definition : Definition}
    (read : ofDocument document = .ok definition) :
    ofDocument document.withoutStamps = .ok (definition.withStamps none none) := by
  obtain ⟨entries, rfl, parts⟩ := ofDocument_eq_ok_iff.mp read
  obtain ⟨name, fields, grants, table, owner, -, -⟩ := Document.readParts_eq_ok_iff.mp parts
  have erased : ∀ key : Text, Entries.get
      (Entries.erase "createdAt" (Entries.erase "updatedAt" entries)) key =
        if "createdAt" = key ∨ "updatedAt" = key then .null else Entries.get entries key := by
    intro key
    simp only [Entries.get, Entries.get?_erase]
    by_cases created : ("createdAt" : Text) = key <;> by_cases updated : ("updatedAt" : Text) = key
      <;> simp [created, updated]
  refine ofDocument_eq_ok_iff.mpr ⟨_, rfl, Document.readParts_eq_ok_iff.mpr ?_⟩
  simp only [Document.readName, Document.readText, Document.readStamp, erased,
    Text.ofString_inj] at name table owner ⊢
  exact ⟨name, fields, grants, table, owner, rfl, rfl⟩

namespace Registry

variable [Host] {σ : Type} {store : DefinitionStore σ} {holds : σ → Keyed Definition → Prop}
  {tooLong : σ → Text → Bool} {registry : Registry σ} {saves : Keyed Definition} {now : Instant}
  {call : RegistryCall}

/-! ## The next stamp -/

omit [Host] in
/-- **The next stamp is later than the one before it**, wherever the clock stands. -/
theorem lt_nextStamp {earlier stamp : Instant} (next : nextStamp now (some earlier) = .ok stamp) :
    earlier.microseconds < stamp.microseconds := by
  simp only [nextStamp] at next
  split at next
  · split at next
    · next later advanced =>
        cases next
        have step := Instant.microseconds_of_advance? advanced
        omega
    · cases next
  · next ahead =>
      cases next
      simpa [Instant.le] using ahead

omit [Host] in
/-- The next definition of a name is a later version of the one that it replaces. -/
theorem IsNext.laterThan {name : Text} {stored current : Definition}
    (next : IsNext saves now name stored) (saved : Keyed.get? saves name = some current)
    (kept : current.Stored) : stored.LaterThan current := by
  obtain ⟨definition, stamp, rfl, stamped⟩ := next.stamped
  obtain ⟨created, given, -⟩ := kept.created
  obtain ⟨updated, changed, -⟩ := kept.updated
  rw [saved, Option.bind_some, changed] at stamped
  refine ⟨?_, updated, stamp, changed, rfl, lt_nextStamp stamped⟩
  simp [Definition.stampedAfter, Definition.withStamps, saved, given]

/-! ## Order -/

/-- No definition of a table was changed before it was created. -/
def AllInOrder (saves : Keyed Definition) : Prop :=
  ∀ name definition, Keyed.get? saves name = some definition → definition.InOrder

omit [Host] in
theorem allInOrder_nil : AllInOrder [] := by
  intro name definition saved
  cases saved

omit [Host] in
/-- The next definition of a name is not changed before it was created. -/
theorem IsNext.inOrder {name : Text} {stored : Definition} (next : IsNext saves now name stored)
    (ordered : AllInOrder saves) : stored.InOrder := by
  obtain ⟨definition, stamp, rfl, stamped⟩ := next.stamped
  cases previous : Keyed.get? saves name with
  | none => exact ⟨stamp, stamp, rfl, rfl, Nat.le_refl _⟩
  | some current =>
      obtain ⟨created, updated, given, changed, before⟩ := ordered name current previous
      rw [previous, Option.bind_some, changed] at stamped
      refine ⟨created, stamp, ?_, rfl, Nat.le_trans before (Nat.le_of_lt (lt_nextStamp stamped))⟩
      simp [Definition.stampedAfter, Definition.withStamps, given]

omit [Host] in
theorem AllInOrder.put (ordered : AllInOrder saves) (name : Text) {stored : Definition}
    (newer : stored.InOrder) : AllInOrder (Keyed.put name stored saves) := by
  intro other definition saved
  rw [Keyed.get?_put] at saved
  split at saved
  · cases saved
    exact newer
  · exact ordered other definition saved

omit [Host] in
theorem AllInOrder.erase (ordered : AllInOrder saves) (name : Text) :
    AllInOrder (Keyed.erase name saves) := by
  intro other definition saved
  rw [Keyed.get?_erase] at saved
  split at saved
  · cases saved
  · exact ordered other definition saved

/-- What a call returns is in order, and so is the table that it leaves. -/
theorem Effect.inOrder {outcome : Except Fault RegistryAnswer × Registry σ}
    (effect : Effect holds registry saves now call outcome) (ordered : AllInOrder saves) :
    (∀ definition ∈ Turn.returned ⟨call, outcome.1⟩, definition.InOrder) ∧
      ∃ next, Coherent holds outcome.2 next ∧ AllInOrder next := by
  cases effect with
  | idle settled _ served =>
      refine ⟨fun definition member => ?_, saves, settled.coherent, ordered⟩
      obtain ⟨name, saved⟩ := served definition member
      exact ordered name definition saved
  | @saved name _ _ _ _ _ _ _ _ next _ settled =>
      have newer := next.inOrder ordered
      exact ⟨List.forall_mem_singleton.mpr newer, _, settled.coherent.record _ _ _ _ _,
        ordered.put name newer⟩
  | @removed name _ _ _ _ _ _ settled =>
      exact ⟨List.forall_mem_nil _, _, settled.coherent.record _ _ _ _ _, ordered.erase name⟩
  | @unrecordedSave name _ _ _ _ _ _ next settled =>
      exact ⟨List.forall_mem_nil _, _, settled.coherent, ordered.put name (next.inOrder ordered)⟩
  | @unrecordedRemoval name _ _ _ _ _ settled =>
      exact ⟨List.forall_mem_nil _, _, settled.coherent, ordered.erase name⟩

/-- **Nothing that a run returns was changed before it was created.** -/
theorem inOrder_turns (lawful : store.Lawful holds tooLong)
    (coherent : Coherent holds registry saves) (ordered : AllInOrder saves)
    {calls : List (Instant × RegistryCall)} (proper : ProperRun store registry calls) :
    ∀ turn ∈ turns store registry calls, ∀ definition ∈ turn.returned, definition.InOrder := by
  induction calls generalizing registry saves with
  | nil => exact List.forall_mem_nil _
  | cons timed rest ih =>
      obtain ⟨year, first, others⟩ := proper
      obtain ⟨returned, next, kept, still⟩ :=
        (effect_answer lawful coherent year first).inOrder ordered
      exact List.forall_mem_cons.mpr ⟨returned, ih kept still others⟩

/-! ## Versions -/

/-- What the table has under a name after a revision of it: the definition that was saved, or a
later version.  After a removal it may have anything. -/
def Fits (saves : Keyed Definition) (name : Text) : Revision → Prop
  | .saved older => ∃ current, Keyed.get? saves name = some current ∧
      (current = older ∨ current.LaterThan older)
  | .removed => True

omit [Host] in
theorem Fits.laterThan {name : Text} {older stored : Definition}
    (fits : Fits saves name (.saved older)) (allStored : saves.AllStored)
    (next : IsNext saves now name stored) : stored.LaterThan older := by
  obtain ⟨current, saved, rfl | later⟩ := fits
  · exact next.laterThan saved (allStored name _ saved).2
  · exact (next.laterThan saved (allStored name _ saved).2).trans later

omit [Host] in
/-- What is not the name of a change still fits. -/
theorem Fits.congr {next : Keyed Definition} {name : Text} {revision : Revision}
    (fits : Fits saves name revision) (same : Keyed.get? next name = Keyed.get? saves name) :
    Fits next name revision := by
  cases revision with
  | saved older =>
      rw [Fits, same]
      exact fits
  | removed => trivial

omit [Host] in
theorem Fits.put {name other : Text} {stored : Definition} {revision : Revision}
    (fits : Fits saves name revision) (allStored : saves.AllStored)
    (next : IsNext saves now other stored) : Fits (Keyed.put other stored saves) name revision := by
  by_cases same : other = name
  · subst same
    cases revision with
    | saved older => exact ⟨stored, Keyed.get?_put_self _ _ _, .inr (fits.laterThan allStored next)⟩
    | removed => trivial
  · exact fits.congr (Keyed.get?_put_of_ne _ _ same)

/-- Of the actor of a removal there is a copy. -/
def RemovalCopied : RegistryCall → Prop
  | .delete _ actor => ∃ shown, shownActor actor = .ok shown
  | _ => True

/-- **A revision of a name follows the one before it**, and fits what it leaves in the table; where
there is none, the one before it still fits. -/
theorem Effect.follows {outcome : Except Fault RegistryAnswer × Registry σ}
    (effect : Effect holds registry saves now call outcome) (copied : RemovalCopied call)
    (allStored : saves.AllStored) {name : Text} {older : Revision} (fits : Fits saves name older) :
    ∃ next, Coherent holds outcome.2 next ∧
      match Turn.revision? name ⟨call, outcome.1⟩ with
      | some newer => older.FollowedBy newer ∧ Fits next name newer
      | none => Fits next name older := by
  cases effect with
  | idle settled unrevised _ =>
      rw [unrevised]
      exact ⟨saves, settled.coherent, fits⟩
  | @saved other _ _ _ stored _ targeted _ _ next _ settled =>
      refine ⟨_, settled.coherent.record _ _ _ _ _, ?_⟩
      rw [Turn.revision?_saved targeted]
      by_cases same : other = name
      · subst same
        rw [if_pos rfl]
        refine ⟨?_, stored, Keyed.get?_put_self _ _ _, .inl rfl⟩
        cases older with
        | saved before => exact fits.laterThan allStored next
        | removed => trivial
      · rw [if_neg same]
        exact fits.put allStored next
  | @removed other _ _ _ targeted _ _ settled =>
      refine ⟨_, settled.coherent.record _ _ _ _ _, ?_⟩
      rw [Turn.revision?_removed targeted]
      by_cases same : other = name
      · rw [if_pos same]
        exact ⟨by cases older <;> trivial, trivial⟩
      · rw [if_neg same]
        exact fits.congr (by rw [Keyed.get?_erase, if_neg same])
  | unrecordedSave _ _ next settled =>
      rw [Turn.revision?_error]
      exact ⟨_, settled.coherent, fits.put allStored next⟩
  | unrecordedRemoval removal uncopied _ =>
      -- Here the name would be gone from the table without a revision that says so.
      subst removal
      obtain ⟨shown, done⟩ := copied
      cases uncopied.symm.trans done

/-- **The revisions of a name follow each other.** -/
theorem revisions_isChain (lawful : store.Lawful holds tooLong)
    (coherent : Coherent holds registry saves) {calls : List (Instant × RegistryCall)}
    (proper : ProperRun store registry calls) (copied : ∀ timed ∈ calls, RemovalCopied timed.2)
    {name : Text} {older : Revision} (fits : Fits saves name older) :
    (older :: revisions name (turns store registry calls)).IsChain Revision.FollowedBy := by
  -- The revision before is carried along, with what it left in the table.
  induction calls generalizing registry saves older with
  | nil => exact .singleton _
  | cons timed rest ih =>
      obtain ⟨year, first, others⟩ := proper
      obtain ⟨shown, later⟩ := List.forall_mem_cons.mp copied
      obtain ⟨next, kept, follows⟩ :=
        (effect_answer lawful coherent year first).follows shown coherent.stored fits
      rw [turns, revisions, List.filterMap_cons]
      split at follows
      · next newer revised =>
          rw [revised]
          exact List.isChain_cons_cons.mpr ⟨follows.1, ih kept others later follows.2⟩
      · next unrevised =>
          rw [unrevised]
          exact ih kept others later follows

/-! ## Stamps that are brought along -/

/-- A change under the key of a stamp changes nothing. -/
theorem applyChanges_erase {key : Text} (stamp : key = "createdAt" ∨ key = "updatedAt")
    (changes entries : Entries) :
    applyChanges (Entries.erase key changes) entries = applyChanges changes entries := by
  simp only [applyChanges, Entries.erase]
  induction changes generalizing entries with
  | nil => rfl
  | cons change rest ih =>
      cases same : change.1.isText key with
      | true =>
          have skipped : applyChange entries change = .ok entries := by
            rw [Value.isText_iff] at same
            rcases stamp with rfl | rfl <;> simp [applyChange, same, Value.asText?]
          rw [List.filter_cons_of_neg (by simp [same]), List.foldlM_cons, skipped]
          exact ih entries
      | false =>
          rw [List.filter_cons_of_pos (by simp [same]), List.foldlM_cons, List.foldlM_cons]
          cases applyChange entries change with
          | error fault => rfl
          | ok changed => exact ih changed

/-- The stamps that a call brings along do not matter. -/
theorem on_answer_withoutStamps (store : DefinitionStore σ) (now : Instant) (call : RegistryCall)
    (registry : Registry σ) :
    (answer store now call.withoutStamps).on registry = (answer store now call).on registry := by
  cases call with
  | update name changes actor =>
      cases changes with
      | object changes =>
          have same : ∀ text, update store now text (Value.withoutStamps (.object changes)) actor =
              update store now text (.object changes) actor := by
            intro text
            have given : ∀ entries : Entries, Operation.ofExcept (changeEntries (.object entries)) =
                (pure entries : Operation (Registry σ) Entries) := by
              intro entries
              rw [changeEntries_object]
              rfl
            simp only [update, Value.withoutStamps, given, pure_bind,
              applyChanges_erase (.inl rfl), applyChanges_erase (.inr rfl)]
          simp only [RegistryCall.withoutStamps, answer, updateValue, same]
      | _ => rfl
  | _ => rfl

/-- **A run answers alike, and reaches the same registry, without the stamps that its calls bring
along.** -/
theorem turns_withoutStamps (store : DefinitionStore σ) (registry : Registry σ)
    (calls : List (Instant × RegistryCall)) :
    let bare := calls.map (Prod.map id RegistryCall.withoutStamps)
    (turns store registry bare).map Turn.answer = (turns store registry calls).map Turn.answer ∧
      reached store registry bare = reached store registry calls := by
  induction calls generalizing registry with
  | nil => exact ⟨rfl, rfl⟩
  | cons timed rest ih =>
      obtain ⟨answers, ends⟩ := ih ((answer store timed.1 timed.2).on registry).2
      simp only [List.map_cons, Prod.map, id, turns, reached, on_answer_withoutStamps]
      exact ⟨congrArg _ answers, ends⟩

/-! ## Runs on an empty store -/

/-- What a run of calls on a registry does to the versions of the definitions. -/
structure VersionsKept (store : DefinitionStore σ) (registry : Registry σ)
    (calls : List (Instant × RegistryCall)) : Prop where
  /-- Of two saves of a name that follow each other without a removal in between, the second one
  returns a later version of what the first one returned. -/
  later : ∀ name before older newer after,
    revisions name (turns store registry calls) = before ++ .saved older :: .saved newer :: after →
      newer.LaterThan older
  /-- No definition that is returned was changed before it was created. -/
  inOrder : ∀ turn ∈ turns store registry calls, ∀ definition ∈ turn.returned, definition.InOrder
  /-- Without the stamps that definitions and changes bring along, every call answers the same, and
  the registry comes to be the same, its store included. -/
  unswayed :
    let bare := calls.map (Prod.map id RegistryCall.withoutStamps)
    (turns store registry bare).map Turn.answer = (turns store registry calls).map Turn.answer ∧
      reached store registry bare = reached store registry calls
  /-- Without its stamps a document is read as its definition without them. -/
  documents : ∀ document definition, Definition.ofDocument document = .ok definition →
    Definition.ofDocument document.withoutStamps = .ok (definition.withStamps none none)

/-- **Every run of calls on an empty store keeps the versions of the definitions**, whatever the
clock does, if there is a copy of the actor of every removal. -/
theorem versions_kept {initial : MemoryDefinitions ⊕ Directory} (empty : NoDocuments initial)
    {calls : List (Instant × RegistryCall)}
    (proper : ProperRun eitherStore (ofStore initial) calls)
    (copied : ∀ timed ∈ calls, RemovalCopied timed.2) :
    VersionsKept eitherStore (ofStore initial) calls where
  later := by
    intro name before older newer after split
    have fits : Fits [] name .removed := trivial
    have chain := revisions_isChain lawful_either (coherent_empty empty) proper copied fits
    rw [split] at chain
    exact (List.isChain_append_cons_cons.mp chain.tail).2.1
  inOrder := inOrder_turns lawful_either (coherent_empty empty) allInOrder_nil proper
  unswayed := turns_withoutStamps eitherStore (ofStore initial) calls
  documents := fun _ _ => Definition.ofDocument_withoutStamps

end Registry

/-! ## Two runs -/

namespace Registry

/-- A microsecond after noon. -/
def afterNoon : Instant := ⟨63839707200000001, by decide⟩

/-- Noon of the second day of 2024. -/
def nextNoon : Instant := ⟨63839793600000000, by decide⟩

/-- A run that saves the definition of notes, drops it from the cache, and saves it again at the
same instant, with stamps of the next day. -/
def standingCalls : List (Instant × RegistryCall) :=
  [(noon, .save noteDefinition .null), (noon, .invalidate "note"),
    (noon, .save (noteDefinition.withStamps (some nextNoon) (some nextNoon)) .null)]

/-- The clock stands still, and the second version is a microsecond later than the first. -/
theorem standing_clock_outrun :
    let older := noteDefinition.withStamps (some noon) (some noon)
    let newer := noteDefinition.withStamps (some noon) (some afterNoon)
    revisions "note" (turns eitherStore (ofStore (.inr none)) standingCalls) =
        [.saved older, .saved newer] ∧ newer.LaterThan older := by
  have empty : NoDocuments (.inr none) := ⟨.nil, rfl⟩
  have year : 1000 ≤ noon.year := by decide
  have plain := isPlain_noteDefinition
  have proper : ProperRun eitherStore (ofStore (.inr none)) standingCalls :=
    ⟨year, ⟨⟨noteDefinition.toDocument, rfl⟩, fun _ => plain⟩, year, trivial, year,
      ⟨⟨(noteDefinition.withStamps (some nextNoon) (some nextNoon)).toDocument, rfl⟩,
        fun _ => plain.withStamps _ _⟩, trivial⟩
  have copied : ∀ timed ∈ standingCalls, RemovalCopied timed.2 := by
    simp [standingCalls, RemovalCopied]
  have revised : revisions "note" (turns eitherStore (ofStore (.inr none)) standingCalls) =
      [.saved (noteDefinition.withStamps (some noon) (some noon)),
        .saved (noteDefinition.withStamps (some noon) (some afterNoon))] := by decide +kernel
  exact ⟨revised, (versions_kept empty proper copied).later "note" [] _ _ [] revised⟩

/-- A removal by an actor of whom there is no copy fails, and still the next save of the name begins
anew. -/
theorem failed_removal_begins_anew :
    let calls : List (Instant × RegistryCall) :=
      [(noon, .save noteDefinition .null), (noon, .delete "note" (nested 600)),
        (nextNoon, .save noteDefinition .null)]
    let older := noteDefinition.withStamps (some noon) (some noon)
    let newer := noteDefinition.withStamps (some nextNoon) (some nextNoon)
    ProperRun eitherStore (ofStore (.inl [])) calls ∧
      revisions "note" (turns eitherStore (ofStore (.inl [])) calls) =
        [.saved older, .saved newer] ∧
      ¬ newer.LaterThan older := by
  have proper : ∀ registry now, Proper eitherStore registry now (.save noteDefinition .null) :=
    fun _ _ => ⟨⟨noteDefinition.toDocument, rfl⟩, fun _ => isPlain_noteDefinition⟩
  have early : 1000 ≤ noon.year := by decide
  have late : 1000 ≤ nextNoon.year := by decide
  refine ⟨⟨early, proper _ _, early, trivial, late, proper _ _, trivial⟩, by decide +kernel, ?_⟩
  rintro ⟨created, -⟩
  cases created

end Registry

end GovernedRecords
