import GovernedRecords.Proofs.Definition.Grammar
import GovernedRecords.Proofs.Registry.Corruption
import GovernedRecords.Proofs.Registry.Turns

/-!
# What an update changes

An update writes the definition as a document, changes entries of it, and reads it again.  Four
entries may be changed: the fields, the grants, the table name and the owner field.  What is read
depends on the entries with known keys alone (`ofDocument_congr`), and a stored definition is read
back part by part, so a part whose key is not among the changes is what it was, and one whose key
is there is what its value says (`Amended`).

An update that finds problems changes nothing that can be seen.  Both are said of every registry
that was reached from an empty store (`update_amends`).
-/

set_option autoImplicit false

namespace GovernedRecords

namespace Registry

/-! ## The keys that matter -/

/-- The keys under which a definition is changed. -/
def amendableKeys : List Text := ["fields", "rbac", "tableName", "ownerField"]

/-- The changes under these keys. -/
def amendments (changes : Entries) : Entries :=
  changes.filter fun change => amendableKeys.any fun key => change.1.isText key

theorem get?_amendments {name : Text} (amendable : name ∈ amendableKeys) (changes : Entries) :
    Entries.get? (amendments changes) name = Entries.get? changes name := by
  rw [amendments, Entries.get?, Entries.get?, List.find?_filter]
  congr 2
  funext change
  cases named : change.1.isText name with
  | true => simpa using ⟨name, amendable, named⟩
  | false => simp

theorem nodup_amendments {changes : Entries} (distinct : (changes.map Prod.fst).Nodup) :
    ((amendments changes).map Prod.fst).Nodup :=
  distinct.sublist (List.filter_sublist.map Prod.fst)

theorem get_eq_of_get?_eq {entries others : Entries} {name : Text}
    (same : entries.get? name = others.get? name) : entries.get name = others.get name := by
  rw [Entries.get, Entries.get, same]

/-- A document is read from the entries under its known keys. -/
theorem ofDocument_congr [Host] {entries others : Entries}
    (same : ∀ key ∈ fixedKeys ++ amendableKeys, entries.get key = others.get key) :
    Definition.ofDocument (.object entries) = Definition.ofDocument (.object others) := by
  simp only [fixedKeys, amendableKeys, List.cons_append, List.nil_append, List.forall_mem_cons]
    at same
  obtain ⟨name, created, updated, fields, grants, table, owner, -⟩ := same
  simp only [Definition.ofDocument, Document.readParts, Document.readName, Document.readText,
    Document.readStamp, name, created, updated, fields, grants, table, owner]

/-- Changes under other keys do not matter for what is read. -/
theorem exists_applyChanges_amendments [Host] {changes entries changed : Entries}
    (distinct : (changes.map Prod.fst).Nodup) (done : applyChanges changes entries = .ok changed) :
    ∃ amended, applyChanges (amendments changes) entries = .ok amended ∧
      Definition.ofDocument (.object amended) = Definition.ofDocument (.object changed) := by
  obtain ⟨amended, applied⟩ := exists_applyChanges List.filter_sublist done entries
  refine ⟨amended, applied, ofDocument_congr fun key known => get_eq_of_get?_eq ?_⟩
  by_cases fixed : key ∈ fixedKeys
  · rw [get?_applyChanges_of_fixed applied fixed, get?_applyChanges_of_fixed done fixed]
  · have amendable := (List.mem_append.mp known).resolve_left fixed
    rw [get?_applyChanges (nodup_amendments distinct) applied fixed,
      get?_applyChanges distinct done fixed, get?_amendments amendable]

/-! ## The parts of a definition -/

/-- What a change makes of a part: it stays where there is no change, and else it is what is read
from the value, null meaning that nothing is there. -/
def Amends {α : Type} (reads : Value → α → Prop) (before : α) (change : Option Value) (after : α) :
    Prop :=
  match change with
  | none => after = before
  | some value => reads value after

/-- A part that is read from the entries before and after the changes is amended by the change under
its key, if one value is not read in two ways. -/
theorem amends_of_reads [Host] {α : Type} {reads : Value → α → Prop}
    {changes entries changed : Entries} {name : Text} {before after : α}
    (unique : ∀ {value first second}, reads value first → reads value second → first = second)
    (distinct : (changes.map Prod.fst).Nodup) (done : applyChanges changes entries = .ok changed)
    (free : name ∉ fixedKeys) (old : reads (entries.get name) before)
    (new : reads (changed.get name) after) :
    Amends reads before (Entries.get? changes name) after := by
  rw [get_applyChanges distinct done free] at new
  cases there : Entries.get? changes name with
  | none =>
      rw [there] at new
      exact unique new old
  | some value =>
      rw [there] at new
      exact new

/-- A definition is amended by some changes: it has the name and the stamp of creation that it had,
and each of its other parts is what the changes make of it. -/
structure Amended [Host] (name : Text) (changes : Entries) (current updated : Definition) :
    Prop where
  named : updated.name = name
  created : updated.createdAt = current.createdAt
  fields : Amends (fun value fields => Document.readFields value = .ok ([], fields)) current.fields
    (Entries.get? changes "fields") updated.fields
  grants : Amends (fun value grants => Document.readGrants value = .ok ([], grants)) current.grants
    (Entries.get? changes "rbac") updated.grants
  tableName : Amends Document.TextOf current.tableName (Entries.get? changes "tableName")
    updated.tableName
  ownerField : Amends Document.TextOf current.ownerField (Entries.get? changes "ownerField")
    updated.ownerField

/-- What is read from the changed document of a stored definition is that definition, amended. -/
theorem amended_of_changed [Host] {current parsed : Definition} {changes changed : Entries}
    (stored : current.Stored) (distinct : (changes.map Prod.fst).Nodup)
    (done : applyChanges changes (current.toDocument.asObject?.getD []) = .ok changed)
    (read : Definition.ofDocument (.object changed) = .ok parsed) (stamp : Option Instant) :
    Amended current.name changes current (parsed.withStamps current.createdAt stamp) := by
  obtain ⟨entries, same, oldParts⟩ := Definition.ofDocument_eq_ok_iff.mp stored.ofDocument
  obtain ⟨_, ⟨⟩, newParts⟩ := Definition.ofDocument_eq_ok_iff.mp read
  obtain ⟨-, oldFields, oldGrants, oldTable, oldOwner, -, -⟩ :=
    Document.readParts_eq_ok_iff.mp oldParts
  obtain ⟨-, newFields, newGrants, newTable, newOwner, -, -⟩ :=
    Document.readParts_eq_ok_iff.mp newParts
  have named := name_of_changed done read
  rw [same] at done
  have once : ∀ {α : Type} {reading : Except TextError (Reading α)}
      {first second : α},
      reading = .ok ([], first) → reading = .ok ([], second) → first = second :=
    fun old new => (Prod.ext_iff.mp (Except.ok.inj (old.symm.trans new))).2
  exact ⟨named, rfl, amends_of_reads once distinct done (by decide) oldFields newFields,
    amends_of_reads once distinct done (by decide) oldGrants newGrants,
    amends_of_reads Document.TextOf.unique distinct done (by decide)
      (Document.textOf_of_readText oldTable) (Document.textOf_of_readText newTable),
    amends_of_reads Document.TextOf.unique distinct done (by decide)
      (Document.textOf_of_readText oldOwner) (Document.textOf_of_readText newOwner)⟩

/-! ## One update -/

section Update

variable [Host] {σ : Type} {store : DefinitionStore σ} {now : Instant} {name : Text}
  {current : Definition} {changes : Entries} {actor : Value} {registry between after : Registry σ}

/-- **Changes under other keys do not matter for an update**, once they can be applied. -/
theorem on_update_amendments (loaded : (load store now name).on registry = (.ok current, between))
    (distinct : (changes.map Prod.fst).Nodup) {changed : Entries}
    (done : applyChanges changes (current.toDocument.asObject?.getD []) = .ok changed)
    (actor : Value) :
    (update store now name (.object (amendments changes)) actor).on registry =
      (update store now name (.object changes) actor).on registry := by
  obtain ⟨amended, applied, same⟩ := exists_applyChanges_amendments distinct done
  simp only [update, Operation.on_bind_of_ok loaded, changeEntries_object, Operation.on_bind,
    Operation.on_ofExcept, done, applied, same]

/-- An update that succeeds returns the definition amended. -/
theorem amended_of_update (loaded : (load store now name).on registry = (.ok current, between))
    (named : current.name = name) (stored : current.Stored)
    (distinct : (changes.map Prod.fst).Nodup) {updated : Definition}
    (done : (update store now name (.object changes) actor).on registry = (.ok updated, after)) :
    Amended name changes current updated ∧
      (update store now name (.object (amendments changes)) actor).on registry =
        (.ok updated, after) := by
  have ended := updating loaded (.object changes) actor
  generalize outcome : (update store now name (.object changes) actor).on registry = found
    at ended done
  cases ended with
  | unlisted | unapplied | refused | outOfRange => cases done
  | textless => cases done
  | @saving entries changed parsed given applied read =>
      rw [changeEntries_object] at given
      cases given
      refine ⟨?_, (on_update_amendments loaded distinct applied actor).trans (outcome.trans done)⟩
      obtain ⟨previous, stamp, found, rfl, -⟩ := save_stampedAfter done
      -- The definition before the one that is saved is the one that was changed.
      rw [name_of_changed applied read, named, previous?_of_load (load_again loaded now)] at found
      cases found
      obtain ⟨created, dated, -⟩ := stored.created
      have amended := amended_of_changed stored distinct applied read (some stamp)
      rw [named, dated] at amended
      simpa only [Definition.stampedAfter, Option.bind_some, dated, Option.getD_some]
        using amended

/-- An update that is refused leaves the registry as it is once the definition is loaded. -/
theorem eq_of_update_refused (never : store.NeverRefuses)
    (loaded : (load store now name).on registry = (.ok current, between))
    (named : current.name = name) (distinct : (changes.map Prod.fst).Nodup) {refusal : Refusal}
    (done : (update store now name (.object changes) actor).on registry =
      (.error (.refused refusal), after)) :
    after = between ∧
      (update store now name (.object (amendments changes)) actor).on registry =
        (.error (.refused refusal), after) := by
  have ended := updating loaded (.object changes) actor
  generalize outcome : (update store now name (.object changes) actor).on registry = found
    at ended done
  cases ended with
  | unlisted failed =>
      rw [changeEntries_object] at failed
      cases failed
  | unapplied | outOfRange => cases done
  | @textless _ _ error =>
      obtain ⟨failed, -⟩ := Prod.mk.injEq .. ▸ done
      exact absurd (Except.error.inj failed) (Fault.ofText_ne_refused error refusal)
  | refused given applied =>
      rw [changeEntries_object] at given
      cases given
      cases done
      exact ⟨rfl, (on_update_amendments loaded distinct applied actor).trans outcome⟩
  | @saving entries changed parsed given applied read =>
      rw [changeEntries_object] at given
      cases given
      refine ⟨?_, (on_update_amendments loaded distinct applied actor).trans (outcome.trans done)⟩
      have again : (load store now parsed.name).on between = (.ok current, between) := by
        rw [name_of_changed applied read, named]
        exact load_again loaded now
      exact eq_of_save_refused never again done

end Update

/-! ## Updates after a run -/

/-- No document is refused when it is written, in memory or in a directory. -/
theorem neverRefuses_either [Host] : eitherStore.NeverRefuses := by
  rintro now name document (documents | directory) refusal refused
  · have write : ((eitherStore.write now name document).on (.inl documents)).1 =
        ((MemoryDefinitions.store.write now name document).on documents).1 := rfl
    rw [write] at refused
    simp only [MemoryDefinitions.store, Operation.on_of] at refused
    split at refused
    · split at refused
      · cases refused
      · next failed =>
          cases refused
          cases Value.eq_tooDeep_of_copy failed
    · cases refused
  · have write : ((eitherStore.write now name document).on (.inr directory)).1 =
        (Directory.write name document directory).1 := rfl
    rw [write, Directory.write_eq] at refused
    split at refused
    · split at refused
      · cases refused
      · split at refused
        · cases refused
        · next failed =>
            cases refused
            exact Directory.contents_ne_refused _ _ failed
    · cases refused

/-- **An update changes what it names.**  After every run of calls on an empty store, an update of a
model with changes that are JSON returns the definition that was there, amended by the changes; and
if it is refused, every answer of the registry is what it was, the definition and its history among
them.  Either way changes under other keys do not matter. -/
theorem update_amends [Host] {initial : MemoryDefinitions ⊕ Directory} (empty : NoDocuments initial)
    {calls : List (Instant × RegistryCall)}
    (proper : ProperRun eitherStore (ofStore initial) calls) {asked : Instant} {name : Text}
    {current : Definition}
    (existing : ((load eitherStore asked name).on
      (reached eitherStore (ofStore initial) calls)).1 = .ok current)
    {changes : Entries} (json : (Value.object changes).IsJson) (now : Instant) (actor : Value) :
    let registry := reached eitherStore (ofStore initial) calls
    let outcome := (update eitherStore now name (.object changes) actor).on registry
    let amending := (update eitherStore now name (.object (amendments changes)) actor).on registry
    (∀ updated, outcome.1 = .ok updated →
        Amended name changes current updated ∧ amending = outcome) ∧
      ∀ refusal, outcome.1 = .error (.refused refusal) →
        SameAnswers eitherStore registry outcome.2 ∧
          (∀ later, ((load eitherStore later name).on outcome.2).1 = .ok current) ∧
          amending = outcome := by
  dsimp only
  obtain ⟨saves, coherent⟩ := coherent_reached lawful_either (coherent_empty empty) proper
  generalize reached eitherStore (ofStore initial) calls = registry at existing coherent ⊢
  have saved := saved_of_load lawful_either coherent existing
  obtain ⟨named, stored⟩ := coherent.stored name current saved
  obtain ⟨between, loaded, -⟩ := load_of_saved lawful_either coherent saved now
  have distinct := json.distinct
  generalize ended : (update eitherStore now name (.object changes) actor).on registry = outcome
  obtain ⟨result, after⟩ := outcome
  refine ⟨fun updated done => ?_, fun refusal refused => ?_⟩
  · cases done
    exact amended_of_update loaded named stored distinct ended
  · cases refused
    obtain ⟨rfl, alike⟩ := eq_of_update_refused neverRefuses_either loaded named distinct ended
    have same := sameAnswers_load reads_either now name registry
    rw [loaded] at same
    exact ⟨same, fun later => by rw [load_again loaded later], alike⟩

/-- A registry that has saved the definition of notes. -/
def notesSaved : Registry (MemoryDefinitions ⊕ Directory) :=
  reached eitherStore (ofStore (.inl [])) [(noon, .save noteDefinition .null)]

/-- The definition of notes as it is saved at noon. -/
def storedNotes : Definition := noteDefinition.withStamps (some noon) (some noon)

/-- Changes of the notes: another name, no stamp, a table, no owner field, and a color. -/
def noteChanges : Entries :=
  [(.text "name", .text "memo"), (.text "createdAt", .null), (.text "tableName", .text "notes"),
    (.text "ownerField", .null), (.text "color", .text "red")]

/-- The notes get a table and lose their owner field, and nothing else.  Without fields they are
refused, and stay as they were. -/
theorem notes_amended :
    (∃ updated after,
      (update eitherStore noon "note" (.object noteChanges) "u1").on notesSaved =
          (.ok updated, after) ∧
        updated.createdAt = some noon ∧ updated.fields = storedNotes.fields ∧
        updated.tableName = some ("notes" : Text) ∧ updated.ownerField = none) ∧
      ∃ refusal after,
        (update eitherStore noon "note" (.object [(.text "fields", .null)]) "u1").on notesSaved =
            (.error (.refused refusal), after) ∧
          after.histories = notesSaved.histories ∧
          ∀ later, ((load eitherStore later "note").on after).1 = .ok storedNotes := by
  have year : 1000 ≤ noon.year := by decide
  have proper : ProperRun eitherStore (ofStore (.inl [])) [(noon, .save noteDefinition .null)] :=
    ⟨year, ⟨⟨noteDefinition.toDocument, rfl⟩, fun _ => isPlain_noteDefinition⟩, trivial⟩
  have empty : NoDocuments (.inl []) := rfl
  have cached : Keyed.get? notesSaved.cache "note" = some storedNotes := by decide +kernel
  have loaded := load_of_cached eitherStore noon cached
  have existing : ((load eitherStore noon "note").on notesSaved).1 = .ok storedNotes := by
    rw [loaded]
  have json : (Value.object noteChanges).IsJson := by
    simp [noteChanges, Value.IsJson, Entries.AreJson, Entries.get?_cons, Text.ofString_inj]
  have fieldless : (Value.object [(.text "fields", .null)]).IsJson := by
    simp [Value.IsJson, Entries.AreJson]
  obtain ⟨amends, -⟩ := update_amends empty proper existing json noon "u1"
  obtain ⟨-, refuses⟩ := update_amends empty proper existing fieldless noon "u1"
  rw [← notesSaved] at amends refuses
  constructor
  · have passes : ((update eitherStore noon "note" (.object noteChanges) "u1").on
        notesSaved).1.isOk = true := by decide +kernel
    cases outcome : (update eitherStore noon "note" (.object noteChanges) "u1").on notesSaved with
    | mk result after =>
        rw [outcome] at passes amends
        cases result with
        | error fault => cases passes
        | ok updated =>
            obtain ⟨amended, -⟩ := amends updated rfl
            exact ⟨updated, after, rfl, amended.created, amended.fields,
              amended.tableName.unique (.present (by decide)), amended.ownerField.unique .absent⟩
  · -- Without the entry of its fields the document is no definition.
    have applied : applyChanges [(.text "fields", .null)]
        (storedNotes.toDocument.asObject?.getD []) =
          .ok (Entries.erase "fields" (storedNotes.toDocument.asObject?.getD [])) :=
      applyChanges_cons.mpr ⟨_, (applyChange_free (by decide) .null _).trans (if_pos rfl), rfl⟩
    obtain ⟨problems, read⟩ : ∃ problems, Definition.ofDocument (.object (Entries.erase "fields"
        (storedNotes.toDocument.asObject?.getD []))) = .error (.issues problems) := ⟨_, rfl⟩
    have outcome : (update eitherStore noon "note" (.object [(.text "fields", .null)]) "u1").on
        notesSaved = (.error (.refused (invalid "note" problems)), notesSaved) := by
      rw [update, Operation.on_bind_of_ok loaded]
      simp only [changeEntries_object, Operation.on_bind, Operation.on_ofExcept, applied, read]
      rfl
    rw [outcome] at refuses
    obtain ⟨same, loads, -⟩ := refuses _ rfl
    dsimp only at loads
    exact ⟨_, _, outcome, same.histories, loads⟩

end Registry

end GovernedRecords
