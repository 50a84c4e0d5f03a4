import GovernedRecords.Proofs.Definition.Check
import GovernedRecords.Proofs.Definition.Plain
import GovernedRecords.Proofs.Operation
import GovernedRecords.Proofs.Text.Order
import GovernedRecords.Store.Definitions

/-!
# Stores that keep definitions as a table does

A definition store is compared with a table of definitions under names.  It is lawful when,
as long as its state holds the table, it reads the document of every definition of the table,
writes one more as a table does, removes one as a table does, and lists the names of the table
in ascending order (`DefinitionStore.Lawful`).  A store may find some names too long; it reads
nothing under them, and nothing is ever stored there.

The store in memory is lawful (`MemoryDefinitions.lawful`), and two lawful stores make one that
is lawful on either state (`DefinitionStore.lawful_sum`).
-/

set_option autoImplicit false

namespace GovernedRecords

/-- A definition as it is stored: it passes its check, its document is read back as it is, and it
has both stamps, from the year 1000 on. -/
structure Definition.Stored (definition : Definition) : Prop where
  clean : ∀ now, definition.problems now = .ok []
  readable : definition.Readable
  plain : definition.IsPlain
  created : ∃ instant, definition.createdAt = some instant ∧ 1000 ≤ instant.year
  updated : ∃ instant, definition.updatedAt = some instant ∧ 1000 ≤ instant.year

namespace Definition.Stored

variable {definition : Definition}

theorem named (stored : definition.Stored) : definition.name.isModelName = true :=
  (wellFormed_of_problems (stored.clean ⟨0, by decide⟩)).named

theorem created_year (stored : definition.Stored) (instant : Instant)
    (given : definition.createdAt = some instant) : 1000 ≤ instant.year := by
  obtain ⟨_, found, year⟩ := stored.created
  cases found.symm.trans given
  exact year

theorem updated_year (stored : definition.Stored) (instant : Instant)
    (given : definition.updatedAt = some instant) : 1000 ≤ instant.year := by
  obtain ⟨_, found, year⟩ := stored.updated
  cases found.symm.trans given
  exact year

theorem ofDocument [Host] (stored : definition.Stored) :
    Definition.ofDocument definition.toDocument = .ok definition :=
  ofDocument_toDocument stored.readable stored.created_year stored.updated_year

end Definition.Stored

/-- Every definition of a table is stored, under its own name. -/
def Keyed.AllStored (saves : Keyed Definition) : Prop :=
  ∀ name definition, Keyed.get? saves name = some definition →
    definition.name = name ∧ definition.Stored

namespace DefinitionStore

variable {σ τ : Type}

/-- A store that keeps definitions as a table does, on the states that hold the table; the names
that it finds too long in a state are given. -/
structure Lawful (store : DefinitionStore σ) (holds : σ → Keyed Definition → Prop)
    (tooLong : σ → Text → Bool) : Prop where
  /-- The document of a definition is read under its name. -/
  read : ∀ {state saves name}, holds state saves → saves.AllStored → name.isModelName = true →
    (store.read name).on state =
      (if tooLong state name then .error .longName
       else .ok ((Keyed.get? saves name).map Definition.toDocument), state)
  /-- No name of the table is too long. -/
  short : ∀ {state saves name}, holds state saves → (Keyed.get? saves name).isSome = true →
    tooLong state name = false
  /-- A definition is put into the table, or nothing is. -/
  write : ∀ {state saves definition} (now : Instant), holds state saves → saves.AllStored →
    definition.Stored → ∃ after,
      ((store.write now definition.name definition.toDocument).on state = (.ok (), after) ∧
        holds after (Keyed.put definition.name definition saves)) ∨
      ((store.write now definition.name definition.toDocument).on state =
          (.error .longName, after) ∧
        holds after saves)
  /-- A definition is removed from the table, unless its name is too long. -/
  delete : ∀ {state saves name}, holds state saves → saves.AllStored → name.isModelName = true →
    ∃ after, holds after (Keyed.erase name saves) ∧ (store.delete name).on state =
      (if tooLong state name then .error .longName else .ok (Keyed.get? saves name).isSome, after)
  /-- The names of the table are listed. -/
  names : ∀ {state saves}, holds state saves → saves.AllStored → ∃ names : List Text,
    store.names.on state = (.ok (Text.sorted names), state) ∧ names.Nodup ∧
      ∀ name, name ∈ names ↔ (Keyed.get? saves name).isSome = true

end DefinitionStore

/-! ## Memory -/

namespace MemoryDefinitions

/-- Memory holds the documents of a table of definitions. -/
structure Holds (documents : MemoryDefinitions) (saves : Keyed Definition) : Prop where
  kept : ∀ name, Keyed.get? documents name =
    (Keyed.get? saves name).map Definition.toDocument
  distinct : (Keyed.names documents).Nodup

theorem holds_nil : Holds [] [] := ⟨fun _ => rfl, .nil⟩

theorem lawful [Host] : DefinitionStore.Lawful store Holds fun _ _ => false where
  read := by
    intro documents saves name holds _ _
    have given := holds.kept name
    simp only [store, Operation.on_of, document?, given, Bool.false_eq_true, if_false]
    cases Keyed.get? saves name with
    | none => rfl
    | some definition =>
        simp only [Option.map_some]
        change ((definition.toDocument.copy).map some, documents) = _
        rw [definition.copy_toDocument]
        rfl
  short := fun _ _ => rfl
  write := by
    intro documents saves definition now holds _ stored
    refine ⟨Keyed.put definition.name definition.toDocument documents, .inl ⟨?_, ?_⟩⟩
    · simp only [store, Operation.on_of, stored.named, Definition.copy_toDocument, if_true]
    · refine ⟨fun name => ?_, Keyed.nodup_names_put _ _ holds.distinct⟩
      rw [Keyed.get?_put, Keyed.get?_put, holds.kept name]
      split <;> rfl
  delete := by
    intro documents saves name holds _ _
    refine ⟨Keyed.erase name documents,
      ⟨fun other => ?_, Keyed.nodup_names_erase _ holds.distinct⟩, ?_⟩
    · rw [Keyed.get?_erase, Keyed.get?_erase, holds.kept other]
      split <;> rfl
    · simp only [store, Operation.on_of, delete, Keyed.has_eq_isSome, holds.kept name,
        Option.isSome_map, Bool.false_eq_true, if_false]
  names := by
    intro documents saves holds _
    refine ⟨Keyed.names documents, rfl, holds.distinct, fun name => ?_⟩
    rw [Keyed.mem_names_iff, holds.kept name, Option.isSome_map]

end MemoryDefinitions

/-! ## Either of two stores -/

namespace DefinitionStore

variable {σ τ : Type} {first : DefinitionStore σ} {second : DefinitionStore τ}
  {holdsFirst : σ → Keyed Definition → Prop} {holdsSecond : τ → Keyed Definition → Prop}
  {tooLongFirst : σ → Text → Bool} {tooLongSecond : τ → Text → Bool}

/-- Whichever of two states there is holds a table. -/
def HoldsEither (holdsFirst : σ → Keyed Definition → Prop)
    (holdsSecond : τ → Keyed Definition → Prop) : σ ⊕ τ → Keyed Definition → Prop :=
  Sum.elim holdsFirst holdsSecond

theorem lawful_sum (lawfulFirst : Lawful first holdsFirst tooLongFirst)
    (lawfulSecond : Lawful second holdsSecond tooLongSecond) :
    Lawful (sum first second) (HoldsEither holdsFirst holdsSecond)
      (Sum.elim tooLongFirst tooLongSecond) where
  read := by
    rintro (state | state) saves name holds stored named
    · simp only [sum, either, Operation.on_of, lawfulFirst.read holds stored named]
      rfl
    · simp only [sum, either, Operation.on_of, lawfulSecond.read holds stored named]
      rfl
  short := by
    rintro (state | state) saves name holds there
    · exact lawfulFirst.short holds there
    · exact lawfulSecond.short holds there
  write := by
    rintro (state | state) saves definition now holds stored savable
    · obtain ⟨after, ⟨done, kept⟩ | ⟨done, kept⟩⟩ := lawfulFirst.write now holds stored savable
      · exact ⟨.inl after, .inl ⟨by simp only [sum, either, Operation.on_of, done], kept⟩⟩
      · exact ⟨.inl after, .inr ⟨by simp only [sum, either, Operation.on_of, done], kept⟩⟩
    · obtain ⟨after, ⟨done, kept⟩ | ⟨done, kept⟩⟩ := lawfulSecond.write now holds stored savable
      · exact ⟨.inr after, .inl ⟨by simp only [sum, either, Operation.on_of, done], kept⟩⟩
      · exact ⟨.inr after, .inr ⟨by simp only [sum, either, Operation.on_of, done], kept⟩⟩
  delete := by
    rintro (state | state) saves name holds stored named
    · obtain ⟨after, kept, done⟩ := lawfulFirst.delete holds stored named
      exact ⟨.inl after, kept, by simp only [sum, either, Operation.on_of, done]; rfl⟩
    · obtain ⟨after, kept, done⟩ := lawfulSecond.delete holds stored named
      exact ⟨.inr after, kept, by simp only [sum, either, Operation.on_of, done]; rfl⟩
  names := by
    rintro (state | state) saves holds stored
    · obtain ⟨names, done, distinct, same⟩ := lawfulFirst.names holds stored
      exact ⟨names, by simp only [sum, either, Operation.on_of, done], distinct, same⟩
    · obtain ⟨names, done, distinct, same⟩ := lawfulSecond.names holds stored
      exact ⟨names, by simp only [sum, either, Operation.on_of, done], distinct, same⟩

end DefinitionStore

end GovernedRecords
