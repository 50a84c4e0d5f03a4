import GovernedRecords.Proofs.Definition.Check
import GovernedRecords.Proofs.Definition.Codec
import GovernedRecords.Proofs.Validation.Limits
import GovernedRecords.Proofs.Value.Texts

/-!
# Documents within the calendar

Whatever is wrong with a document is reported as a problem when it is read or when the definition
it holds is checked, with two exceptions.  A timestamp that its offset carries out of the years 1
to 9999 is no problem of the document: reading or checking ends there without a report.  Such a
timestamp can stand as a stamp or as the default of a date field, and nowhere else
(`Value.InCalendar`).  Nor is it a problem that a default is an integer with more digits than are
written, or that a key among the grants has no text: reading ends there as well
(`Value.HasTexts`).  A document without any of these is always judged (`ofDocument_cases`,
`exists_problems`).
-/

set_option autoImplicit false

namespace GovernedRecords

/-- No stamp of a document, and no default of a date field of its definition, lies beyond the
representable years. -/
structure Value.InCalendar [Host] (document : Value) : Prop where
  stamps : ∀ key ∈ (["createdAt", "updatedAt"] : List Text),
    (Entries.get (document.asObject?.getD []) key).toInstant ≠ .error .outOfRange
  defaults : ∀ definition, Definition.ofDocument document = .ok definition →
    ∀ field ∈ definition.fields, field.type = .date → ∀ default, field.default = some default →
      default.toInstant ≠ .error .outOfRange

/-- The integers that stand for defaults in the fields of a document, and the keys of its grants,
have texts. -/
structure Value.HasTexts [Host] (document : Value) : Prop where
  defaults : ∀ items, Entries.get (document.asObject?.getD []) "fields" = .list items →
    ∀ entries, .object entries ∈ items →
      ∀ integer, Entries.get entries "default" = .int integer → Numeral.isWritten integer = true
  keys : ∀ grants, Entries.get (document.asObject?.getD []) "rbac" = .object grants →
    ∀ entry ∈ grants, ∃ text, entry.1.toText = .ok text

namespace Document

theorem exists_readStamp {entries : Entries} {key : Text}
    (within : (Entries.get entries key).toInstant ≠ .error .outOfRange) :
    ∃ reading, readStamp entries key = .ok reading := by
  rw [readStamp]
  split
  · exact ⟨_, rfl⟩
  · cases read : (Entries.get entries key).toInstant with
    | ok instant => exact ⟨_, rfl⟩
    | error cause =>
        cases cause with
        | outOfRange => exact absurd read within
        | empty => exact ⟨_, rfl⟩
        | kind name => exact ⟨_, rfl⟩
        | iso cause => exact ⟨_, rfl⟩

theorem exists_readDefault {entries : Entries} (path : Text)
    (numeral : ∀ integer, entries.get "default" = .int integer →
      Numeral.isWritten integer = true) :
    ∃ reading, readDefault entries path = .ok reading := by
  rw [readDefault]
  cases given : entries.get "default" with
  | int integer =>
      refine ⟨([], some (Text.ofInt integer)), ?_⟩
      simp only [Numeral.ofInt_of_isWritten (numeral integer given), Except.map]
  | _ => exact ⟨_, rfl⟩

theorem exists_readField {value : Value} (path : Text)
    (numeral : ∀ entries, value = .object entries → ∀ integer,
      Entries.get entries "default" = .int integer → Numeral.isWritten integer = true) :
    ∃ reading, readField value path = .ok reading := by
  unfold readField
  split
  · next entries =>
    split
    · split
      · exact ⟨_, rfl⟩
      · split
        · exact ⟨_, rfl⟩
        · obtain ⟨default, read⟩ :=
            exists_readDefault (fieldPart path "default") (numeral entries rfl)
          exact ⟨_, by rw [read]; rfl⟩
    · exact ⟨_, rfl⟩
  · exact ⟨_, rfl⟩

theorem exists_readFieldsFrom {items : List Value} (index : Nat)
    (numerals : ∀ entries, .object entries ∈ items → ∀ integer,
      Entries.get entries "default" = .int integer → Numeral.isWritten integer = true) :
    ∃ reading, readFieldsFrom index items = .ok reading := by
  induction items generalizing index with
  | nil => exact ⟨_, rfl⟩
  | cons first rest ih =>
      obtain ⟨head, one⟩ :=
        exists_readField (Text.concat ["fields[", Text.ofNat index, "]"])
          fun entries same => numerals entries (same ▸ List.mem_cons_self)
      obtain ⟨tail, others⟩ :=
        ih (index + 1) fun entries member => numerals entries (List.mem_cons_of_mem _ member)
      exact ⟨_, by rw [readFieldsFrom, one, others]; rfl⟩

theorem exists_readGrantsFrom [Host] {entries : List (Value × Value)} (grants : Grants)
    (named : ∀ entry ∈ entries, ∃ text, entry.1.toText = .ok text) :
    ∃ reading, readGrantsFrom grants entries = .ok reading := by
  induction entries generalizing grants with
  | nil => exact ⟨_, rfl⟩
  | cons entry rest ih =>
      obtain ⟨key, value⟩ := entry
      obtain ⟨⟨text, shown⟩, others⟩ := List.forall_mem_cons.mp named
      rw [readGrantsFrom]
      cases Role.ofValue? key with
      | none =>
          obtain ⟨tail, read⟩ := ih grants others
          exact ⟨_, by simp only [shown, read]; rfl⟩
      | some role =>
          cases sequence? value with
          | none =>
              obtain ⟨tail, read⟩ := ih grants others
              exact ⟨_, by simp only [read]; rfl⟩
          | some items =>
              let path := Text.concat ["rbac.", role.name]
              obtain ⟨tail, read⟩ := ih (grants.put role (readActionsFrom path 0 items).2) others
              exact ⟨_, by simp only [path, read]; rfl⟩

theorem exists_readGrants [Host] {value : Value}
    (named : ∀ entries, value = .object entries →
      ∀ entry ∈ entries, ∃ text, entry.1.toText = .ok text) :
    ∃ reading, readGrants value = .ok reading := by
  cases value with
  | object entries => exact exists_readGrantsFrom Grants.empty (named entries rfl)
  | _ => exact ⟨_, rfl⟩

end Document

/-- A document whose stamps lie within the calendar, and whose defaults and keys have texts, is a
definition or has problems. -/
theorem Definition.ofDocument_cases [Host] {document : Value} (within : document.InCalendar)
    (texts : document.HasTexts) :
    (∃ definition, ofDocument document = .ok definition) ∨
      ∃ problems, ofDocument document = .error (.issues problems) := by
  cases document with
  | object entries =>
      have stamps : ∀ key ∈ (["createdAt", "updatedAt"] : List Text),
          (Entries.get entries key).toInstant ≠ .error .outOfRange := within.stamps
      simp only [List.forall_mem_cons] at stamps
      obtain ⟨created, readCreated⟩ := Document.exists_readStamp stamps.1
      obtain ⟨updated, readUpdated⟩ := Document.exists_readStamp stamps.2.1
      obtain ⟨fields, readFields⟩ :
          ∃ fields, Document.readFields (Entries.get entries "fields") = .ok fields := by
        cases listed : Entries.get entries "fields" with
        | list items => exact Document.exists_readFieldsFrom 0 (texts.defaults items listed)
        | _ => exact ⟨_, rfl⟩
      obtain ⟨grants, readGrants⟩ :
          ∃ grants, Document.readGrants (Entries.get entries "rbac") = .ok grants :=
        Document.exists_readGrants texts.keys
      obtain ⟨parts, read⟩ : ∃ parts, Document.readParts entries = .ok parts := by
        rw [Document.readParts, readFields, readGrants, readCreated, readUpdated]
        exact ⟨_, rfl⟩
      rw [ofDocument, read]
      obtain ⟨issues, definition⟩ := parts
      cases issues with
      | nil => exact .inl ⟨definition, rfl⟩
      | cons issue others => exact .inr ⟨_, rfl⟩
  | _ => exact .inr ⟨_, rfl⟩

/-! ## Defaults -/

/-- Of the texts only a timestamp beyond the calendar is beyond a field type. -/
theorem FieldType.Beyond.of_text {type : FieldType} {characters : Text}
    (beyond : type.Beyond (.text characters)) :
    type = .date ∧ characters.toInstant = .error .outOfRange := by
  cases beyond with
  | date told outside => exact ⟨rfl, outside⟩

/-- A definition whose default dates lie within the calendar is found to have problems or none. -/
theorem Definition.exists_problems {definition : Definition} (now : Instant)
    (within : ∀ field ∈ definition.fields, field.type = .date →
      ∀ default, field.default = some default → default.toInstant ≠ .error .outOfRange) :
    ∃ found, definition.problems now = .ok found := by
  obtain ⟨found, judged⟩ : ∃ found, definition.defaultProblems now = .ok found := by
    refine Validation.exists_defaultProblemsFrom_iff.mpr ?_
    intro field declared default given beyond
    exact within field declared beyond.of_text.1 default given beyond.of_text.2
  exact ⟨definition.structuralProblems ++ found, by rw [problems, judged]; rfl⟩

end GovernedRecords
