import GovernedRecords.Proofs.Definition.Plain
import GovernedRecords.Proofs.Json.Canonical

/-!
# The canonical text identifies a definition

A definition is hashed by the canonical text of its document.  Two definitions that were read from
documents have the same canonical text exactly when they are the same definition
(`canonicalText_eq_iff_of_ofDocument`): whatever differs in how their documents were written, the
order of keys, of roles and of actions, repeated actions, other forms of a stamp, is gone when they
are read, and whatever is left of a document is told by the text.

The second part goes through the document with its keys in order.  What stands under a key of the
one stands under it in the other, and every part of a definition is told by what stands under its
keys; the stamps of two instants are never the same, and the grants are written with the roles in
one order.
-/

set_option autoImplicit false

namespace GovernedRecords

theorem Value.isDocument_ofFields {parts : List (Text × Value)}
    (documents : ∀ part ∈ parts, part.2.IsDocument) : (Value.ofFields parts).IsDocument := by
  refine (Entries.areDocuments_iff _).mpr fun entry member => ?_
  obtain ⟨part, inParts, rfl⟩ := List.mem_map.mp member
  exact ⟨⟨part.1, rfl⟩, documents part inParts⟩

theorem Value.isDocument_ofTexts (texts : List Text) : (Value.ofTexts texts).IsDocument := by
  refine (Value.areDocuments_iff _).mpr fun item member => ?_
  obtain ⟨text, -, rfl⟩ := List.mem_map.mp member
  exact trivial

theorem Value.nodup_keys_of_ofFields {parts : List (Text × Value)} {entries : Entries}
    (whole : Value.ofFields parts = .object entries) (distinct : (Keyed.names parts).Nodup) :
    (entries.map Prod.fst).Nodup := by
  obtain rfl := Value.object.inj whole
  have keys : (parts.map fun part => (Value.text part.1, part.2)).map Prod.fst =
      (Keyed.names parts).map Value.text := by
    rw [Keyed.names, List.map_map, List.map_map]
    rfl
  rw [keys]
  exact List.Pairwise.map Value.text (fun _ _ differ same => differ (Value.text.inj same)) distinct

theorem Value.ofText?_injective {first second : Option Text}
    (same : Value.ofText? first = Value.ofText? second) : first = second := by
  cases first <;> cases second <;> cases same <;> rfl

namespace Canonical

@[simp] theorem sortKeys_ofText? (text : Option Text) :
    sortKeys (Value.ofText? text) = Value.ofText? text := by
  cases text <;> rfl

theorem sortKeysItems_eq_map (items : List Value) : sortKeysItems items = items.map sortKeys := by
  induction items with
  | nil => rfl
  | cons first rest ih => rw [sortKeysItems, List.map_cons, ih]

@[simp] theorem sortKeys_ofTexts (texts : List Text) :
    sortKeys (Value.ofTexts texts) = Value.ofTexts texts := by
  rw [Value.ofTexts, sortKeys, sortKeysItems_eq_map, List.map_map]
  rfl

/-- Objects that are the same with their keys in order hold the same under every key, as far as
the order of keys does not matter there either. -/
theorem sortKeys_get_eq {first second : Entries}
    (same : sortKeys (.object first) = sortKeys (.object second))
    (distinct : (first.map Prod.fst).Nodup) (otherDistinct : (second.map Prod.fst).Nodup)
    (name : Text) : sortKeys (first.get name) = sortKeys (second.get name) := by
  rw [← get_sortEntries distinct, ← get_sortEntries otherDistinct]
  exact congrArg (Entries.get · name) (Value.object.inj same)

end Canonical

namespace Document

open Canonical

/-! ## Fields -/

theorem isDocument_ofField (field : Field) : (ofField field).IsDocument := by
  rw [ofField_eq]
  exact Value.isDocument_ofFields (forall_mem_fieldParts trivial trivial trivial trivial
    (fun _ _ => trivial) fun _ _ => trivial)

theorem hasNumerals_ofField (field : Field) : (ofField field).HasNumerals := by
  rw [ofField_eq]
  exact Value.hasNumerals_ofFields (forall_mem_fieldParts trivial trivial trivial trivial
    (fun _ _ => trivial) fun _ _ => trivial)

theorem fieldType_name_injective {first second : FieldType} (same : first.name = second.name) :
    first = second := by
  revert same
  cases first <;> cases second <;> decide

/-- A flag is told by what stands under its key. -/
theorem flag_injective {first second : Bool}
    (same : sortKeys (if first then .bool true else .null) =
      sortKeys (if second then .bool true else .null)) : first = second := by
  cases first <;> cases second <;> cases same <;> rfl

/-- **A field is told by its document.** -/
theorem ofField_injective {first second : Field}
    (same : sortKeys (ofField first) = sortKeys (ofField second)) : first = second := by
  obtain ⟨entries, whole, name, type, required, unique, default, relation⟩ := get_ofField first
  obtain ⟨others, otherWhole, otherName, otherType, otherRequired, otherUnique, otherDefault,
    otherRelation⟩ := get_ofField second
  have distinct := Value.nodup_keys_of_ofFields whole (nodup_fieldParts first)
  have otherDistinct := Value.nodup_keys_of_ofFields otherWhole (nodup_fieldParts second)
  rw [whole, otherWhole] at same
  have under := sortKeys_get_eq same distinct otherDistinct
  have names := under "name"
  have types := under "type"
  have requireds := under "required"
  have uniques := under "unique"
  have defaults := under "default"
  have relations := under "relation"
  rw [name, otherName] at names
  rw [type, otherType] at types
  rw [required, otherRequired] at requireds
  rw [unique, otherUnique] at uniques
  rw [default, otherDefault, sortKeys_ofText?, sortKeys_ofText?] at defaults
  rw [relation, otherRelation, sortKeys_ofText?, sortKeys_ofText?] at relations
  obtain ⟨name, type, required, unique, default, relation⟩ := first
  obtain ⟨otherName, otherType, otherRequired, otherUnique, otherDefault, otherRelation⟩ := second
  congr
  · exact Value.text.inj names
  · exact fieldType_name_injective (Value.text.inj types)
  · exact flag_injective requireds
  · exact flag_injective uniques
  · exact Value.ofText?_injective defaults
  · exact Value.ofText?_injective relations

/-- Fields in their order are told by their documents. -/
theorem fields_injective {first second : List Field}
    (same : sortKeysItems (first.map ofField) = sortKeysItems (second.map ofField)) :
    first = second := by
  rw [sortKeysItems_eq_map, sortKeysItems_eq_map, List.map_map, List.map_map] at same
  exact List.map_injective_iff.mpr (fun _ _ => ofField_injective) same

/-! ## Grants -/

theorem isDocument_ofGrants (grants : Grants) : (ofGrants grants).IsDocument := by
  rw [ofGrants_eq]
  refine Value.isDocument_ofFields fun part member => ?_
  obtain ⟨role, actions, rfl⟩ := mem_grantParts member
  exact Value.isDocument_ofTexts _

theorem hasNumerals_ofGrants (grants : Grants) : (ofGrants grants).HasNumerals := by
  rw [ofGrants_eq]
  refine Value.hasNumerals_ofFields fun part member => ?_
  obtain ⟨role, actions, rfl⟩ := mem_grantParts member
  exact Value.hasNumerals_ofTexts _

/-- The roles are written in the order of their names. -/
theorem sortKeys_ofGrants (grants : Grants) : sortKeys (ofGrants grants) = ofGrants grants := by
  obtain ⟨admin, manager, viewer⟩ := grants
  cases admin <;> cases manager <;> cases viewer <;>
    simp only [ofGrants, Value.ofFields, Role.all, List.filterMap_cons, List.filterMap_nil,
      Grants.get?, Option.map_some, Option.map_none, List.map_cons, List.map_nil, sortKeys,
      sortKeysEntries, sortKeys_ofTexts] <;>
    rfl

theorem ofGrants_injective {first second : Grants} (same : ofGrants first = ofGrants second) :
    first = second := by
  have read := readGrants_ofGrants first
  rw [same, readGrants_ofGrants] at read
  exact (Prod.mk.inj (Except.ok.inj read)).2.symm

end Document

namespace Definition

open Canonical Document

theorem isDocument_toDocument (definition : Definition) : definition.toDocument.IsDocument := by
  refine Value.isDocument_ofFields (forall_mem_documentFields trivial (fun _ _ => trivial) ?_
    (fun _ _ => trivial) (isDocument_ofGrants _) (fun _ _ => trivial) fun _ _ => trivial)
  refine (Value.areDocuments_iff _).mpr fun item member => ?_
  obtain ⟨field, -, rfl⟩ := List.mem_map.mp member
  exact isDocument_ofField field

/-- There are no integers in the document of a definition. -/
theorem hasNumerals_toDocument (definition : Definition) : definition.toDocument.HasNumerals := by
  refine Value.hasNumerals_ofFields (forall_mem_documentFields trivial (fun _ _ => trivial) ?_
    (fun _ _ => trivial) (hasNumerals_ofGrants _) (fun _ _ => trivial) fun _ _ => trivial)
  refine Value.haveNumerals_of_forall_mem fun item member => ?_
  obtain ⟨field, -, rfl⟩ := List.mem_map.mp member
  exact hasNumerals_ofField field

theorem exists_canonicalText_toDocument [Host] (definition : Definition) :
    ∃ text, canonicalText definition.toDocument = .ok text :=
  (exists_canonicalText_iff definition.isDocument_toDocument).mpr
    ⟨Nat.le_trans definition.nesting_toDocument_le_copied Host.copied_le_checked,
      Nat.le_trans definition.nesting_toDocument_le_copied Host.copied_le_written,
      definition.hasNumerals_toDocument⟩

/-- **A definition is told by its document**, the order of keys aside. -/
theorem toDocument_injective {first second : Definition} (readable : first.Readable)
    (otherReadable : second.Readable)
    (same : sortKeys first.toDocument = sortKeys second.toDocument) : first = second := by
  obtain ⟨entries, whole, name, fields, grants, table, owner, created, updated⟩ :=
    get_toDocument readable
  obtain ⟨others, otherWhole, otherName, otherFields, otherGrants, otherTable, otherOwner,
    otherCreated, otherUpdated⟩ := get_toDocument otherReadable
  have distinct := Value.nodup_keys_of_ofFields whole first.nodup_documentFields
  have otherDistinct := Value.nodup_keys_of_ofFields otherWhole second.nodup_documentFields
  rw [whole, otherWhole] at same
  have under := sortKeys_get_eq same distinct otherDistinct
  have texts : ∀ {key : Text} {text other : Option Text}, entries.get key = Value.ofText? text →
      others.get key = Value.ofText? other → text = other := by
    intro key text other here there
    have both := under key
    rw [here, there, sortKeys_ofText?, sortKeys_ofText?] at both
    exact Value.ofText?_injective both
  have stamps : ∀ {stamp other : Option Instant},
      stamp.map Instant.stamp = other.map Instant.stamp → stamp = other :=
    fun same => Option.map_injective (fun _ _ => Instant.stamp_injective) same
  have names := under "name"
  have fieldLists := under "fields"
  have grantObjects := under "rbac"
  rw [name, otherName] at names
  rw [fields, otherFields] at fieldLists
  rw [grants, otherGrants, sortKeys_ofGrants, sortKeys_ofGrants] at grantObjects
  have tables := texts table otherTable
  have owners := texts owner otherOwner
  have createds := stamps (texts created otherCreated)
  have updateds := stamps (texts updated otherUpdated)
  obtain ⟨name, fields, grants, table, owner, created, updated⟩ := first
  obtain ⟨otherName, otherFields, otherGrants, otherTable, otherOwner, otherCreated,
    otherUpdated⟩ := second
  congr
  · exact Value.text.inj names
  · exact fields_injective (Value.list.inj fieldLists)
  · exact ofGrants_injective grantObjects

/-- **The canonical text identifies a definition.**  Definitions that were read from any documents
have canonical texts, and those are the same exactly when the definitions are. -/
theorem canonicalText_eq_iff_of_ofDocument [Host] {document other : Value}
    {first second : Definition} (read : ofDocument document = .ok first)
    (otherRead : ofDocument other = .ok second) :
    ∃ text word, canonicalText first.toDocument = .ok text ∧
      canonicalText second.toDocument = .ok word ∧ (text = word ↔ first = second) := by
  obtain ⟨text, written⟩ := first.exists_canonicalText_toDocument
  obtain ⟨word, otherWritten⟩ := second.exists_canonicalText_toDocument
  refine ⟨text, word, written, otherWritten, ?_⟩
  have same := canonicalText_eq_iff first.isDocument_toDocument second.isDocument_toDocument written
  rw [otherWritten, Except.ok.injEq, eq_comm] at same
  rw [same]
  constructor
  · exact toDocument_injective (ofDocument_readable read) (ofDocument_readable otherRead)
  · rintro rfl
    rfl

/-- The loose document with its keys in another order, and with no actions left for Viewer instead
of an empty list of them. -/
def silentDocument : Value :=
  .ofFields [("name", "tally"), ("rbac", .ofFields [("Manager", .list ["read", "update"])]),
    ("fields", .list [.ofFields [("name", "count"), ("type", "number"), ("default", "7")]]),
    ("updatedAt", "2024-01-01T13:00:00Z")]

/-- What is read from the silent document. -/
def silentDefinition : Definition :=
  { looseDefinition with grants := ⟨none, some ⟨false, true, true, false⟩, none⟩ }

/-- A role without actions is not a role that is not there, and the canonical texts tell them
apart; everything else that differs in the two documents is gone. -/
theorem silent_text_differs :
    ofDocument looseDocument = .ok looseDefinition ∧
      ofDocument silentDocument = .ok silentDefinition ∧
      ∃ text word, canonicalText looseDefinition.toDocument = .ok text ∧
        canonicalText silentDefinition.toDocument = .ok word ∧ text ≠ word := by
  have read : ofDocument looseDocument = .ok looseDefinition := rfl
  have otherRead : ofDocument silentDocument = .ok silentDefinition := rfl
  obtain ⟨text, word, written, otherWritten, same⟩ :=
    canonicalText_eq_iff_of_ofDocument read otherRead
  refine ⟨read, otherRead, text, word, written, otherWritten, fun equal => ?_⟩
  cases congrArg (fun definition => definition.grants.viewer) (same.mp equal)

end Definition

end GovernedRecords
