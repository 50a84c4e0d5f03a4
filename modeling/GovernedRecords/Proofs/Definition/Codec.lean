import GovernedRecords.Definition.Document
import GovernedRecords.Proofs.Entries
import GovernedRecords.Proofs.Keyed
import GovernedRecords.Proofs.Operation
import GovernedRecords.Proofs.Time.Stamp

/-!
# Definitions and their documents

A document is read part by part, and it is a definition when no part has an issue
(`readParts_eq_ok_iff`).  What is read is never a blank name and never a text that is set and
empty (`ofDocument_readable`).

Every definition like that is written so that reading its document gives it back, flags, grants
and stamps included (`ofDocument_toDocument`); its stamps have to lie in the years from 1000 on,
because earlier ones are not read back.  So whatever form a document had, the one that is written
in its place settles: it is read as the same definition and written as itself
(`written_reads_back`).
-/

set_option autoImplicit false

namespace GovernedRecords

/-- What a field that is read from a document has: a name with something in it, and no relation
that is set and empty. -/
structure Field.Readable (field : Field) : Prop where
  named : field.name.isBlank = false
  relation : field.relation ≠ some []

/-- What a definition that is read from a document has: a name with something in it, fields like
that, and no table name or owner field that is set and empty. -/
structure Definition.Readable (definition : Definition) : Prop where
  named : definition.name.isBlank = false
  fields : ∀ field ∈ definition.fields, field.Readable
  table : definition.tableName ≠ some []
  owner : definition.ownerField ≠ some []

namespace Document

/-- A part is set, or not, without an issue. -/
theorem readParts_eq_ok_iff [Host] {entries : Entries} {definition : Definition} :
    readParts entries = .ok ([], definition) ↔
      readName entries = ([], definition.name) ∧
      readFields (entries.get "fields") = .ok ([], definition.fields) ∧
      readGrants (entries.get "rbac") = .ok ([], definition.grants) ∧
      readText entries "tableName" "tableName" = ([], definition.tableName) ∧
      readText entries "ownerField" "ownerField" = ([], definition.ownerField) ∧
      readStamp entries "createdAt" = .ok ([], definition.createdAt) ∧
      readStamp entries "updatedAt" = .ok ([], definition.updatedAt) := by
  obtain ⟨name, fields, grants, tableName, ownerField, createdAt, updatedAt⟩ := definition
  simp only [readParts]
  cases listed : readFields (entries.get "fields") with
  | error error => simp [bind, Except.bind]
  | ok fieldsRead =>
      cases granted : readGrants (entries.get "rbac") with
      | error error => simp [bind, Except.bind]
      | ok grantsRead =>
          cases created : readStamp entries "createdAt" with
          | error cause => simp [bind, Except.bind]
          | ok createdRead =>
              cases updated : readStamp entries "updatedAt" with
              | error cause => simp [bind, Except.bind]
              | ok updatedRead =>
                  simp [bind, Except.bind, pure, Except.pure, Prod.ext_iff]
                  grind

/-! ## What is read -/

theorem ne_nil_of_readText {entries : Entries} {key path : Text} {found : Reading (Option Text)}
    (read : readText entries key path = found) : found.2 ≠ some [] := by
  subst read
  rw [readText]
  split
  · simp
  · next characters _ => cases characters <;> simp
  · simp

/-- A list of fields is read from its first item and the others. -/
theorem readFieldsFrom_cons_eq_ok {index : Nat} {first : Value} {rest : List Value}
    {read : Reading (List Field)} (done : readFieldsFrom index (first :: rest) = .ok read) :
    ∃ head tail, readField first (Text.concat ["fields[", Text.ofNat index, "]"]) = .ok head ∧
      readFieldsFrom (index + 1) rest = .ok tail ∧
      read = (head.1 ++ tail.1, head.2.toList ++ tail.2) := by
  rw [readFieldsFrom] at done
  cases one : readField first (Text.concat ["fields[", Text.ofNat index, "]"]) with
  | error error => simp [one, bind, Except.bind] at done
  | ok head =>
      cases others : readFieldsFrom (index + 1) rest with
      | error error => simp [one, others, bind, Except.bind] at done
      | ok tail =>
          rw [one, others] at done
          cases done
          exact ⟨head, tail, rfl, rfl, rfl⟩

theorem field_readable {value : Value} {path : Text} {issues : List Issue} {field : Field}
    (read : readField value path = .ok (issues, some field)) : field.Readable := by
  unfold readField at read
  split at read
  · split at read
    · split at read
      · cases read
      · next dark =>
        split at read
        · cases read
        · next entries _ _ _ _ type _ =>
          cases shown : readDefault entries (fieldPart path "default") with
          | error error => simp [shown, bind, Except.bind] at read
          | ok default =>
              rw [shown] at read
              cases read
              exact ⟨by simpa using dark, ne_nil_of_readText rfl⟩
    · cases read
  · cases read

theorem fields_readable {index : Nat} {items : List Value} {read : Reading (List Field)}
    (done : readFieldsFrom index items = .ok read) : ∀ field ∈ read.2, field.Readable := by
  induction items generalizing index read with
  | nil =>
      cases done
      exact List.forall_mem_nil _
  | cons first rest ih =>
      obtain ⟨head, tail, one, others, rfl⟩ := readFieldsFrom_cons_eq_ok done
      intro field member
      rcases List.mem_append.mp member with inFirst | later
      · rw [Option.mem_toList] at inFirst
        exact field_readable (one.trans (congrArg _ (Prod.ext rfl inFirst)))
      · exact ih others field later

theorem readName_eq {entries : Entries} {name : Text} (read : readName entries = ([], name)) :
    entries.get "name" = .text name ∧ name.isBlank = false := by
  rw [readName] at read
  split at read
  · next given named =>
    split at read
    · cases read
    · next dark =>
      cases read
      exact ⟨named, by simpa using dark⟩
  · cases read

end Document

namespace Definition

theorem ofDocument_eq_ok_iff [Host] {document : Value} {definition : Definition} :
    ofDocument document = .ok definition ↔
      ∃ entries, document = .object entries ∧
        Document.readParts entries = .ok ([], definition) := by
  cases document with
  | object entries =>
      simp only [ofDocument, Value.object.injEq, exists_eq_left']
      split <;> simp_all
  | _ => simp [ofDocument]

/-- A definition has the name that its document gives. -/
theorem get_name_of_ofDocument [Host] {entries : Entries} {definition : Definition}
    (read : ofDocument (.object entries) = .ok definition) :
    entries.get "name" = .text definition.name := by
  obtain ⟨_, same, parts⟩ := ofDocument_eq_ok_iff.mp read
  cases same
  exact (Document.readName_eq (Document.readParts_eq_ok_iff.mp parts).1).1

/-- **What is read from a document is never blank, and never set and empty.** -/
theorem ofDocument_readable [Host] {document : Value} {definition : Definition}
    (read : ofDocument document = .ok definition) : definition.Readable := by
  obtain ⟨entries, rfl, parts⟩ := ofDocument_eq_ok_iff.mp read
  obtain ⟨name, fields, -, table, owner, -, -⟩ := Document.readParts_eq_ok_iff.mp parts
  refine ⟨(Document.readName_eq name).2, ?_, Document.ne_nil_of_readText table,
    Document.ne_nil_of_readText owner⟩
  intro field member
  unfold Document.readFields at fields
  split at fields
  · exact Document.fields_readable fields field member
  · cases fields

end Definition

namespace Document

/-! ## What is written -/

theorem get?_optional (key name : Text) (value : Option Value) :
    Keyed.get? (optional key value) name = if key = name then value else none := by
  cases value <;> simp [optional, Keyed.get?_cons]

theorem get?_flag (key name : Text) (truth : Bool) :
    Keyed.get? (flag key truth) name =
      if key = name ∧ truth = true then some (.bool true) else none := by
  cases truth <;> simp [flag, Keyed.get?_cons]

/-- What the document of a field holds under each of its keys. -/
theorem get_ofField (field : Field) :
    ∃ entries : Entries, ofField field = .object entries ∧
      entries.get "name" = .text field.name ∧
      entries.get "type" = .text field.type.name ∧
      entries.get "required" = (if field.required then .bool true else .null) ∧
      entries.get "unique" = (if field.unique then .bool true else .null) ∧
      entries.get "default" = Value.ofText? field.default ∧
      entries.get "relation" = Value.ofText? field.relation := by
  obtain ⟨name, type, required, unique, default, relation⟩ := field
  refine ⟨_, rfl, ?_, ?_, ?_, ?_, ?_, ?_⟩ <;>
    simp only [Entries.get_ofFields, List.flatten_cons, List.flatten_nil, Keyed.get?_append,
      get?_optional, get?_flag, Keyed.get?_cons, Keyed.get?_nil, Text.ofString_inj]
  · simp
  · simp
  · cases required <;> simp
  · cases unique <;> simp
  · cases default <;> simp [Value.ofText?]
  · cases relation <;> simp [Value.ofText?]

theorem readText_eq {entries : Entries} {key path : Text} {text : Option Text}
    (there : entries.get key = Value.ofText? text) (dense : text ≠ some []) :
    readText entries key path = ([], text) := by
  rw [readText, there]
  cases text with
  | none => rfl
  | some characters =>
      cases characters with
      | nil => exact absurd rfl dense
      | cons first rest => rfl

theorem readDefault_eq {entries : Entries} {path : Text} {text : Option Text}
    (there : entries.get "default" = Value.ofText? text) :
    readDefault entries path = .ok ([], text) := by
  rw [readDefault, there]
  cases text <;> rfl

theorem readFlag_eq {entries : Entries} {key path : Text} {truth : Bool}
    (there : entries.get key = if truth then .bool true else .null) :
    readFlag entries key path = ([], truth) := by
  rw [readFlag, there]
  cases truth <;> rfl

theorem readField_ofField {field : Field} (readable : field.Readable) (path : Text) :
    readField (ofField field) path = .ok ([], some field) := by
  obtain ⟨entries, whole, name, type, required, unique, default, relation⟩ := get_ofField field
  have typed : FieldType.ofValue? (.text field.type.name) = some field.type := by
    cases field.type <;> decide
  rw [whole, readField]
  simp only [name, type, typed, readable.named, readDefault_eq default, readFlag_eq required,
    readFlag_eq unique, readText_eq relation readable.relation, Bool.false_eq_true, if_false]
  rfl

theorem readFieldsFrom_ofField {fields : List Field} (readable : ∀ field ∈ fields, field.Readable)
    (index : Nat) : readFieldsFrom index (fields.map ofField) = .ok ([], fields) := by
  induction fields generalizing index with
  | nil => rfl
  | cons field rest ih =>
      obtain ⟨first, others⟩ := List.forall_mem_cons.mp readable
      rw [List.map_cons, readFieldsFrom, readField_ofField first, ih others]
      rfl

/-! ## Grants -/

theorem readActionsFrom_ofTexts (path : Text) (index : Nat) (actions : List Action) :
    readActionsFrom path index ((actions.map Action.name).map .text) =
      ([], ActionSet.ofList actions) := by
  induction actions generalizing index with
  | nil => rfl
  | cons action rest ih =>
      have named : Action.ofValue? (.text action.name) = some action := by cases action <;> decide
      rw [List.map_cons, List.map_cons, readActionsFrom, ih]
      simp only [named]
      rfl

/-- A set of actions is the set of the actions in it. -/
theorem ofList_toList (set : ActionSet) : ActionSet.ofList set.toList = set := by
  obtain ⟨create, read, update, delete⟩ := set
  cases create <;> cases read <;> cases update <;> cases delete <;> rfl

/-- The entry of a role is read as the actions of that role. -/
theorem readGrantsFrom_cons [Host] (grants : Grants) (role : Role) (actions : ActionSet)
    (rest : List (Value × Value)) :
    readGrantsFrom grants
        ((.text role.name, Value.ofTexts (actions.toList.map Action.name)) :: rest) =
      readGrantsFrom (grants.put role actions) rest := by
  have named : Role.ofValue? (.text role.name) = some role := by cases role <;> decide
  rw [readGrantsFrom]
  simp only [named, Value.ofTexts, sequence?, readActionsFrom_ofTexts, ofList_toList,
    List.nil_append]
  cases readGrantsFrom (grants.put role actions) rest <;> rfl

theorem readGrants_ofGrants [Host] (grants : Grants) :
    readGrants (ofGrants grants) = .ok ([], grants) := by
  obtain ⟨admin, manager, viewer⟩ := grants
  cases admin <;> cases manager <;> cases viewer <;>
    simp only [ofGrants, Value.ofFields, readGrants, Role.all, List.filterMap_cons,
      List.filterMap_nil, Grants.get?, Option.map_some, Option.map_none, List.map_cons,
      List.map_nil, readGrantsFrom_cons] <;>
    rfl

/-! ## Whole documents -/

theorem readStamp_eq {entries : Entries} {key : Text} {stamp : Option Instant}
    (there : entries.get key = Value.ofText? (stamp.map Instant.stamp))
    (year : ∀ instant, stamp = some instant → 1000 ≤ instant.year) :
    readStamp entries key = .ok ([], stamp) := by
  rw [readStamp, there]
  cases stamp with
  | none => rfl
  | some instant =>
      simp only [Option.map_some, Value.ofText?, Value.toInstant,
        Instant.toInstant_stamp (year instant rfl)]

/-- What the document of a definition holds under each of its keys. -/
theorem get_toDocument {definition : Definition} (readable : definition.Readable) :
    ∃ entries : Entries, definition.toDocument = .object entries ∧
      entries.get "name" = .text definition.name ∧
      entries.get "fields" = .list (definition.fields.map ofField) ∧
      entries.get "rbac" = ofGrants definition.grants ∧
      entries.get "tableName" = Value.ofText? definition.tableName ∧
      entries.get "ownerField" = Value.ofText? definition.ownerField ∧
      entries.get "createdAt" = Value.ofText? (definition.createdAt.map Instant.stamp) ∧
      entries.get "updatedAt" = Value.ofText? (definition.updatedAt.map Instant.stamp) := by
  have dense : ∀ text : Option Text, text ≠ some [] →
      nonEmpty text = text.map .text := by
    intro text dense
    rcases text with _ | _ | _
    · rfl
    · exact absurd rfl dense
    · rfl
  refine ⟨_, rfl, ?_, ?_, ?_, ?_, ?_, ?_, ?_⟩ <;>
    simp only [Entries.get_ofFields, Definition.documentFields, dense _ readable.table,
      dense _ readable.owner, List.flatten_cons, List.flatten_nil, Keyed.get?_append,
      get?_optional, Keyed.get?_cons, Keyed.get?_nil, Text.ofString_inj]
  · simp
  · simp
  · simp
  · cases definition.tableName <;> simp [Value.ofText?]
  · cases definition.ownerField <;> simp [Value.ofText?]
  · cases definition.createdAt <;> simp [Value.ofText?]
  · cases definition.updatedAt <;> simp [Value.ofText?]

/-- The document of any definition has its name. -/
theorem get_name_toDocument (definition : Definition) :
    Entries.get (definition.toDocument.asObject?.getD []) "name" = .text definition.name := by
  simp only [Definition.toDocument, Value.ofFields, Value.asObject?, Option.getD_some,
    Entries.get_ofFields, Definition.documentFields, List.flatten_cons, Keyed.get?_append,
    Keyed.get?_cons, if_true, Option.some_or]

end Document

namespace Definition

/-- **A definition is read back from its document**, if its stamps lie in the years from 1000
on. -/
theorem ofDocument_toDocument [Host] {definition : Definition} (readable : definition.Readable)
    (created : ∀ instant, definition.createdAt = some instant → 1000 ≤ instant.year)
    (updated : ∀ instant, definition.updatedAt = some instant → 1000 ≤ instant.year) :
    ofDocument definition.toDocument = .ok definition := by
  obtain ⟨entries, whole, name, fields, grants, table, owner, createdAt, updatedAt⟩ :=
    Document.get_toDocument readable
  refine ofDocument_eq_ok_iff.mpr ⟨entries, whole, Document.readParts_eq_ok_iff.mpr
    ⟨?_, ?_, ?_, Document.readText_eq table readable.table,
      Document.readText_eq owner readable.owner, Document.readStamp_eq createdAt created,
      Document.readStamp_eq updatedAt updated⟩⟩
  · simp only [Document.readName, name, readable.named, Bool.false_eq_true, if_false]
  · rw [fields]
    exact Document.readFieldsFrom_ofField readable.fields 0
  · rw [grants]
    exact Document.readGrants_ofGrants _

end Definition

/-! ## Reading, writing and reading again -/

/-- Whether the stamps of a document that denote instants denote ones in the years from 1000 on. -/
def Document.StampedFrom1000 (document : Value) : Prop :=
  ∀ key ∈ ["createdAt", "updatedAt"], ∀ instant,
    (Entries.get (document.asObject?.getD []) key).toInstant = .ok instant → 1000 ≤ instant.year

/-- A stamp that was read is the instant that its value denotes. -/
theorem Document.toInstant_of_readStamp {entries : Entries} {key : Text} {issues : List Issue}
    {instant : Instant} (read : readStamp entries key = .ok (issues, some instant)) :
    (entries.get key).toInstant = .ok instant := by
  rw [readStamp] at read
  split at read
  · cases read
  · split at read
    · next found denoted =>
        cases read
        exact denoted
    · cases read
    · cases read

namespace Definition

/-- **Writing what was read settles.**  The document of a definition that was read from any
document is read as that definition, and written from it as it is: the defaults that were turned
into texts, the sets of actions, the keys that were left out and the stamps that were given in any
other form are as they were read. -/
theorem written_reads_back [Host] {document : Value} {definition : Definition}
    (read : ofDocument document = .ok definition) (years : Document.StampedFrom1000 document) :
    ofDocument definition.toDocument = .ok definition ∧
      (ofDocument definition.toDocument).map toDocument = .ok definition.toDocument := by
  have back : ofDocument definition.toDocument = .ok definition := by
    obtain ⟨entries, rfl, parts⟩ := ofDocument_eq_ok_iff.mp read
    obtain ⟨-, -, -, -, -, created, updated⟩ := Document.readParts_eq_ok_iff.mp parts
    refine ofDocument_toDocument (ofDocument_readable read) ?_ ?_
    · intro instant stamp
      rw [stamp] at created
      exact years "createdAt" (by simp) instant (Document.toInstant_of_readStamp created)
    · intro instant stamp
      rw [stamp] at updated
      exact years "updatedAt" (by simp) instant (Document.toInstant_of_readStamp updated)
  refine ⟨back, ?_⟩
  rw [back]
  rfl

/-- A document with keys in no order, empty and absent texts, a number for a default, repeated
actions, and a stamp in another offset. -/
def looseDocument : Value :=
  .ofFields [("updatedAt", "2024-01-01 14:00+01:00"), ("createdAt", .null), ("extra", .bool true),
    ("rbac", .ofFields [("Viewer", .list []), ("Manager", .list ["update", "read", "update"])]),
    ("tableName", ""),
    ("fields", .list [.ofFields [("type", "number"), ("default", .int 7), ("required", .null),
      ("name", "count")]]),
    ("name", "tally")]

/-- What is read from the loose document. -/
def looseDefinition : Definition where
  name := "tally"
  fields := [⟨"count", .number, false, false, some "7", none⟩]
  grants := ⟨none, some ⟨false, true, true, false⟩, some ActionSet.empty⟩
  tableName := none
  ownerField := none
  createdAt := none
  updatedAt := some ⟨63839710800000000, by decide⟩

/-- The loose document is not what is written, but what is written settles. -/
theorem loose_settles :
    ofDocument looseDocument = .ok looseDefinition ∧ looseDefinition.toDocument ≠ looseDocument ∧
      ofDocument looseDefinition.toDocument = .ok looseDefinition := by
  have read : ofDocument looseDocument = .ok looseDefinition := rfl
  have years : Document.StampedFrom1000 looseDocument := by
    refine List.forall_mem_cons.mpr ⟨?_, List.forall_mem_singleton.mpr ?_⟩
    · intro instant denoted
      cases denoted
    · have stamp : (Entries.get (looseDocument.asObject?.getD []) "updatedAt").toInstant =
          .ok ⟨63839710800000000, by decide⟩ := rfl
      intro instant denoted
      rw [stamp] at denoted
      cases denoted
      decide
  have extra : ∀ document, document = looseDocument →
      Entries.get (document.asObject?.getD []) "extra" = .bool true := by
    rintro _ rfl
    rfl
  refine ⟨read, ?_, (written_reads_back read years).1⟩
  intro same
  cases extra _ same

end Definition

end GovernedRecords
