import GovernedRecords.Proofs.Access.Permission
import GovernedRecords.Proofs.Definition.Codec
import GovernedRecords.Proofs.Json.RoundTrip

/-!
# Documents of plain definitions

A definition is plain when none of its texts holds a lone surrogate.  Its document is then a
plain value (`isPlain_toDocument`), and the document of any definition is nested so little that
there is a copy of it (`copy_toDocument`).

Both follow from what stands under each key of a document, as does anything else that holds of
all its parts (`forall_mem_documentFields`).
-/

set_option autoImplicit false

namespace GovernedRecords

/-- An optional text without lone surrogates, if it is set. -/
def Text.IsPlain? (text : Option Text) : Prop := ∀ characters, text = some characters →
  characters.IsPlain

/-- A field none of whose texts holds a lone surrogate. -/
structure Field.IsPlain (field : Field) : Prop where
  name : field.name.IsPlain
  default : Text.IsPlain? field.default
  relation : Text.IsPlain? field.relation

/-- A definition none of whose texts holds a lone surrogate. -/
structure Definition.IsPlain (definition : Definition) : Prop where
  name : definition.name.IsPlain
  fields : ∀ field ∈ definition.fields, field.IsPlain
  table : Text.IsPlain? definition.tableName
  owner : Text.IsPlain? definition.ownerField

theorem Definition.IsPlain.withStamps {definition : Definition} (plain : definition.IsPlain)
    (createdAt updatedAt : Option Instant) :
    (definition.withStamps createdAt updatedAt).IsPlain :=
  ⟨plain.name, plain.fields, plain.table, plain.owner⟩

theorem isPlain_noteDefinition : noteDefinition.IsPlain where
  name := Text.isPlain_ofString
  fields := List.forall_mem_singleton.mpr ⟨Text.isPlain_ofString, nofun, nofun⟩
  table := nofun
  owner := by
    intro _ given
    cases given
    exact Text.isPlain_ofString

/-! ## Values made of parts -/

theorem Value.arePlain_iff (items : List Value) :
    Value.ArePlain items ↔ ∀ item ∈ items, item.IsPlain := by
  induction items with
  | nil => simp [Value.ArePlain]
  | cons first rest ih => rw [Value.ArePlain, ih, List.forall_mem_cons]

theorem Value.isPlain_ofTexts {texts : List Text} (plain : ∀ text ∈ texts, text.IsPlain) :
    (Value.ofTexts texts).IsPlain := by
  rw [Value.ofTexts, Value.IsPlain, Value.arePlain_iff]
  intro item member
  obtain ⟨text, inTexts, rfl⟩ := List.mem_map.mp member
  exact plain text inTexts

theorem Value.copy_eq_ok [Host] {value copied : Value} (copy : value.copy = .ok copied) :
    copied = value := by
  unfold Value.copy at copy
  split at copy
  · cases copy
  · cases copy
    rfl

/-- What can be copied is nested no more deeply than the host copies. -/
theorem Value.nesting_le_of_copy [Host] {value copied : Value} (copy : value.copy = .ok copied) :
    value.nesting ≤ Host.copied := by
  rw [Value.copy] at copy
  split at copy
  · cases copy
  · next shallow => exact Nat.not_lt.mp shallow

/-- What cannot be copied is nested too deeply. -/
theorem Value.eq_tooDeep_of_copy [Host] {value : Value} {fault : Fault}
    (failed : value.copy = .error fault) : fault = .tooDeep := by
  rw [copy] at failed
  split at failed
  · exact (Except.error.inj failed).symm
  · cases failed

/-- A value without a text is no refusal. -/
theorem Fault.ofText_ne_refused (error : TextError) (refusal : Refusal) :
    Fault.ofText error ≠ .refused refusal := by
  cases error <;> nofun

theorem Value.nestingOfItems_le {items : List Value} {depth : Nat}
    (shallow : ∀ item ∈ items, item.nesting ≤ depth) : Value.nestingOfItems items ≤ depth := by
  induction items with
  | nil => exact Nat.zero_le _
  | cons first rest ih =>
      obtain ⟨head, others⟩ := List.forall_mem_cons.mp shallow
      exact Nat.max_le.mpr ⟨head, ih others⟩

theorem Value.nesting_ofTexts_le (texts : List Text) : (Value.ofTexts texts).nesting ≤ 1 := by
  refine Nat.succ_le_succ (Value.nestingOfItems_le fun item member => ?_)
  obtain ⟨text, -, rfl⟩ := List.mem_map.mp member
  exact Nat.le_refl _

/-- An object of plain parts with different keys is plain. -/
theorem Value.isPlain_ofFields {parts : List (Text × Value)}
    (distinct : (Keyed.names parts).Nodup)
    (plain : ∀ part ∈ parts, part.1.IsPlain ∧ part.2.IsPlain) :
    (Value.ofFields parts).IsPlain := by
  rw [Value.ofFields, Value.IsPlain]
  induction parts with
  | nil => exact trivial
  | cons part rest ih =>
      obtain ⟨⟨key, value⟩, others⟩ := List.forall_mem_cons.mp plain
      obtain ⟨fresh, distinct⟩ := List.nodup_cons.mp distinct
      refine ⟨⟨part.1, rfl, key, ?_⟩, value, ih distinct others⟩
      rw [Entries.get?_ofFields, ← Option.not_isSome_iff_eq_none, ← Keyed.mem_names_iff]
      exact fresh

/-- An object is one level deeper than its deepest part. -/
theorem Value.nesting_ofFields_le {parts : List (Text × Value)} {depth : Nat}
    (shallow : ∀ part ∈ parts, part.2.nesting ≤ depth) :
    (Value.ofFields parts).nesting ≤ depth + 1 := by
  rw [Value.ofFields, Value.nesting, Nat.add_le_add_iff_right]
  induction parts with
  | nil => exact Nat.zero_le _
  | cons part rest ih =>
      obtain ⟨first, others⟩ := List.forall_mem_cons.mp shallow
      exact Nat.max_le.mpr ⟨Nat.max_le.mpr ⟨Nat.zero_le _, first⟩, ih others⟩

namespace Document

/-! ## The parts of a document -/

section Parts

variable {holds : Text × Value → Prop}

theorem forall_mem_optional {key : Text} {value : Option Value}
    (set : ∀ given, value = some given → holds (key, given)) :
    ∀ part ∈ optional key value, holds part := by
  cases value with
  | none => exact List.forall_mem_nil _
  | some given => exact List.forall_mem_singleton.mpr (set given rfl)

theorem forall_mem_flag {key : Text} {truth : Bool} (set : holds (key, .bool true)) :
    ∀ part ∈ flag key truth, holds part := by
  cases truth with
  | false => exact List.forall_mem_nil _
  | true => exact List.forall_mem_singleton.mpr set

end Parts

/-- The names of an optional part are at most its key. -/
theorem names_optional (key : Text) (value : Option Value) :
    (Keyed.names (optional key value)).Sublist [key] := by
  cases value with
  | none => exact List.nil_sublist _
  | some value => exact .refl _

theorem names_flag (key : Text) (truth : Bool) : (Keyed.names (flag key truth)).Sublist [key] := by
  cases truth with
  | false => exact List.nil_sublist _
  | true => exact .refl _

/-- The parts of the document of a field. -/
def fieldParts (field : Field) : List (Text × Value) :=
  List.flatten [[("name", .text field.name), ("type", .text field.type.name)],
    flag "required" field.required, flag "unique" field.unique,
    optional "default" (field.default.map .text),
    optional "relation" (field.relation.map .text)]

theorem ofField_eq (field : Field) : ofField field = .ofFields (fieldParts field) := rfl

/-- The parts of the document of a field have different keys. -/
theorem nodup_fieldParts (field : Field) : (Keyed.names (fieldParts field)).Nodup := by
  have keys :
      (["name", "type", "required", "unique", "default", "relation"] : List Text).Nodup := by
    decide
  refine keys.sublist ?_
  simp only [fieldParts, List.flatten_cons, List.flatten_nil, Keyed.names, List.map_append,
    List.append_nil]
  exact .append (.refl [_, _]) (.append (names_flag _ _) (.append (names_flag _ _)
    (.append (names_optional _ _) (names_optional _ _))))

/-- What holds of texts and of true under the keys of a field holds of every part. -/
theorem forall_mem_fieldParts {holds : Text × Value → Prop} {field : Field}
    (name : holds ("name", .text field.name)) (type : holds ("type", .text field.type.name))
    (required : holds ("required", .bool true)) (unique : holds ("unique", .bool true))
    (default : ∀ text, field.default = some text → holds ("default", .text text))
    (relation : ∀ text, field.relation = some text → holds ("relation", .text text)) :
    ∀ part ∈ fieldParts field, holds part := by
  simp only [fieldParts, List.flatten_cons, List.flatten_nil, List.append_nil,
    List.forall_mem_append, List.forall_mem_cons]
  refine ⟨⟨name, type, List.forall_mem_nil _⟩, forall_mem_flag required, forall_mem_flag unique,
    forall_mem_optional fun given set => ?_, forall_mem_optional fun given set => ?_⟩
  · obtain ⟨text, there, rfl⟩ := Option.map_eq_some_iff.mp set
    exact default text there
  · obtain ⟨text, there, rfl⟩ := Option.map_eq_some_iff.mp set
    exact relation text there

theorem isPlain_ofField {field : Field} (plain : field.IsPlain) : (ofField field).IsPlain := by
  have typed : field.type.name.IsPlain := by cases field.type <;> exact Text.isPlain_ofString
  rw [ofField_eq]
  refine Value.isPlain_ofFields (nodup_fieldParts field) (forall_mem_fieldParts
    ⟨Text.isPlain_ofString, plain.name⟩ ⟨Text.isPlain_ofString, typed⟩
    ⟨Text.isPlain_ofString, trivial⟩ ⟨Text.isPlain_ofString, trivial⟩ ?_ ?_)
  · exact fun text set => ⟨Text.isPlain_ofString, plain.default text set⟩
  · exact fun text set => ⟨Text.isPlain_ofString, plain.relation text set⟩

theorem nesting_ofField_le (field : Field) : (ofField field).nesting ≤ 1 := by
  rw [ofField_eq]
  exact Value.nesting_ofFields_le (forall_mem_fieldParts (Nat.le_refl 0) (Nat.le_refl 0)
    (Nat.le_refl 0) (Nat.le_refl 0) (fun _ _ => Nat.le_refl 0) (fun _ _ => Nat.le_refl 0))

/-- The parts of the document of some grants. -/
def grantParts (grants : Grants) : List (Text × Value) :=
  Role.all.filterMap fun role =>
    (grants.get? role).map fun actions =>
      (role.name, Value.ofTexts (actions.toList.map Action.name))

theorem ofGrants_eq (grants : Grants) : ofGrants grants = .ofFields (grantParts grants) := rfl

/-- The names of the listed roles are at most those of all roles. -/
theorem names_filterMap (grants : Grants) (roles : List Role) (row : ActionSet → Value) :
    (Keyed.names (roles.filterMap fun role =>
      (grants.get? role).map fun actions => (role.name, row actions))).Sublist
        (roles.map Role.name) := by
  induction roles with
  | nil => exact .refl _
  | cons role rest ih =>
      cases listed : grants.get? role with
      | none =>
          rw [List.filterMap_cons_none (by rw [listed]; rfl)]
          exact ih.cons _
      | some actions =>
          rw [List.filterMap_cons_some (by rw [listed]; rfl)]
          exact ih.cons_cons _

theorem nodup_grantParts (grants : Grants) : (Keyed.names (grantParts grants)).Nodup := by
  have keys : (Role.all.map Role.name).Nodup := by decide
  exact keys.sublist (names_filterMap grants Role.all _)

/-- Every part of the document of some grants is a role with some actions. -/
theorem mem_grantParts {grants : Grants} {part : Text × Value} (member : part ∈ grantParts grants) :
    ∃ (role : Role) (actions : ActionSet),
      part = (role.name, Value.ofTexts (actions.toList.map Action.name)) := by
  obtain ⟨role, -, row⟩ := List.mem_filterMap.mp member
  obtain ⟨actions, -, rfl⟩ := Option.map_eq_some_iff.mp row
  exact ⟨role, actions, rfl⟩

theorem isPlain_ofGrants (grants : Grants) : (ofGrants grants).IsPlain := by
  rw [ofGrants_eq]
  refine Value.isPlain_ofFields (nodup_grantParts grants) fun part member => ?_
  obtain ⟨role, actions, rfl⟩ := mem_grantParts member
  have named : role.name.IsPlain := by cases role <;> exact Text.isPlain_ofString
  refine ⟨named, Value.isPlain_ofTexts fun text inActions => ?_⟩
  obtain ⟨action, -, rfl⟩ := List.mem_map.mp inActions
  cases action <;> exact Text.isPlain_ofString

theorem nesting_ofGrants_le (grants : Grants) : (ofGrants grants).nesting ≤ 2 := by
  rw [ofGrants_eq]
  refine Value.nesting_ofFields_le fun part member => ?_
  obtain ⟨role, actions, rfl⟩ := mem_grantParts member
  exact Value.nesting_ofTexts_le _

end Document

/-- A stamp has no lone surrogates. -/
theorem Instant.isPlain_stamp (instant : Instant) : instant.stamp.IsPlain := by
  refine Text.isPlain_concat ?_
  simp only [List.forall_mem_cons]
  refine ⟨Text.isPlain_ofNat _, Text.isPlain_concat ?_, Text.isPlain_ofString,
    Text.isPlain_concat ?_, Text.isPlain_ofString, Text.isPlain_padded _ _, Text.isPlain_ofString,
    List.forall_mem_nil _⟩
  · simp only [List.forall_mem_cons]
    exact ⟨Text.isPlain_ofString, Text.isPlain_padded _ _, Text.isPlain_ofString,
      Text.isPlain_padded _ _, List.forall_mem_nil _⟩
  · simp only [List.forall_mem_cons]
    exact ⟨Text.isPlain_padded _ _, Text.isPlain_ofString, Text.isPlain_padded _ _,
      Text.isPlain_ofString, Text.isPlain_padded _ _, List.forall_mem_nil _⟩

namespace Definition

open Document

variable {definition : Definition}

/-- The parts of the document of a definition have different keys. -/
theorem nodup_documentFields (definition : Definition) :
    (Keyed.names definition.documentFields).Nodup := by
  have keys : (["name", "tableName", "fields", "ownerField", "rbac", "createdAt", "updatedAt"] :
      List Text).Nodup := by
    decide
  refine keys.sublist ?_
  simp only [documentFields, List.flatten_cons, List.flatten_nil, Keyed.names, List.map_append,
    List.append_nil]
  exact .append (.refl [_]) (.append (names_optional _ _) (.append (.refl [_])
    (.append (names_optional _ _) (.append (.refl [_]) (.append (names_optional _ _)
      (names_optional _ _))))))

/-- What holds under each of its keys holds of every part of the document of a definition. -/
theorem forall_mem_documentFields {holds : Text × Value → Prop}
    (name : holds ("name", .text definition.name))
    (table : ∀ text, definition.tableName = some text → holds ("tableName", .text text))
    (fields : holds ("fields", .list (definition.fields.map ofField)))
    (owner : ∀ text, definition.ownerField = some text → holds ("ownerField", .text text))
    (grants : holds ("rbac", ofGrants definition.grants))
    (created : ∀ instant, definition.createdAt = some instant →
      holds ("createdAt", .text instant.stamp))
    (updated : ∀ instant, definition.updatedAt = some instant →
      holds ("updatedAt", .text instant.stamp)) :
    ∀ part ∈ definition.documentFields, holds part := by
  have dense : ∀ {text : Option Text} {given : Value}, nonEmpty text = some given →
      ∃ characters, text = some characters ∧ .text characters = given := by
    intro text given set
    obtain ⟨characters, kept, same⟩ := Option.map_eq_some_iff.mp set
    exact ⟨characters, (Option.filter_eq_some_iff.mp kept).1, same⟩
  simp only [documentFields, List.flatten_cons, List.flatten_nil, List.append_nil,
    List.forall_mem_append, List.forall_mem_cons]
  refine ⟨⟨name, List.forall_mem_nil _⟩, forall_mem_optional fun given set => ?_,
    ⟨fields, List.forall_mem_nil _⟩, forall_mem_optional fun given set => ?_,
    ⟨grants, List.forall_mem_nil _⟩, forall_mem_optional fun given set => ?_,
    forall_mem_optional fun given set => ?_⟩
  · obtain ⟨text, there, rfl⟩ := dense set
    exact table text there
  · obtain ⟨text, there, rfl⟩ := dense set
    exact owner text there
  · obtain ⟨instant, there, rfl⟩ := Option.map_eq_some_iff.mp set
    exact created instant there
  · obtain ⟨instant, there, rfl⟩ := Option.map_eq_some_iff.mp set
    exact updated instant there

/-- **The document of a plain definition is plain.** -/
theorem isPlain_toDocument (plain : definition.IsPlain) : definition.toDocument.IsPlain := by
  have fields : ∀ item ∈ definition.fields.map ofField, item.IsPlain := by
    intro item member
    obtain ⟨field, declared, rfl⟩ := List.mem_map.mp member
    exact isPlain_ofField (plain.fields field declared)
  refine Value.isPlain_ofFields (nodup_documentFields definition) (forall_mem_documentFields
    ⟨Text.isPlain_ofString, plain.name⟩ (fun text set => ⟨Text.isPlain_ofString, ?_⟩)
    ⟨Text.isPlain_ofString, (Value.arePlain_iff _).mpr fields⟩
    (fun text set => ⟨Text.isPlain_ofString, ?_⟩)
    ⟨Text.isPlain_ofString, isPlain_ofGrants _⟩ (fun instant _ => ⟨Text.isPlain_ofString, ?_⟩)
    (fun instant _ => ⟨Text.isPlain_ofString, ?_⟩))
  · exact plain.table text set
  · exact plain.owner text set
  · exact Instant.isPlain_stamp instant
  · exact Instant.isPlain_stamp instant

/-- The document of any definition is nested no deeper than a list of objects. -/
theorem nesting_toDocument_le (definition : Definition) : definition.toDocument.nesting ≤ 3 := by
  have fields : (Value.list (definition.fields.map ofField)).nesting ≤ 2 := by
    refine Nat.succ_le_succ (Value.nestingOfItems_le fun item member => ?_)
    obtain ⟨field, -, rfl⟩ := List.mem_map.mp member
    exact nesting_ofField_le field
  exact Value.nesting_ofFields_le (forall_mem_documentFields (Nat.zero_le _)
    (fun _ _ => Nat.zero_le _) fields (fun _ _ => Nat.zero_le _) (nesting_ofGrants_le _)
    (fun _ _ => Nat.zero_le _) (fun _ _ => Nat.zero_le _))

/-- The document of any definition is nested no deeper than a value that is copied. -/
theorem nesting_toDocument_le_copied [Host] (definition : Definition) :
    definition.toDocument.nesting ≤ Host.copied :=
  Nat.le_trans definition.nesting_toDocument_le (Nat.le_trans (by decide) Host.room)

/-- There is a copy of the document of any definition. -/
@[simp] theorem copy_toDocument [Host] (definition : Definition) :
    definition.toDocument.copy = .ok definition.toDocument :=
  if_neg (Nat.not_lt.mpr definition.nesting_toDocument_le_copied)

end Definition

end GovernedRecords
