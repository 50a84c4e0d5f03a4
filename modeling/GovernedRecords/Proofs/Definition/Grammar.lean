import GovernedRecords.Proofs.Definition.Codec
import GovernedRecords.Proofs.Definition.Range
import GovernedRecords.Proofs.Json.Numerals
import Mathlib.Data.List.Forall2

/-!
# The grammar of definitions

A document is read part by part, and every reader reports what is not as it should be.  Here the
documents that are definitions are described by themselves (`Document.IsDefinition`), and so is what
they say (`Document.DefinitionOf`): an entry that may be left out may as well be null, and a default
may be any scalar.

Each reader is compared with its part of the description: it reports nothing exactly where the part
is as described, and what it then reads is what the part says.  So a JSON document is read exactly
when it is a definition whose integers have numerals, as all have that were read from a text, and
where it is refused, every field that is none is named (`ofDocument_accepts`).
-/

set_option autoImplicit false

namespace GovernedRecords

/-! ## Values of JSON -/

mutual
/-- Whether a value is built from null, truth values, numbers, texts, lists, and objects whose keys
are different texts. -/
def Value.IsJson : Value → Prop
  | .null => True
  | .bool _ => True
  | .int _ => True
  | .float _ => True
  | .text _ => True
  | .list items => Value.AreJson items
  | .object entries => Entries.AreJson entries
  | _ => False

/-- Whether all values of a list are values of JSON. -/
def Value.AreJson : List Value → Prop
  | [] => True
  | first :: rest => first.IsJson ∧ Value.AreJson rest

/-- Whether all entries have text keys, no key twice, and values of JSON. -/
def Entries.AreJson : List (Value × Value) → Prop
  | [] => True
  | (key, value) :: rest =>
    (∃ name, key = .text name ∧ Entries.get? rest name = none) ∧ value.IsJson ∧
      Entries.AreJson rest
end

theorem Entries.AreJson.get? {entries : Entries} (json : Entries.AreJson entries) {name : Text}
    {value : Value} (there : entries.get? name = some value) : value.IsJson := by
  induction entries with
  | nil => cases there
  | cons entry rest ih =>
      obtain ⟨-, first, others⟩ := json
      rw [Entries.get?_cons] at there
      split at there
      · cases there
        exact first
      · exact ih others there

theorem Entries.AreJson.get {entries : Entries} (json : Entries.AreJson entries) (name : Text) :
    (entries.get name).IsJson := by
  rw [Entries.get]
  cases there : entries.get? name with
  | none => trivial
  | some value => exact json.get? there

theorem Entries.AreJson.distinct {entries : Entries} (json : Entries.AreJson entries) :
    (entries.map Prod.fst).Nodup := by
  induction entries with
  | nil => exact .nil
  | cons entry rest ih =>
      obtain ⟨⟨name, named, fresh⟩, -, others⟩ := json
      exact List.nodup_cons.mpr ⟨named ▸ Entries.get?_eq_none_iff.mp fresh, ih others⟩

theorem Entries.AreJson.exists_key {entries : Entries} (json : Entries.AreJson entries)
    {entry : Value × Value} (member : entry ∈ entries) : ∃ name, entry.1 = .text name := by
  induction entries with
  | nil => cases member
  | cons entry rest ih =>
      obtain ⟨⟨name, named, -⟩, -, others⟩ := json
      rcases List.mem_cons.mp member with rfl | member
      · exact ⟨name, named⟩
      · exact ih others member

/-! ## Words of the closed kinds -/

theorem FieldType.ofValue?_eq_some_iff {value : Value} {type : FieldType} :
    ofValue? value = some type ↔ value = .text type.name := by
  constructor
  · intro found
    have named := List.find?_some found
    exact (Value.isText_iff _ _).mp named
  · rintro rfl
    cases type <;> decide

theorem Action.ofValue?_eq_some_iff {value : Value} {action : Action} :
    ofValue? value = some action ↔ value = .text action.name := by
  constructor
  · intro found
    have named := List.find?_some found
    exact (Value.isText_iff _ _).mp named
  · rintro rfl
    cases action <;> decide

theorem Role.ofValue?_eq_some_iff {value : Value} {role : Role} :
    ofValue? value = some role ↔ value = .text role.name := by
  constructor
  · intro found
    have named := List.find?_some found
    exact (Value.isText_iff _ _).mp named
  · rintro rfl
    cases role <;> decide

theorem Action.name_injective {first second : Action} (same : first.name = second.name) :
    first = second := by
  revert same
  cases first <;> cases second <;> decide

theorem Role.name_injective {first second : Role} (same : first.name = second.name) :
    first = second := by
  revert same
  cases first <;> cases second <;> decide

theorem ActionSet.has_insert (action other : Action) (set : ActionSet) :
    (set.insert action).has other = true ↔ action = other ∨ set.has other = true := by
  cases action <;> cases other <;> simp [insert, has]

theorem Grants.get?_put (role other : Role) (actions : ActionSet) (grants : Grants) :
    (grants.put role actions).get? other =
      if role = other then some actions else grants.get? other := by
  cases role <;> cases other <;> rfl

namespace Document

/-! ## What a document looks like -/

/-- A value that may be left out: null, or as it should be. -/
def MayBe (allowed : Value → Prop) (value : Value) : Prop := value = .null ∨ allowed value

/-- A text with something in it that is no blank. -/
def IsName (value : Value) : Prop :=
  ∃ name : Text, value = .text name ∧ ∃ point ∈ name, point.isBlank = false

def IsText (value : Value) : Prop := ∃ characters, value = .text characters

def IsFlag (value : Value) : Prop := ∃ truth, value = .bool truth

/-- A text, a truth value or a number. -/
def IsScalar (value : Value) : Prop :=
  IsText value ∨ IsFlag value ∨ (∃ integer, value = .int integer) ∨ ∃ number, value = .float number

/-- A value that is read as an instant. -/
def IsStamp (value : Value) : Prop := ∃ instant, value.toInstant = .ok instant

/-- The entries of a field. -/
structure IsFieldEntries (entries : Entries) : Prop where
  name : IsName (entries.get "name")
  type : ∃ type : FieldType, entries.get "type" = .text type.name
  required : MayBe IsFlag (entries.get "required")
  unique : MayBe IsFlag (entries.get "unique")
  default : MayBe IsScalar (entries.get "default")
  relation : MayBe IsText (entries.get "relation")

def IsField (value : Value) : Prop :=
  ∃ entries, value = .object entries ∧ IsFieldEntries entries

def IsAction (value : Value) : Prop := ∃ action : Action, value = .text action.name

/-- A role with a list of actions. -/
structure IsGrant (entry : Value × Value) : Prop where
  role : ∃ role : Role, entry.1 = .text role.name
  actions : ∃ items, entry.2 = .list items ∧ ∀ item ∈ items, IsAction item

def IsGrants (value : Value) : Prop :=
  ∃ entries : Entries, value = .object entries ∧ ∀ entry ∈ entries, IsGrant entry

/-- The entries of a definition; others may stand beside them. -/
structure IsDefinitionEntries (entries : Entries) : Prop where
  name : IsName (entries.get "name")
  fields : ∃ items, entries.get "fields" = .list items ∧ ∀ item ∈ items, IsField item
  grants : MayBe IsGrants (entries.get "rbac")
  tableName : MayBe IsText (entries.get "tableName")
  ownerField : MayBe IsText (entries.get "ownerField")
  createdAt : MayBe IsStamp (entries.get "createdAt")
  updatedAt : MayBe IsStamp (entries.get "updatedAt")

/-- A document that is a definition. -/
def IsDefinition (document : Value) : Prop :=
  ∃ entries, document = .object entries ∧ IsDefinitionEntries entries

/-! ## What a document says -/

/-- The text that a value says, none for null and for the empty text. -/
inductive TextOf : Value → Option Text → Prop where
  | absent : TextOf .null none
  | empty : TextOf (.text []) none
  | present {characters : Text} (dense : characters ≠ []) :
      TextOf (.text characters) (some characters)

theorem TextOf.unique {value : Value} {first second : Option Text} (said : TextOf value first)
    (also : TextOf value second) : first = second := by
  cases said <;> cases also <;> first | rfl | contradiction

/-- The truth value that a value says, false for null. -/
inductive FlagOf : Value → Bool → Prop where
  | absent : FlagOf .null false
  | present (truth : Bool) : FlagOf (.bool truth) truth

/-- The default that a value says, as text. -/
inductive DefaultOf : Value → Option Text → Prop where
  | absent : DefaultOf .null none
  | text (characters : Text) : DefaultOf (.text characters) (some characters)
  | flag (truth : Bool) : DefaultOf (.bool truth) (some (if truth then "true" else "false"))
  | integer (integer : Int) : DefaultOf (.int integer) (some (Text.ofInt integer))
  | float (number : Double) : DefaultOf (.float number) (some number.toText)

/-- The instant that a value says. -/
inductive StampOf : Value → Option Instant → Prop where
  | absent : StampOf .null none
  | present {value : Value} {instant : Instant} (denotes : value.toInstant = .ok instant) :
      StampOf value (some instant)

/-- What the entries of a field say. -/
structure FieldOfEntries (entries : Entries) (field : Field) : Prop where
  name : entries.get "name" = .text field.name
  type : entries.get "type" = .text field.type.name
  required : FlagOf (entries.get "required") field.required
  unique : FlagOf (entries.get "unique") field.unique
  default : DefaultOf (entries.get "default") field.default
  relation : TextOf (entries.get "relation") field.relation

/-- The field that a value says. -/
def FieldOf (value : Value) (field : Field) : Prop :=
  ∃ entries, value = .object entries ∧ FieldOfEntries entries field

/-- Exactly the actions that are in a list. -/
def ActionsOf (items : List Value) (actions : ActionSet) : Prop :=
  ∀ action : Action, actions.has action = true ↔ .text action.name ∈ items

/-- The actions of a role: those listed under it, or those of before where the role is not
listed. -/
inductive ListedOver (before : Option ActionSet) : Option Value → Option ActionSet → Prop where
  | unlisted : ListedOver before none before
  | listed {items : List Value} {actions : ActionSet} (exact : ActionsOf items actions) :
      ListedOver before (some (.list items)) (some actions)

/-- The grants that a value says: exactly the listed roles may do exactly what is listed. -/
inductive GrantsOf : Value → Grants → Prop where
  | absent : GrantsOf .null Grants.empty
  | present {entries : Entries} {grants : Grants}
      (exact : ∀ role : Role, ListedOver none (entries.get? role.name) (grants.get? role)) :
      GrantsOf (.object entries) grants

/-- What the entries of a definition say, with one field for each item of the list, in its order. -/
structure DefinitionOfEntries (entries : Entries) (definition : Definition) : Prop where
  name : entries.get "name" = .text definition.name
  fields : ∃ items, entries.get "fields" = .list items ∧
    List.Forall₂ FieldOf items definition.fields
  grants : GrantsOf (entries.get "rbac") definition.grants
  tableName : TextOf (entries.get "tableName") definition.tableName
  ownerField : TextOf (entries.get "ownerField") definition.ownerField
  createdAt : StampOf (entries.get "createdAt") definition.createdAt
  updatedAt : StampOf (entries.get "updatedAt") definition.updatedAt

/-- The definition that a document says. -/
def DefinitionOf (document : Value) (definition : Definition) : Prop :=
  ∃ entries, document = .object entries ∧ DefinitionOfEntries entries definition

/-! ## Where an issue lies -/

/-- The path of the field with an index. -/
def fieldPath (index : Nat) : Text := Text.concat ["fields[", Text.ofNat index, "]"]

/-- A path, or one that goes on from it after a dot. -/
def Within (path place : Text) : Prop :=
  place = path ∨ ∃ rest, place = path ++ CodePoint.ofChar '.' :: rest

/-- An issue about a place within a path. -/
def LiesWithin (path : Text) (issue : Issue) : Prop :=
  ∃ place, issue.path = some place ∧ Within path place

/-! ## Scalar parts -/

section Scalars

variable {entries : Entries} {key path : Text}

theorem readText_fst_eq_nil_iff (path : Text) :
    (readText entries key path).1 = [] ↔ MayBe IsText (entries.get key) := by
  rw [readText]
  cases entries.get key <;> simp [MayBe, IsText]

theorem textOf_of_readText {text : Option Text} (read : readText entries key path = ([], text)) :
    TextOf (entries.get key) text := by
  rw [readText] at read
  generalize entries.get key = value at read ⊢
  cases value with
  | null =>
      cases read
      exact .absent
  | text characters =>
      cases characters with
      | nil =>
          cases read
          exact .empty
      | cons first rest =>
          cases read
          exact .present (List.cons_ne_nil first rest)
  | _ => cases read

theorem path_of_readText : ∀ issue ∈ (readText entries key path).1, issue.path = some path := by
  rw [readText]
  cases entries.get key <;> simp [Issue.located]

theorem readFlag_fst_eq_nil_iff (path : Text) :
    (readFlag entries key path).1 = [] ↔ MayBe IsFlag (entries.get key) := by
  rw [readFlag]
  cases entries.get key <;> simp [MayBe, IsFlag]

theorem flagOf_of_readFlag {truth : Bool} (read : readFlag entries key path = ([], truth)) :
    FlagOf (entries.get key) truth := by
  rw [readFlag] at read
  generalize entries.get key = value at read ⊢
  cases value with
  | null =>
      cases read
      exact .absent
  | bool truth =>
      cases read
      exact .present truth
  | _ => cases read

theorem path_of_readFlag : ∀ issue ∈ (readFlag entries key path).1, issue.path = some path := by
  rw [readFlag]
  cases entries.get key <;> simp [Issue.located]

/-- An integer that stands for a default has a numeral, which is what is read. -/
theorem isWritten_of_map_ofInt {integer : Int} {reading : Reading (Option Text)}
    (read : (Numeral.ofInt integer).map (fun numeral => ([], some numeral)) = .ok reading) :
    Numeral.isWritten integer = true ∧ reading = ([], some (Text.ofInt integer)) := by
  rw [Numeral.ofInt] at read
  split at read <;> cases read
  exact ⟨‹_›, rfl⟩

theorem readDefault_fst_eq_nil_iff {reading : Reading (Option Text)}
    (read : readDefault entries path = .ok reading) :
    reading.1 = [] ↔ MayBe IsScalar (entries.get "default") := by
  rw [readDefault] at read
  generalize entries.get "default" = value at read ⊢
  cases value with
  | int integer =>
      obtain ⟨-, rfl⟩ := isWritten_of_map_ofInt read
      simp [MayBe, IsScalar, IsText, IsFlag]
  | _ => cases read; simp [MayBe, IsScalar, IsText, IsFlag]

theorem defaultOf_of_readDefault {default : Option Text}
    (read : readDefault entries path = .ok ([], default)) :
    DefaultOf (entries.get "default") default := by
  rw [readDefault] at read
  generalize entries.get "default" = value at read ⊢
  cases value with
  | null => cases read; exact .absent
  | text characters => cases read; exact .text characters
  | bool truth => cases read; exact .flag truth
  | int integer =>
      obtain ⟨-, same⟩ := isWritten_of_map_ofInt read
      cases same
      exact .integer integer
  | float number => cases read; exact .float number
  | _ => cases read

theorem path_of_readDefault {reading : Reading (Option Text)}
    (read : readDefault entries path = .ok reading) :
    ∀ issue ∈ reading.1, issue.path = some path := by
  rw [readDefault] at read
  generalize entries.get "default" = value at read
  cases value with
  | int integer =>
      obtain ⟨-, rfl⟩ := isWritten_of_map_ofInt read
      exact List.forall_mem_nil _
  | _ => cases read; simp [Issue.located]

/-- Where a default is read, an integer that stands for it has a numeral. -/
theorem isWritten_of_readDefault {reading : Reading (Option Text)}
    (read : readDefault entries path = .ok reading) {integer : Int}
    (given : entries.get "default" = .int integer) : Numeral.isWritten integer = true := by
  rw [readDefault, given] at read
  exact (isWritten_of_map_ofInt read).1

theorem stampOf_of_readStamp {stamp : Option Instant}
    (read : readStamp entries key = .ok ([], stamp)) : StampOf (entries.get key) stamp := by
  rw [readStamp] at read
  split at read
  · next absent =>
      cases read
      rw [absent]
      exact .absent
  · split at read
    · next denotes =>
        cases read
        exact .present denotes
    · cases read
    · cases read

theorem exists_readStamp_iff :
    (∃ stamp, readStamp entries key = .ok ([], stamp)) ↔ MayBe IsStamp (entries.get key) := by
  constructor
  · rintro ⟨stamp, read⟩
    have said := stampOf_of_readStamp read
    generalize entries.get key = value at said
    cases said with
    | absent => exact .inl rfl
    | present denotes => exact .inr ⟨_, denotes⟩
  · rw [readStamp]
    rintro (absent | ⟨instant, denotes⟩)
    · exact ⟨none, by rw [absent]⟩
    · split
      · exact ⟨none, rfl⟩
      · rw [denotes]
        exact ⟨some instant, rfl⟩

end Scalars

/-! ## Fields -/

/-- A name is a text with something in it. -/
theorem isName_text_iff {name : Text} : IsName (.text name) ↔ name.isBlank = false := by
  simp [IsName, Text.isBlank]

theorem within_fieldPart (path part : Text) : Within path (fieldPart path part) :=
  .inr ⟨part, by simp [fieldPart, Text.concat]; rfl⟩

/-- What is read from a field that has a name and a type, and whose default is read. -/
def fieldReading (entries : Entries) (name : Text) (type : FieldType)
    (default : Reading (Option Text)) (path : Text) : Reading (Option Field) :=
  let required := readFlag entries "required" (fieldPart path "required")
  let unique := readFlag entries "unique" (fieldPart path "unique")
  let relation := readText entries "relation" (fieldPart path "relation")
  (default.1 ++ required.1 ++ unique.1 ++ relation.1,
    some ⟨name, type, required.2, unique.2, default.2, relation.2⟩)

/-- A field is read from its name, its type and its other parts, or it is no field and reports one
issue. -/
theorem readField_cases {value : Value} {path : Text} {reading : Reading (Option Field)}
    (read : readField value path = .ok reading) :
    (∃ (entries : Entries) (name : Text) (type : FieldType) (default : Reading (Option Text)),
        value = .object entries ∧ entries.get "name" = .text name ∧ name.isBlank = false ∧
        entries.get "type" = .text type.name ∧
        readDefault entries (fieldPart path "default") = .ok default ∧
        reading = fieldReading entries name type default path) ∨
      (¬ IsField value ∧ ∃ issue, reading = ([issue], none) ∧ LiesWithin path issue) := by
  unfold readField at read
  split at read
  · next entries =>
    split at read
    · next name named =>
      split at read
      · next blank =>
        cases read
        refine .inr ⟨?_, _, rfl, _, rfl, within_fieldPart path "name"⟩
        rintro ⟨_, ⟨⟩, isField⟩
        have dark := isField.name
        rw [named, isName_text_iff, blank] at dark
        cases dark
      · next dark =>
        split at read
        · next unknown =>
          cases read
          refine .inr ⟨?_, _, rfl, _, rfl, within_fieldPart path "type"⟩
          rintro ⟨_, ⟨⟩, isField⟩
          obtain ⟨type, typed⟩ := isField.type
          rw [FieldType.ofValue?_eq_some_iff.mpr typed] at unknown
          cases unknown
        · next type known =>
          cases given : readDefault entries (fieldPart path "default") with
          | error error => rw [given] at read; cases read
          | ok default =>
              rw [given] at read
              cases read
              exact .inl ⟨entries, name, type, default, rfl, named, by simpa using dark,
                FieldType.ofValue?_eq_some_iff.mp known, given, rfl⟩
    · next unnamed =>
      cases read
      refine .inr ⟨?_, _, rfl, _, rfl, within_fieldPart path "name"⟩
      rintro ⟨_, ⟨⟩, isField⟩
      obtain ⟨name, named, -⟩ := isField.name
      exact unnamed name named
  · next other =>
    cases read
    refine .inr ⟨?_, _, rfl, _, rfl, .inl rfl⟩
    rintro ⟨entries, same, -⟩
    exact other entries same

/-- A field reports nothing exactly when it is one. -/
theorem readField_fst_eq_nil_iff {value : Value} {path : Text} {reading : Reading (Option Field)}
    (read : readField value path = .ok reading) : reading.1 = [] ↔ IsField value := by
  rcases readField_cases read with
    ⟨entries, name, type, default, rfl, named, dark, typed, given, rfl⟩ | ⟨other, issue, rfl, -⟩
  · rw [fieldReading]
    simp only [List.append_eq_nil_iff, readDefault_fst_eq_nil_iff given, readFlag_fst_eq_nil_iff,
      readText_fst_eq_nil_iff]
    constructor
    · rintro ⟨⟨⟨default, required⟩, unique⟩, relation⟩
      exact ⟨entries, rfl, named ▸ isName_text_iff.mpr dark, ⟨type, typed⟩, required, unique,
        default, relation⟩
    · rintro ⟨_, ⟨⟩, isField⟩
      exact ⟨⟨⟨isField.default, isField.required⟩, isField.unique⟩, isField.relation⟩
  · simp [other]

/-- A field that reports nothing is what it says. -/
theorem fieldOf_of_readField {value : Value} {path : Text} {reading : Reading (Option Field)}
    (read : readField value path = .ok reading) (clean : reading.1 = []) :
    ∃ field, reading = ([], some field) ∧ FieldOf value field := by
  rcases readField_cases read with
    ⟨entries, name, type, default, rfl, named, dark, typed, given, rfl⟩ | ⟨-, issue, rfl, -⟩
  · refine ⟨_, Prod.ext clean rfl, entries, rfl, ?_⟩
    simp only [fieldReading, List.append_eq_nil_iff] at clean
    obtain ⟨⟨⟨isDefault, required⟩, unique⟩, relation⟩ := clean
    obtain ⟨issues, default⟩ := default
    cases isDefault
    exact ⟨named, typed, flagOf_of_readFlag (Prod.ext required rfl),
      flagOf_of_readFlag (Prod.ext unique rfl), defaultOf_of_readDefault given,
      textOf_of_readText (Prod.ext relation rfl)⟩
  · cases clean

/-- Every issue of a field lies within its path. -/
theorem liesWithin_of_readField {value : Value} {path : Text} {reading : Reading (Option Field)}
    (read : readField value path = .ok reading) : ∀ issue ∈ reading.1, LiesWithin path issue := by
  intro issue member
  rcases readField_cases read with
    ⟨entries, name, type, default, rfl, -, -, -, given, rfl⟩ | ⟨-, only, rfl, within⟩
  · rw [fieldReading] at member
    simp only [List.mem_append] at member
    rcases member with ((default | required) | unique) | relation
    · exact ⟨_, path_of_readDefault given issue default, within_fieldPart path _⟩
    · exact ⟨_, path_of_readFlag issue required, within_fieldPart path _⟩
    · exact ⟨_, path_of_readFlag issue unique, within_fieldPart path _⟩
    · exact ⟨_, path_of_readText issue relation, within_fieldPart path _⟩
  · rw [List.mem_singleton] at member
    exact member ▸ within

/-- The default of a field that is read has a numeral if it is an integer. -/
theorem isWritten_of_readField {entries : Entries} {path : Text} {reading : Reading (Option Field)}
    (read : readField (.object entries) path = .ok reading) (isField : IsField (.object entries))
    {integer : Int} (given : entries.get "default" = .int integer) :
    Numeral.isWritten integer = true := by
  rcases readField_cases read with
    ⟨_, name, type, default, ⟨⟩, -, -, -, found, -⟩ | ⟨other, -⟩
  · exact isWritten_of_readDefault found given
  · exact absurd isField other

/-! ### All fields -/

theorem readFieldsFrom_fst_eq_nil_iff {index : Nat} {items : List Value}
    {reading : Reading (List Field)} (read : readFieldsFrom index items = .ok reading) :
    reading.1 = [] ↔ ∀ item ∈ items, IsField item := by
  induction items generalizing index reading with
  | nil => cases read; simp
  | cons first rest ih =>
      obtain ⟨head, tail, one, others, rfl⟩ := readFieldsFrom_cons_eq_ok read
      rw [List.forall_mem_cons]
      simp only [List.append_eq_nil_iff, readField_fst_eq_nil_iff one, ih others]

/-- Fields that report nothing are what they say, one for each item. -/
theorem fieldsOf_of_readFieldsFrom {index : Nat} {items : List Value} {fields : List Field}
    (read : readFieldsFrom index items = .ok ([], fields)) :
    List.Forall₂ FieldOf items fields := by
  induction items generalizing index fields with
  | nil =>
      cases read
      exact .nil
  | cons first rest ih =>
      obtain ⟨head, tail, one, others, same⟩ := readFieldsFrom_cons_eq_ok read
      obtain ⟨clean, rfl⟩ := Prod.ext_iff.mp same
      obtain ⟨isHead, isTail⟩ := List.append_eq_nil_iff.mp clean.symm
      obtain ⟨field, rfl, said⟩ := fieldOf_of_readField one isHead
      obtain ⟨issues, later⟩ := tail
      cases isTail
      exact .cons said (ih others)

/-- An item that is no field is reported, within its path. -/
theorem exists_issue_of_not_isField {index place : Nat} {items : List Value} {item : Value}
    {reading : Reading (List Field)} (read : readFieldsFrom index items = .ok reading)
    (there : items[place]? = some item) (other : ¬ IsField item) :
    ∃ issue ∈ reading.1, LiesWithin (fieldPath (index + place)) issue := by
  induction items generalizing index place reading with
  | nil => cases there
  | cons first rest ih =>
      obtain ⟨head, tail, one, others, rfl⟩ := readFieldsFrom_cons_eq_ok read
      cases place with
      | zero =>
          cases there
          obtain ⟨issue, reported⟩ := List.exists_mem_of_ne_nil _
            (mt (readField_fst_eq_nil_iff one).mp other)
          exact ⟨issue, List.mem_append_left _ reported, liesWithin_of_readField one issue reported⟩
      | succ place =>
          obtain ⟨issue, reported, within⟩ := ih others there
          rw [Nat.add_assoc, Nat.add_comm 1] at within
          exact ⟨issue, List.mem_append_right _ reported, within⟩

/-- The defaults of fields that are read have numerals where they are integers. -/
theorem isWritten_of_readFieldsFrom {index : Nat} {items : List Value}
    {reading : Reading (List Field)} (read : readFieldsFrom index items = .ok reading)
    (areFields : ∀ item ∈ items, IsField item) {entries : Entries}
    (member : .object entries ∈ items) {integer : Int}
    (given : entries.get "default" = .int integer) : Numeral.isWritten integer = true := by
  induction items generalizing index reading with
  | nil => cases member
  | cons first rest ih =>
      obtain ⟨head, tail, one, others, -⟩ := readFieldsFrom_cons_eq_ok read
      obtain ⟨isField, later⟩ := List.forall_mem_cons.mp areFields
      rcases List.mem_cons.mp member with rfl | member
      · exact isWritten_of_readField one isField given
      · exact ih others later member

/-! ## Grants -/

theorem readActionsFrom_fst_eq_nil_iff (path : Text) (index : Nat) (items : List Value) :
    (readActionsFrom path index items).1 = [] ↔ ∀ item ∈ items, IsAction item := by
  induction items generalizing index with
  | nil => simp [readActionsFrom]
  | cons first rest ih =>
      rw [readActionsFrom, List.forall_mem_cons]
      cases known : Action.ofValue? first with
      | some action =>
          have isAction : IsAction first := ⟨action, Action.ofValue?_eq_some_iff.mp known⟩
          simp only [ih, isAction, true_and]
      | none =>
          have other : ¬ IsAction first := by
            rintro ⟨action, named⟩
            rw [Action.ofValue?_eq_some_iff.mpr named] at known
            cases known
          simp [other]

/-- What is read from a list of actions are the actions in it. -/
theorem actionsOf_readActionsFrom (path : Text) (index : Nat) (items : List Value) :
    ActionsOf items (readActionsFrom path index items).2 := by
  induction items generalizing index with
  | nil => intro action; cases action <;> simp [readActionsFrom, ActionSet.empty, ActionSet.has]
  | cons first rest ih =>
      intro action
      rw [readActionsFrom, List.mem_cons, ← ih (index + 1) action]
      cases known : Action.ofValue? first with
      | some found =>
          rw [Action.ofValue?_eq_some_iff.mp known, ActionSet.has_insert]
          refine or_congr ⟨fun same => by rw [same], fun same => ?_⟩ Iff.rfl
          exact Action.name_injective (Value.text.inj same).symm
      | none =>
          have other : Value.text action.name ≠ first := by
            rintro rfl
            rw [Action.ofValue?_eq_some_iff.mpr rfl] at known
            cases known
          simp [other]

/-- A value of JSON that holds a sequence is a list. -/
theorem sequence?_eq_some_iff {value : Value} {items : List Value} (json : value.IsJson) :
    sequence? value = some items ↔ value = .list items := by
  cases value with
  | tuple items => cases json
  | _ => simp [sequence?]

/-- Under text keys the grants are read. -/
theorem exists_readGrantsFrom_of_areJson [Host] {entries : Entries} (json : Entries.AreJson entries)
    (grants : Grants) : ∃ reading, readGrantsFrom grants entries = .ok reading := by
  refine exists_readGrantsFrom grants ?_
  intro entry member
  obtain ⟨name, named⟩ := json.exists_key member
  exact ⟨name, by rw [named]; rfl⟩

/-- The first of some entries is read, and then the others over its actions. -/
theorem readGrantsFrom_cons_eq_ok [Host] {grants : Grants} {key value : Value}
    {rest : List (Value × Value)} {reading : Reading Grants}
    (read : readGrantsFrom grants ((key, value) :: rest) = .ok reading) :
    (Role.ofValue? key = none ∧ reading.1 ≠ []) ∨
      ∃ role, Role.ofValue? key = some role ∧
        ((sequence? value = none ∧ reading.1 ≠ []) ∨
          ∃ items tail, sequence? value = some items ∧
            readGrantsFrom
                (grants.put role (readActionsFrom (Text.concat ["rbac.", role.name]) 0 items).2)
                rest = .ok tail ∧
            reading = ((readActionsFrom (Text.concat ["rbac.", role.name]) 0 items).1 ++ tail.1,
              tail.2)) := by
  rw [readGrantsFrom] at read
  split at read
  · next unknown =>
    refine .inl ⟨unknown, ?_⟩
    cases shown : key.toText with
    | error error => rw [shown] at read; cases read
    | ok text =>
        cases others : readGrantsFrom grants rest with
        | error error => rw [shown, others] at read; cases read
        | ok tail =>
            rw [shown, others] at read
            cases read
            exact List.cons_ne_nil _ _
  · next role known =>
    refine .inr ⟨role, known, ?_⟩
    simp only at read
    split at read
    · next alone =>
      refine .inl ⟨alone, ?_⟩
      cases others : readGrantsFrom grants rest with
      | error error => rw [others] at read; cases read
      | ok tail =>
          rw [others] at read
          cases read
          exact List.cons_ne_nil _ _
    · next items listed =>
      refine .inr ⟨items, ?_⟩
      cases others : readGrantsFrom
          (grants.put role (readActionsFrom (Text.concat ["rbac.", role.name]) 0 items).2) rest with
      | error error => rw [others] at read; cases read
      | ok tail =>
          rw [others] at read
          cases read
          exact ⟨tail, listed, rfl, rfl⟩

/-- Grants report nothing exactly when every entry is a grant. -/
theorem readGrantsFrom_fst_eq_nil_iff [Host] {entries : Entries} (json : Entries.AreJson entries)
    {grants : Grants} {reading : Reading Grants}
    (read : readGrantsFrom grants entries = .ok reading) :
    reading.1 = [] ↔ ∀ entry ∈ entries, IsGrant entry := by
  induction entries generalizing grants reading with
  | nil => cases read; simp
  | cons entry rest ih =>
      obtain ⟨key, value⟩ := entry
      obtain ⟨-, valueJson, others⟩ := json
      rw [List.forall_mem_cons]
      rcases readGrantsFrom_cons_eq_ok read with
        ⟨unknown, reported⟩ | ⟨role, known, ⟨alone, reported⟩ | ⟨items, tail, listed, later, rfl⟩⟩
      · have other : ¬ IsGrant (key, value) := by
          rintro ⟨⟨role, named⟩, -⟩
          rw [Role.ofValue?_eq_some_iff.mpr named] at unknown
          cases unknown
        simp [other, reported]
      · have other : ¬ IsGrant (key, value) := by
          rintro ⟨-, items, same, -⟩
          rw [(sequence?_eq_some_iff valueJson).mpr same] at alone
          cases alone
        simp [other, reported]
      · have same := (sequence?_eq_some_iff valueJson).mp listed
        have isGrant : IsGrant (key, value) ↔ ∀ item ∈ items, IsAction item := by
          constructor
          · rintro ⟨-, _, again, actions⟩
            cases same.symm.trans again
            exact actions
          · exact fun actions =>
              ⟨⟨role, Role.ofValue?_eq_some_iff.mp known⟩, items, same, actions⟩
        simp only [List.append_eq_nil_iff, readActionsFrom_fst_eq_nil_iff, ih others later, isGrant]

theorem ListedOver.eq_before {before after : Option ActionSet}
    (listed : ListedOver before none after) : after = before := by
  cases listed
  rfl

/-- A role may do what is listed under it, and what it might before where it is not listed. -/
theorem listedOver_readGrantsFrom [Host] {entries : Entries} (json : Entries.AreJson entries)
    (isGrants : ∀ entry ∈ entries, IsGrant entry) {grants : Grants} {reading : Reading Grants}
    (read : readGrantsFrom grants entries = .ok reading) (role : Role) :
    ListedOver (grants.get? role) (entries.get? role.name) (reading.2.get? role) := by
  induction entries generalizing grants reading with
  | nil =>
      cases read
      exact .unlisted
  | cons entry rest ih =>
      obtain ⟨key, value⟩ := entry
      obtain ⟨⟨⟨other, rfl⟩, items, rfl, -⟩, laterGrants⟩ := List.forall_mem_cons.mp isGrants
      obtain ⟨⟨name, same, fresh⟩, -, others⟩ := json
      cases same
      rcases readGrantsFrom_cons_eq_ok read with
        ⟨unknown, -⟩ | ⟨found, known, ⟨alone, -⟩ | ⟨listed, tail, sequence, rest, rfl⟩⟩
      · rw [Role.ofValue?_eq_some_iff.mpr rfl] at unknown
        cases unknown
      · cases alone
      · cases (Role.ofValue?_eq_some_iff.mpr rfl).symm.trans known
        cases sequence
        have later := ih others laterGrants rest
        rw [Entries.get?_cons, Value.isText_text]
        rw [Grants.get?_put] at later
        by_cases same : other = role
        · subst same
          rw [if_pos rfl, fresh] at later
          rw [if_pos (beq_self_eq_true _), later.eq_before]
          exact .listed (actionsOf_readActionsFrom _ 0 items)
        · rw [if_neg same] at later
          rw [if_neg (by simpa using mt Role.name_injective same)]
          exact later

theorem exists_readGrants_of_isJson [Host] {value : Value} (json : value.IsJson) :
    ∃ reading, readGrants value = .ok reading := by
  cases value with
  | object entries => exact exists_readGrantsFrom_of_areJson json Grants.empty
  | _ => exact ⟨_, rfl⟩

theorem readGrants_fst_eq_nil_iff [Host] {value : Value} (json : value.IsJson)
    {reading : Reading Grants} (read : readGrants value = .ok reading) :
    reading.1 = [] ↔ MayBe IsGrants value := by
  cases value with
  | object entries =>
      rw [readGrantsFrom_fst_eq_nil_iff json read]
      simp [MayBe, IsGrants]
  | _ => cases read; simp [MayBe, IsGrants]

theorem grantsOf_of_readGrants [Host] {value : Value} {grants : Grants} (json : value.IsJson)
    (read : readGrants value = .ok ([], grants)) : GrantsOf value grants := by
  cases value with
  | null =>
      cases read
      exact .absent
  | object entries =>
      refine .present fun role => ?_
      have isGrants := (readGrantsFrom_fst_eq_nil_iff json read).mp rfl
      have listed := listedOver_readGrantsFrom json isGrants read role
      have before : Grants.empty.get? role = none := by cases role <;> rfl
      rwa [before] at listed
  | _ => cases read

/-! ## Whole documents -/

theorem exists_eq_nil_iff {α : Type} {reading : Reading α} :
    (∃ found, reading = ([], found)) ↔ reading.1 = [] := by
  obtain ⟨issues, found⟩ := reading
  simp

theorem readName_fst_eq_nil_iff {entries : Entries} :
    (readName entries).1 = [] ↔ IsName (entries.get "name") := by
  rw [readName]
  cases entries.get "name" with
  | text name =>
      rw [isName_text_iff]
      cases blank : name.isBlank <;> simp [blank]
  | _ => simp [IsName]

theorem readFields_fst_eq_nil_iff {value : Value} {reading : Reading (List Field)}
    (read : readFields value = .ok reading) :
    reading.1 = [] ↔ ∃ items, value = .list items ∧ ∀ item ∈ items, IsField item := by
  cases value with
  | list items =>
      rw [readFieldsFrom_fst_eq_nil_iff read]
      simp
  | _ => cases read; simp

theorem fieldsOf_of_readFields {value : Value} {fields : List Field}
    (read : readFields value = .ok ([], fields)) :
    ∃ items, value = .list items ∧ List.Forall₂ FieldOf items fields := by
  cases value with
  | list items => exact ⟨items, rfl, fieldsOf_of_readFieldsFrom read⟩
  | _ => cases read

/-- The keys of the grants of a JSON document are texts. -/
theorem exists_toText_of_areJson [Host] {entries : Entries} (json : Entries.AreJson entries)
    {grants : List (Value × Value)} (given : entries.get "rbac" = .object grants)
    {entry : Value × Value} (member : entry ∈ grants) : ∃ text, entry.1.toText = .ok text := by
  have granted := json.get "rbac"
  rw [given] at granted
  obtain ⟨name, named⟩ := Entries.AreJson.exists_key granted member
  exact ⟨name, by rw [named]; rfl⟩

/-- Where the integers of a JSON document have numerals, those that stand for defaults do. -/
theorem hasTexts_of_hasNumerals [Host] {entries : Entries} (json : Entries.AreJson entries)
    (numerals : Value.EntriesHaveNumerals entries) : (Value.object entries).HasTexts where
  defaults items listed field member integer given := by
    have there := numerals.get "fields"
    rw [show entries.get "fields" = .list items from listed] at there
    have valued := (Value.HaveNumerals.of_mem there member).get "default"
    rwa [given] at valued
  keys grants given entry member := exists_toText_of_areJson json given member

/-- The entries of a JSON document are read without an issue exactly when they are those of a
definition and its defaults have numerals where they are integers. -/
theorem exists_readParts_iff [Host] {entries : Entries} (json : Entries.AreJson entries) :
    (∃ definition, readParts entries = .ok ([], definition)) ↔
      IsDefinitionEntries entries ∧ (Value.object entries).HasTexts := by
  constructor
  · rintro ⟨definition, read⟩
    obtain ⟨name, fields, grants, table, owner, created, updated⟩ :=
      readParts_eq_ok_iff.mp read
    have listed := (readFields_fst_eq_nil_iff fields).mp rfl
    refine ⟨⟨readName_fst_eq_nil_iff.mp (congrArg Prod.fst name), listed,
      (readGrants_fst_eq_nil_iff (json.get _) grants).mp rfl,
      (readText_fst_eq_nil_iff _).mp (congrArg Prod.fst table),
      (readText_fst_eq_nil_iff _).mp (congrArg Prod.fst owner),
      exists_readStamp_iff.mp ⟨_, created⟩, exists_readStamp_iff.mp ⟨_, updated⟩⟩,
      fun items there inner member integer given => ?_,
      fun grants given entry => exists_toText_of_areJson json given⟩
    obtain ⟨same, listed, areFields⟩ := listed
    cases listed.symm.trans there
    rw [listed] at fields
    exact isWritten_of_readFieldsFrom fields areFields member given
  · rintro ⟨isDefinition, texts⟩
    obtain ⟨name, named⟩ := exists_eq_nil_iff.mpr (readName_fst_eq_nil_iff.mpr isDefinition.name)
    obtain ⟨items, listed, areFields⟩ := isDefinition.fields
    obtain ⟨⟨issues, fields⟩, readFieldsFrom⟩ :=
      exists_readFieldsFrom 0 (texts.defaults items listed)
    cases (readFieldsFrom_fst_eq_nil_iff readFieldsFrom).mpr areFields
    obtain ⟨⟨issues, grants⟩, granted⟩ := exists_readGrants_of_isJson (json.get "rbac")
    cases (readGrants_fst_eq_nil_iff (json.get _) granted).mpr isDefinition.grants
    obtain ⟨table, tabled⟩ := exists_eq_nil_iff.mpr
      ((readText_fst_eq_nil_iff "tableName").mpr isDefinition.tableName)
    obtain ⟨owner, owned⟩ := exists_eq_nil_iff.mpr
      ((readText_fst_eq_nil_iff "ownerField").mpr isDefinition.ownerField)
    obtain ⟨created, createdRead⟩ := exists_readStamp_iff.mpr isDefinition.createdAt
    obtain ⟨updated, updatedRead⟩ := exists_readStamp_iff.mpr isDefinition.updatedAt
    exact ⟨⟨name, fields, grants, table, owner, created, updated⟩, readParts_eq_ok_iff.mpr
      ⟨named, by rw [listed]; exact readFieldsFrom, granted, tabled, owned, createdRead,
        updatedRead⟩⟩

/-- Entries that are read without an issue say what is read. -/
theorem definitionOf_of_readParts [Host] {entries : Entries} (json : Entries.AreJson entries)
    {definition : Definition} (read : readParts entries = .ok ([], definition)) :
    DefinitionOfEntries entries definition := by
  obtain ⟨name, fields, grants, table, owner, created, updated⟩ := readParts_eq_ok_iff.mp read
  exact ⟨(readName_eq name).1, fieldsOf_of_readFields fields,
    grantsOf_of_readGrants (json.get "rbac") grants, textOf_of_readText table,
    textOf_of_readText owner, stampOf_of_readStamp created, stampOf_of_readStamp updated⟩

/-- Issues do not end the reading. -/
theorem readParts_ne_issues [Host] (entries : Entries) (problems : List Issue) :
    readParts entries ≠ .error (.issues problems) := by
  rw [readParts]
  cases readFields (entries.get "fields") with
  | error error => simp [bind, Except.bind]
  | ok fields =>
      cases readGrants (entries.get "rbac") with
      | error error => simp [bind, Except.bind]
      | ok grants =>
          cases readStamp entries "createdAt" with
          | error cause => simp [bind, Except.bind]
          | ok created =>
              cases readStamp entries "updatedAt" <;>
                simp [bind, Except.bind, pure, Except.pure]

/-- The issues of the fields are among those of the document. -/
theorem mem_issues_of_readParts [Host] {entries : Entries} {issues : List Issue}
    {definition : Definition} (read : readParts entries = .ok (issues, definition)) :
    ∃ fields, readFields (entries.get "fields") = .ok fields ∧
      ∀ issue ∈ fields.1, issue ∈ issues := by
  simp only [readParts] at read
  cases listed : readFields (entries.get "fields") with
  | error error => simp [listed, bind, Except.bind] at read
  | ok fields =>
      cases granted : readGrants (entries.get "rbac") with
      | error error => simp [listed, granted, bind, Except.bind] at read
      | ok grants =>
          cases created : readStamp entries "createdAt" with
          | error cause =>
              simp [listed, granted, created, bind, Except.bind] at read
          | ok createdRead =>
              cases updated : readStamp entries "updatedAt" with
              | error cause =>
                  simp [listed, granted, created, updated, bind, Except.bind]
                    at read
              | ok updatedRead =>
                  rw [listed, granted, created, updated] at read
                  cases read
                  exact ⟨fields, rfl, fun issue member => by simp [member]⟩

end Document

namespace Definition

open Document

/-- A refused object has issues, those of its parts. -/
theorem exists_readParts_of_ofDocument [Host] {entries : Entries} {problems : List Issue}
    (refused : ofDocument (.object entries) = .error (.issues problems)) :
    ∃ definition, readParts entries = .ok (problems, definition) := by
  rw [ofDocument] at refused
  split at refused
  · next error parts =>
      cases refused
      exact absurd parts (readParts_ne_issues entries problems)
  · cases refused
  · next issue issues definition parts =>
      cases refused
      exact ⟨definition, parts⟩

theorem ne_nil_of_ofDocument [Host] {document : Value} {problems : List Issue}
    (refused : ofDocument document = .error (.issues problems)) : problems ≠ [] := by
  rintro rfl
  cases document with
  | object entries =>
      rw [ofDocument] at refused
      split at refused <;> cases refused
      exact absurd ‹_› (readParts_ne_issues entries [])
  | _ => cases refused

/-- **What documents are definitions.**  A JSON document is read exactly when it is a definition,
and what is read is what it says: one field for each item of its list, and exactly the grants that
it lists.  The one thing more that reading takes is that integers which stand for defaults have
numerals, and in every document that was read from a text, however deep, they do.  A document that
is refused has issues, and among them is one within every field that is none. -/
theorem ofDocument_accepts [Host] {document : Value} (json : document.IsJson) :
    ((∃ definition, ofDocument document = .ok definition) ↔
        IsDefinition document ∧ document.HasTexts) ∧
      (∀ depth text, Json.readWithin ⟨depth, Numeral.greatestDigits⟩ text = .ok document →
        ((∃ definition, ofDocument document = .ok definition) ↔ IsDefinition document)) ∧
      (∀ definition, ofDocument document = .ok definition → DefinitionOf document definition) ∧
      ∀ problems, ofDocument document = .error (.issues problems) → problems ≠ [] ∧
        ∀ entries items index item, document = .object entries →
          Entries.get entries "fields" = .list items → items[index]? = some item →
            ¬ IsField item → ∃ issue ∈ problems, LiesWithin (fieldPath index) issue := by
  have accepted : (∃ definition, ofDocument document = .ok definition) ↔
      IsDefinition document ∧ document.HasTexts := by
    constructor
    · rintro ⟨definition, read⟩
      obtain ⟨entries, rfl, parts⟩ := ofDocument_eq_ok_iff.mp read
      obtain ⟨isDefinition, texts⟩ := (exists_readParts_iff json).mp ⟨definition, parts⟩
      exact ⟨⟨entries, rfl, isDefinition⟩, texts⟩
    · rintro ⟨⟨entries, rfl, isDefinition⟩, texts⟩
      obtain ⟨definition, parts⟩ := (exists_readParts_iff json).mpr ⟨isDefinition, texts⟩
      exact ⟨definition, ofDocument_eq_ok_iff.mpr ⟨entries, rfl, parts⟩⟩
  refine ⟨accepted, ?_, ?_, ?_⟩
  · intro depth text read
    rw [accepted, and_iff_left_of_imp]
    rintro ⟨entries, rfl, -⟩
    exact hasTexts_of_hasNumerals json (Json.hasNumerals_of_readWithin read)
  · intro definition read
    obtain ⟨entries, rfl, parts⟩ := ofDocument_eq_ok_iff.mp read
    exact ⟨entries, rfl, definitionOf_of_readParts json parts⟩
  · intro problems refused
    refine ⟨ne_nil_of_ofDocument refused, ?_⟩
    rintro entries items index item rfl listed there other
    obtain ⟨definition, parts⟩ := exists_readParts_of_ofDocument refused
    obtain ⟨fields, read, reported⟩ := mem_issues_of_readParts parts
    rw [listed] at read
    obtain ⟨issue, isThere, within⟩ := exists_issue_of_not_isField read there other
    exact ⟨issue, reported issue isThere, by rwa [Nat.zero_add] at within⟩

/-- A draft whose second field has no type that is known. -/
def draftDocument : Value :=
  .ofFields [("name", "draft"),
    ("fields", .list [.ofFields [("name", "title"), ("type", "string"), ("default", .int 7)],
      .ofFields [("name", "size"), ("type", "decimal")]]),
    ("rbac", .ofFields [("Viewer", .list ["read"]), ("Manager", .list [])])]

/-- The draft is no definition, and its second field is reported. -/
theorem draft_reported :
    draftDocument.IsJson ∧ ¬ IsDefinition draftDocument ∧
      ∃ problems, ofDocument draftDocument = .error (.issues problems) ∧
        ∃ issue ∈ problems, LiesWithin "fields[1]" issue := by
  have json : draftDocument.IsJson := by
    simp [draftDocument, Value.ofFields, Value.IsJson, Value.AreJson, Entries.AreJson,
      Entries.get?_cons, Text.ofString_inj]
  obtain ⟨accepted, -, -, refused⟩ := ofDocument_accepts json
  obtain ⟨problems, read⟩ : ∃ problems, ofDocument draftDocument = .error (.issues problems) :=
    ⟨_, rfl⟩
  have other : ¬ IsField (.ofFields [("name", "size"), ("type", "decimal")]) := fun isField => by
    have read : readField (.ofFields [("name", "size"), ("type", "decimal")]) "fields[1]" =
        .ok _ := rfl
    cases (readField_fst_eq_nil_iff read).mpr isField
  refine ⟨json, ?_, problems, read, (refused problems read).2 _ _ 1 _ rfl rfl rfl other⟩
  rintro ⟨_, ⟨⟩, isDefinition⟩
  obtain ⟨_, ⟨⟩, areFields⟩ := isDefinition.fields
  exact other (areFields _ (by simp))

end Definition

end GovernedRecords
