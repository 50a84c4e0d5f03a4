import GovernedRecords.Proofs.Validation.Payload
import Mathlib.Data.List.Forall2

/-!
# Validation field by field

The outcome of a field depends on what the payload has under the name of the field, and on nothing
else.  So a payload is validated against a definition as it is against the definitions with one of
its fields each (`Definition.only`), and what these make of it is put together (`union`): the
problems of all fields in order, at most one for each, or the values of all (`validate_fieldwise`).

The values are put under their names one after another.  With no name twice each comes last when it
is put, which turns the values into a list with one entry for each value (`values_eq_filterMap`).
-/

set_option autoImplicit false

namespace GovernedRecords

/-- The definition with one of its fields. -/
def Definition.only (definition : Definition) (field : Field) : Definition :=
  { definition with fields := [field] }

namespace Validation

variable {definition : Definition} {now : Instant} {mode : Mode} {entries : Entries}
  {field : Field} {fields : List Field} {outcomes : List (Field × FieldOutcome)}

/-! ## Outcomes -/

/-- The value of an outcome, if it is one. -/
def FieldOutcome.value? : FieldOutcome → Option Value
  | .value given => some given
  | _ => none

/-- The entry that an outcome puts under the name of its field, if it is a value. -/
def placed? (outcome : Field × FieldOutcome) : Option (Value × Value) :=
  outcome.2.value?.map fun value => (.text outcome.1.name, value)

theorem putOutcome_eq_append {outcome : Field × FieldOutcome}
    (fresh : Entries.get? entries outcome.1.name = none) :
    putOutcome entries outcome = entries ++ (placed? outcome).toList := by
  obtain ⟨field, made⟩ := outcome
  cases made with
  | value value => exact Entries.put_of_get?_eq_none value fresh
  | absent => exact (List.append_nil entries).symm
  | problem issue => exact (List.append_nil entries).symm

/-- The entries of outcomes stand under the names of their fields. -/
theorem get?_putOutcome_of_ne {outcome : Field × FieldOutcome} {name : Text}
    (other : outcome.1.name ≠ name) :
    Entries.get? (putOutcome entries outcome) name = Entries.get? entries name := by
  obtain ⟨field, made⟩ := outcome
  cases made with
  | value value => exact Entries.get?_put_of_ne value entries other
  | absent => rfl
  | problem issue => rfl

/-- With no name twice, every value comes after those before it. -/
theorem values_eq_filterMap (distinct : (outcomes.map fun outcome => outcome.1.name).Nodup) :
    values outcomes = outcomes.filterMap placed? := by
  have appended : ∀ first : Entries,
      (∀ outcome ∈ outcomes, Entries.get? first outcome.1.name = none) →
        outcomes.foldl putOutcome first = first ++ outcomes.filterMap placed? := by
    induction outcomes with
    | nil => simp
    | cons outcome rest ih =>
        intro first fresh
        obtain ⟨unlike, distinct⟩ := List.nodup_cons.mp distinct
        obtain ⟨here, later⟩ := List.forall_mem_cons.mp fresh
        rw [List.foldl_cons, ih distinct, putOutcome_eq_append here, List.filterMap_cons,
          List.append_assoc]
        · cases placed? outcome <;> rfl
        · intro other member
          rw [get?_putOutcome_of_ne]
          · exact later other member
          · intro same
            exact unlike (List.mem_map.mpr ⟨other, member, same.symm⟩)
  exact appended [] fun _ _ => rfl

/-- Under the name of a field its own value is read before those of the fields after it. -/
theorem get?_filterMap_placed?_cons (first : Field × FieldOutcome)
    (rest : List (Field × FieldOutcome)) (name : Text) :
    Entries.get? ((first :: rest).filterMap placed?) name =
      (if first.1.name = name then first.2.value? else none).or
        (Entries.get? (rest.filterMap placed?) name) := by
  rw [List.filterMap_cons, placed?]
  cases first.2.value? with
  | none => simp
  | some value =>
      rw [Option.map_some]
      dsimp only
      rw [Entries.get?_cons]
      by_cases same : first.1.name = name <;> simp [same]

/-- Nothing is read under the name of no field. -/
theorem get?_filterMap_placed?_eq_none {name : Text}
    (absent : name ∉ outcomes.map fun outcome => outcome.1.name) :
    Entries.get? (outcomes.filterMap placed?) name = none := by
  induction outcomes with
  | nil => rfl
  | cons first rest ih =>
      obtain ⟨other, later⟩ := not_or.mp (List.mem_cons.not.mp absent)
      rw [get?_filterMap_placed?_cons, if_neg (Ne.symm other), ih later]
      rfl

/-- With no name twice, the value of each outcome is read under the name of its field, and nothing
is read there when it is none. -/
theorem get?_values (distinct : (outcomes.map fun outcome => outcome.1.name).Nodup)
    {outcome : Field × FieldOutcome} (member : outcome ∈ outcomes) :
    Entries.get? (values outcomes) outcome.1.name = outcome.2.value? := by
  rw [values_eq_filterMap distinct]
  induction outcomes with
  | nil => cases member
  | cons first rest ih =>
      obtain ⟨unlike, distinct⟩ := List.nodup_cons.mp distinct
      rw [get?_filterMap_placed?_cons]
      rcases List.mem_cons.mp member with rfl | later
      · rw [if_pos rfl, get?_filterMap_placed?_eq_none unlike, Option.or_none]
      · have other : first.1.name ≠ outcome.1.name := by
          intro same
          exact unlike (List.mem_map.mpr ⟨outcome, later, same.symm⟩)
        rw [if_neg other, ih distinct later, Option.none_or]

/-! ## The fields of a definition -/

/-- All fields have outcomes exactly when each has one. -/
theorem fieldOutcomes_eq_ok_iff :
    fieldOutcomes now mode entries fields = .ok outcomes ↔
      List.Forall₂ (fun field outcome => outcome.1 = field ∧
        fieldOutcome now mode entries field = .ok outcome.2) fields outcomes := by
  induction fields generalizing outcomes with
  | nil => cases outcomes <;> simp [fieldOutcomes]
  | cons field rest ih =>
      rw [fieldOutcomes]
      cases outcomes with
      | nil =>
          cases fieldOutcome now mode entries field with
          | error cause => simp [bind, Except.bind]
          | ok made =>
              cases fieldOutcomes now mode entries rest <;>
                simp [bind, Except.bind, pure, Except.pure]
      | cons outcome others =>
          obtain ⟨own, made⟩ := outcome
          rw [List.forall₂_cons, ← ih]
          cases fieldOutcome now mode entries field with
          | error cause => simp [bind, Except.bind]
          | ok first =>
              cases fieldOutcomes now mode entries rest with
              | error cause => simp [bind, Except.bind]
              | ok later =>
                  simp only [bind, Except.bind, pure, Except.pure, Except.ok.injEq, List.cons.injEq,
                    Prod.mk.injEq]
                  tauto

/-- Outcomes depend on what the payload has under the names of the fields only. -/
theorem fieldOutcomes_congr {others : Entries}
    (same : ∀ field ∈ fields, Entries.get? others field.name = Entries.get? entries field.name) :
    fieldOutcomes now mode others fields = fieldOutcomes now mode entries fields := by
  induction fields with
  | nil => rfl
  | cons field rest ih =>
      obtain ⟨here, later⟩ := List.forall_mem_cons.mp same
      have first : fieldOutcome now mode others field = fieldOutcome now mode entries field := by
        unfold fieldOutcome
        rw [here]
      rw [fieldOutcomes, fieldOutcomes, first, ih later]

/-- What the outcomes of some fields come to, with the names of the unique ones. -/
def ofOutcomes (uniqueFields : List Text) (outcomes : List (Field × FieldOutcome)) : Validation :=
  match problems outcomes with
  | [] => .valid ⟨values outcomes, uniqueFields⟩
  | problem :: others => .invalid (problem :: others)

/-- A payload is validated by the outcomes of the fields. -/
theorem validate_object (definition : Definition) (now : Instant) (mode : Mode)
    (entries : Entries) : definition.validate now (.object entries) mode =
      (fieldOutcomes now mode entries definition.fields).map (ofOutcomes definition.uniqueFields) := by
  rw [Definition.validate]
  cases fieldOutcomes now mode entries definition.fields with
  | error cause => rfl
  | ok outcomes =>
      simp only [bind, Except.bind, Except.map, ofOutcomes]
      cases problems outcomes <;> rfl

theorem validate_only (definition : Definition) (now : Instant) (mode : Mode) (entries : Entries)
    (field : Field) : (definition.only field).validate now (.object entries) mode =
      (fieldOutcome now mode entries field).map fun made =>
        ofOutcomes (definition.only field).uniqueFields [(field, made)] := by
  rw [validate_object, Definition.only, fieldOutcomes, fieldOutcomes]
  cases fieldOutcome now mode entries field <;> rfl

/-! ## Validations put together -/

/-- The issues of a payload; a valid one has none. -/
def errors : Validation → List Issue
  | .invalid issues => issues
  | .valid _ => []

/-- The values of a payload; an invalid one yields none. -/
def yielded : Validation → Entries
  | .invalid _ => []
  | .valid record => record.values

/-- The names of the unique fields of a valid payload. -/
def uniqueFields : Validation → List Text
  | .invalid _ => []
  | .valid record => record.uniqueFields

/-- Some validations as one: the issues of all, or when there are none the values of all, with the
names of all unique fields. -/
def union (parts : List Validation) : Validation :=
  match parts.flatMap errors with
  | [] => .valid ⟨parts.flatMap yielded, parts.flatMap uniqueFields⟩
  | issue :: others => .invalid (issue :: others)

/-- What the outcome of one field comes to under the definition with that field. -/
def part (definition : Definition) (outcome : Field × FieldOutcome) : Validation :=
  ofOutcomes (definition.only outcome.1).uniqueFields [outcome]

theorem errors_part (definition : Definition) (outcome : Field × FieldOutcome) :
    (part definition outcome).errors = problems [outcome] := by
  obtain ⟨field, made⟩ := outcome
  cases made <;> rfl

theorem yielded_part (definition : Definition) (outcome : Field × FieldOutcome) :
    (part definition outcome).yielded = (placed? outcome).toList := by
  obtain ⟨field, made⟩ := outcome
  cases made <;> rfl

theorem uniqueFields_part {outcome : Field × FieldOutcome} (clean : problems [outcome] = []) :
    (part definition outcome).uniqueFields = (definition.only outcome.1).uniqueFields := by
  rw [part, ofOutcomes, clean]
  rfl

/-- A field has at most one problem. -/
theorem length_errors_part_le (definition : Definition) (outcome : Field × FieldOutcome) :
    (part definition outcome).errors.length ≤ 1 := by
  obtain ⟨field, made⟩ := outcome
  cases made <;> simp [part, ofOutcomes, problems, errors]

theorem flatMap_problems (outcomes : List (Field × FieldOutcome)) :
    (outcomes.flatMap fun outcome => problems [outcome]) = problems outcomes := by
  induction outcomes with
  | nil => rfl
  | cons outcome rest ih => rw [List.flatMap_cons, ih, problems, problems, problems,
      ← List.filterMap_append, List.singleton_append]

theorem uniqueFields_eq_flatMap (definition : Definition) :
    definition.uniqueFields =
      definition.fields.flatMap fun field => (definition.only field).uniqueFields := by
  unfold Definition.uniqueFields
  generalize definition.fields = fields
  induction fields with
  | nil => rfl
  | cons field rest ih =>
      rw [List.flatMap_cons, ← ih, ← List.map_append, ← List.filter_append]
      rfl

/-- **The outcomes of all fields come to what those of the single fields come to together.** -/
theorem union_parts (distinct : definition.fieldNames.Nodup)
    (own : outcomes.map Prod.fst = definition.fields) :
    union (outcomes.map (part definition)) = ofOutcomes definition.uniqueFields outcomes := by
  have issues : (outcomes.map (part definition)).flatMap errors = problems outcomes := by
    rw [List.flatMap_map]
    simp only [errors_part, flatMap_problems]
  rw [union, ofOutcomes, issues]
  cases clean : problems outcomes with
  | cons issue others => rfl
  | nil =>
      have each : ∀ outcome ∈ outcomes, problems [outcome] = [] := by
        rw [← flatMap_problems] at clean
        exact List.flatMap_eq_nil_iff.mp clean
      have names : (outcomes.map fun outcome => outcome.1.name).Nodup := by
        rw [Definition.fieldNames, ← own, List.map_map] at distinct
        exact distinct
      have yields : (outcomes.map (part definition)).flatMap yielded = values outcomes := by
        rw [List.flatMap_map, values_eq_filterMap names, List.filterMap_eq_flatMap_toList]
        simp only [yielded_part]
      have unique : (outcomes.map (part definition)).flatMap uniqueFields =
          definition.uniqueFields := by
        rw [uniqueFields_eq_flatMap, ← own, List.flatMap_map, List.flatMap_map]
        exact List.flatMap_congr fun outcome member => uniqueFields_part (each outcome member)
      rw [yields, unique]

/-- The definitions with one field each validate a payload exactly when all fields have outcomes,
and they make of it what the single outcomes come to. -/
theorem forall₂_only_iff {parts : List Validation} :
    List.Forall₂ (fun field made =>
        (definition.only field).validate now (.object entries) mode = .ok made) fields parts ↔
      ∃ outcomes, fieldOutcomes now mode entries fields = .ok outcomes ∧
        parts = outcomes.map (part definition) := by
  simp only [validate_only, fieldOutcomes_eq_ok_iff]
  constructor
  · intro each
    induction each with
    | nil => exact ⟨[], .nil, rfl⟩
    | @cons field _ _ _ first _ ih =>
        obtain ⟨outcomes, rest, rfl⟩ := ih
        cases made : fieldOutcome now mode entries field with
        | error cause =>
            rw [made] at first
            cases first
        | ok outcome =>
            rw [made] at first
            cases first
            exact ⟨(field, outcome) :: outcomes, .cons ⟨rfl, made⟩ rest, rfl⟩
  · rintro ⟨outcomes, each, rfl⟩
    refine List.forall₂_map_right_iff.mpr (each.imp ?_)
    rintro field ⟨_, outcome⟩ ⟨rfl, made⟩
    rw [made]
    rfl

/-- What the payload has for a field that is not missing is taken alike in both modes. -/
theorem fieldOutcome_of_supplied {value : Value}
    (given : Entries.get? entries field.name = some value) (present : value.isMissing = false)
    (mode : Mode) : fieldOutcome now mode entries field = supplied now field value := by
  unfold fieldOutcome
  rw [given]
  simp only [present, Bool.not_false, if_true]

/-- **Validation is field by field.**  Of a definition whose fields have different names, and of
the definitions with one of its fields each: a payload is validated exactly when each of those
validates it, and comes to what these come to together; none of them finds more than one problem;
what the payload has under other names than those of the fields, and the order of its entries, does
not matter; and a value that is there is judged alike for a new record and for a change. -/
theorem validate_fieldwise (distinct : definition.fieldNames.Nodup) (now : Instant) (mode : Mode)
    (entries : Entries) :
    (∀ whole, definition.validate now (.object entries) mode = .ok whole ↔
      ∃ parts, List.Forall₂ (fun field made =>
        (definition.only field).validate now (.object entries) mode = .ok made)
          definition.fields parts ∧ whole = union parts) ∧
    (∀ field made, (definition.only field).validate now (.object entries) mode = .ok made →
      made.errors.length ≤ 1) ∧
    (∀ others : Entries, (∀ name ∈ definition.fieldNames,
        Entries.get? others name = Entries.get? entries name) →
      definition.validate now (.object others) mode =
        definition.validate now (.object entries) mode) ∧
    (∀ others : Entries, entries.Perm others → (entries.map Prod.fst).Nodup →
      definition.validate now (.object others) mode =
        definition.validate now (.object entries) mode) ∧
    ∀ field value, Entries.get? entries field.name = some value → value.isMissing = false →
      (definition.only field).validate now (.object entries) .create =
        (definition.only field).validate now (.object entries) .update := by
  have unaffected : ∀ others : Entries, (∀ name ∈ definition.fieldNames,
      Entries.get? others name = Entries.get? entries name) →
      definition.validate now (.object others) mode =
        definition.validate now (.object entries) mode := by
    intro others same
    rw [validate_object, validate_object, fieldOutcomes_congr]
    exact fun field declared => same _ (List.mem_map_of_mem declared)
  refine ⟨?_, ?_, unaffected, ?_, ?_⟩
  · intro whole
    rw [validate_object]
    simp only [forall₂_only_iff]
    constructor
    · intro done
      cases made : fieldOutcomes now mode entries definition.fields with
      | error cause =>
          rw [made] at done
          cases done
      | ok outcomes =>
          rw [made] at done
          cases done
          exact ⟨_, ⟨outcomes, rfl, rfl⟩, (union_parts distinct (fieldOutcomes_eq_ok made).1).symm⟩
    · rintro ⟨_, ⟨outcomes, made, rfl⟩, rfl⟩
      rw [made, union_parts distinct (fieldOutcomes_eq_ok made).1]
      rfl
  · intro field made done
    rw [validate_only] at done
    cases first : fieldOutcome now mode entries field with
    | error cause =>
        rw [first] at done
        cases done
    | ok outcome =>
        rw [first] at done
        cases done
        exact length_errors_part_le definition (field, outcome)
  · intro others same distinctKeys
    exact unaffected others fun name _ => Entries.get?_perm same distinctKeys name
  · intro field value given present
    rw [validate_only, validate_only, fieldOutcome_of_supplied given present,
      fieldOutcome_of_supplied given present]

/-- Goods have a title that no others have, perhaps a price, and are for sale unless they are not. -/
def goods : Definition where
  name := "goods"
  fields := [⟨"title", .string, true, true, none, none⟩, ⟨"price", .number, false, false, none, none⟩,
    ⟨"onSale", .boolean, false, false, some "true", none⟩]
  grants := .empty
  tableName := none
  ownerField := none
  createdAt := none
  updatedAt := none

/-- New goods without a title and with a word for a price have both problems, in order. -/
theorem goods_problems_collected :
    goods.fieldNames.Nodup ∧
      goods.validate ⟨0, by decide⟩
          (.object [(.text "price", .text "much"), (.text "note", .int 1)]) .create =
        .ok (union [
          .invalid [.located "MISSING_REQUIRED" "Missing required field: title" "title"],
          .invalid [.withDetail "TYPE_MISMATCH" "price must be a number" "price"
            [("type", .text "number")]],
          .valid ⟨[(.text "onSale", .bool true)], []⟩]) := by
  have distinct : goods.fieldNames.Nodup := by decide
  exact ⟨distinct, ((validate_fieldwise distinct _ .create _).1 _).mpr
    ⟨_, .cons rfl (.cons rfl (.cons rfl .nil)), rfl⟩⟩

end Validation

end GovernedRecords
