import GovernedRecords.Proofs.Definition.Check
import GovernedRecords.Proofs.Text.Digits
import GovernedRecords.Schema.Table
import Mathlib.Data.List.Forall2

/-!
# The columns of a table

The statement that creates the table of a definition without problems is always made
(`tableStatement_eq`), and each of its columns begins with a name between double quotes.  The name
can be told from the column (`Table.Declares.unique`), since a quote inside a name is written twice.

The check before a definition is saved keeps the names of the columns apart with one exception
(`columns_differ_iff`).  It reserves the stamps of a record as a record has them, `createdAt` and
`updatedAt`, but the columns of the stamps are named `created_at` and `updated_at`, and a field may
have such a name (`stamp_column_repeated`).
-/

set_option autoImplicit false

namespace GovernedRecords

namespace Table

/-! ## Names between quotes -/

/-- A text in which a mark is written twice, up to a mark that stands alone, is told from what
follows it. -/
theorem doubled_unique {mark : CodePoint} {first second rest more : Text}
    (ends : rest.head? ≠ some mark) (otherEnds : more.head? ≠ some mark)
    (same : first.replace mark [mark, mark] ++ mark :: rest =
      second.replace mark [mark, mark] ++ mark :: more) : first = second ∧ rest = more := by
  have opens : ∀ {point : CodePoint} {later rest more : Text}, rest.head? ≠ some mark →
      mark :: rest ≠ Text.replace (point :: later) mark [mark, mark] ++ mark :: more := by
    intro point later rest more ends same
    rw [Text.replace, List.flatMap_cons] at same
    split at same
    · obtain ⟨-, same⟩ := List.cons.inj same
      exact ends (by rw [same]; rfl)
    · next other => exact other (List.cons.inj same).1.symm
  induction first generalizing second with
  | nil =>
      cases second with
      | nil => exact ⟨rfl, (List.cons.inj same).2⟩
      | cons other others => exact absurd same (opens ends)
  | cons point points ih =>
      cases second with
      | nil => exact absurd same.symm (opens otherEnds)
      | cons other others =>
          simp only [Text.replace, List.flatMap_cons] at same ih
          have heads : point = other := by
            split at same <;> split at same <;> simp_all
          subst heads
          rw [List.append_assoc, List.append_assoc] at same
          obtain ⟨rfl, rest⟩ := ih (List.append_cancel_left same)
          exact ⟨rfl, rest⟩

/-- A name between quotes is told from what follows it. -/
theorem quoteName_unique {first second rest more : Text}
    (ends : rest.head? ≠ some '"') (otherEnds : more.head? ≠ some '"')
    (same : quoteName first ++ rest = quoteName second ++ more) : first = second ∧ rest = more := by
  simp only [quoteName, Text.concat, List.flatten_cons, List.flatten_nil, List.append_nil,
    List.append_assoc] at same
  exact doubled_unique ends otherEnds (List.append_cancel_left same)

/-! ## Columns -/

/-- A column declares a name: it begins with the name between double quotes, and goes on after a
blank. -/
def Declares (column name : Text) : Prop :=
  ∃ rest : Text, column = quoteName name ++ CodePoint.ofChar ' ' :: rest

/-- **A column declares one name.** -/
theorem Declares.unique {column name other : Text} (declares : Declares column name)
    (also : Declares column other) : name = other := by
  obtain ⟨rest, rfl⟩ := declares
  obtain ⟨more, same⟩ := also
  have blank : CodePoint.ofChar ' ' ≠ CodePoint.ofChar '"' := by decide
  exact (quoteName_unique (by simpa using blank) (by simpa using blank) same).1

/-- Columns declare names in one way. -/
theorem declares_unique {columns names others : List Text}
    (declare : List.Forall₂ Declares columns names) (also : List.Forall₂ Declares columns others) :
    names = others := by
  induction declare generalizing others with
  | nil =>
      cases also
      rfl
  | cons head _ ih =>
      cases also with
      | cons otherHead tail => rw [head.unique otherHead, ih tail]

/-- The statement that creates a table with some columns. -/
def creating (table : Text) (columns : List Text) : Text :=
  Text.concat ["create table if not exists ", quoteName table, " (\n  ",
    Text.join ",\n  " columns, "\n);\n"]

variable {now : Instant}

/-- A default that can be coerced is written as an expression. -/
theorem exists_defaultExpression {field : Field}
    (coerces : ∀ default, field.default = some default →
      ∃ coerced, field.type.coerce now (.text default) = .ok coerced) :
    ∃ expression, defaultExpression now field = .ok expression := by
  rw [defaultExpression]
  cases given : field.default with
  | none => exact ⟨_, rfl⟩
  | some default =>
      obtain ⟨coerced, done⟩ := coerces default given
      simp only [done]
      split
      · exact ⟨_, rfl⟩
      · split <;> exact ⟨_, rfl⟩

/-- The column of a field whose default can be coerced declares its name. -/
theorem exists_column {field : Field}
    (coerces : ∀ default, field.default = some default →
      ∃ coerced, field.type.coerce now (.text default) = .ok coerced) :
    ∃ text, column now field = .ok text ∧ Declares text field.name := by
  obtain ⟨expression, written⟩ := exists_defaultExpression coerces
  refine ⟨_, by rw [column, written]; rfl, ?_⟩
  simp only [List.flatten_cons, List.cons_append, List.nil_append, Text.join]
  exact ⟨_, List.append_assoc _ _ _⟩

/-- The columns of fields whose defaults can be coerced declare their names. -/
theorem exists_columns {fields : List Field}
    (coerces : ∀ field ∈ fields, ∀ default, field.default = some default →
      ∃ coerced, field.type.coerce now (.text default) = .ok coerced) :
    ∃ texts, columns now fields = .ok texts ∧
      List.Forall₂ Declares texts (fields.map Field.name) := by
  induction fields with
  | nil => exact ⟨[], rfl, .nil⟩
  | cons field rest ih =>
      obtain ⟨first, others⟩ := List.forall_mem_cons.mp coerces
      obtain ⟨text, written, declares⟩ := exists_column first
      obtain ⟨texts, allWritten, allDeclare⟩ := ih others
      exact ⟨text :: texts, by rw [columns, written, allWritten]; rfl, .cons declares allDeclare⟩

end Table

namespace Definition

variable {definition : Definition} {now : Instant}

/-- The owner field, if it is not declared. -/
def undeclaredOwner (definition : Definition) : List Text :=
  (definition.owner?.filter fun owner => (definition.field? owner).isNone).toList

/-- The names of the columns of the stamps. -/
def stampColumns : List Text := ["created_at", "updated_at"]

/-- The names of the columns in their order: the identifier, an owner field that is not declared,
the fields, and the two stamps. -/
def columnNames (definition : Definition) : List Text :=
  "id" :: (definition.undeclaredOwner ++ definition.fieldNames ++ stampColumns)

theorem ownerColumn_declares (definition : Definition) :
    List.Forall₂ Table.Declares definition.ownerColumn definition.undeclaredOwner := by
  rw [ownerColumn, undeclaredOwner]
  cases definition.owner? with
  | none => exact .nil
  | some owner =>
      cases declared : definition.field? owner with
      | some field => simp [declared]
      | none =>
          simp only [Option.isSome_none, Bool.false_eq_true, if_false, Option.filter, declared,
            Option.isNone_none, if_true, Option.toList]
          exact .cons ⟨_, by simp [Text.concat]; rfl⟩ .nil

/-- **The statement of a definition without problems is always made**, at any instant, and its
columns declare the names of the columns. -/
theorem tableStatement_eq (clean : definition.problems now = .ok []) (later : Instant) :
    ∃ columns, definition.tableStatement later =
        .ok (Table.creating definition.tableText columns) ∧
      List.Forall₂ Table.Declares columns definition.columnNames := by
  have coerces := (problems_eq_nil_iff.mp (problems_at clean later)).2
  obtain ⟨declared, written, declare⟩ := Table.exists_columns coerces
  refine ⟨_, by rw [tableStatement, written]; rfl, ?_⟩
  have identifier : Table.Declares "\"id\" text primary key" "id" := ⟨"text primary key", rfl⟩
  have created : Table.Declares "\"created_at\" timestamptz not null default now()" "created_at" :=
    ⟨"timestamptz not null default now()", rfl⟩
  have updated : Table.Declares "\"updated_at\" timestamptz not null default now()" "updated_at" :=
    ⟨"timestamptz not null default now()", rfl⟩
  simp only [List.flatten_cons, List.flatten_nil, List.append_nil, ← List.append_assoc]
  exact .cons identifier (List.rel_append
    (List.rel_append definition.ownerColumn_declares declare) (.cons created (.cons updated .nil)))

theorem mem_undeclaredOwner {name : Text} : name ∈ definition.undeclaredOwner ↔
    definition.owner? = some name ∧ name ∉ definition.fieldNames := by
  have undeclared : (definition.field? name).isNone = true ↔ name ∉ definition.fieldNames := by
    rw [Option.isNone_iff_eq_none, field?, List.find?_eq_none, fieldNames]
    simp
  rw [undeclaredOwner, Option.mem_toList, Option.filter_eq_some_iff, undeclared]

theorem nodup_undeclaredOwner (definition : Definition) : definition.undeclaredOwner.Nodup := by
  rw [undeclaredOwner]
  cases definition.owner?.filter fun owner => (definition.field? owner).isNone with
  | none => exact List.nodup_nil
  | some owner => exact List.nodup_singleton owner

/-- The names of the columns of a well formed definition differ unless a field is named like the
column of a stamp. -/
theorem nodup_columnNames_iff (formed : WellFormed definition) :
    definition.columnNames.Nodup ↔ ∀ name ∈ stampColumns, name ∉ definition.fieldNames := by
  -- An owner that is not declared is an identity column, and none of these is a fixed column.
  have owned : ∀ name ∈ definition.undeclaredOwner, name ∈ identityColumns := by
    intro name undeclared
    obtain ⟨owner, absent⟩ := mem_undeclaredOwner.mp undeclared
    exact (formed.owned name owner).resolve_left absent
  have unreserved : Text.ofString "id" ∉ definition.fieldNames := fun declared =>
    formed.unreserved _ declared (by decide)
  have apart : ∀ name ∈ identityColumns, name ≠ Text.ofString "id" ∧ name ∉ stampColumns := by
    decide
  have differ : (definition.undeclaredOwner ++ definition.fieldNames).Nodup :=
    List.nodup_append.mpr ⟨definition.nodup_undeclaredOwner, formed.distinct,
      fun name undeclared other declared same =>
        (mem_undeclaredOwner.mp undeclared).2 (same ▸ declared)⟩
  rw [columnNames, List.nodup_cons, List.nodup_append]
  constructor
  · rintro ⟨-, -, -, ends⟩ name stamp declared
    exact ends name (List.mem_append_right _ declared) name stamp rfl
  · intro free
    refine ⟨?_, differ, by decide, ?_⟩
    · simp only [List.mem_append, not_or]
      exact ⟨⟨fun owner => (apart _ (owned _ owner)).1 rfl, unreserved⟩, by decide⟩
    · rintro name member other stamp rfl
      rcases List.mem_append.mp member with owner | declared
      · exact (apart name (owned name owner)).2 stamp
      · exact free name stamp declared

/-- **What keeps the columns of a table apart.**  The statement of a definition without problems is
made at any instant; its columns declare the names of the columns and no other names; and these
differ unless a field is named `created_at` or `updated_at`. -/
theorem columns_differ_iff (clean : definition.problems now = .ok []) (later : Instant) :
    ∃ columns, definition.tableStatement later =
        .ok (Table.creating definition.tableText columns) ∧
      (∀ names, List.Forall₂ Table.Declares columns names ↔ names = definition.columnNames) ∧
      (definition.columnNames.Nodup ↔
        ∀ name ∈ stampColumns, name ∉ definition.fieldNames) := by
  obtain ⟨columns, made, declare⟩ := tableStatement_eq clean later
  refine ⟨columns, made, fun names => ⟨fun also => Table.declares_unique also declare, ?_⟩,
    nodup_columnNames_iff (wellFormed_of_problems clean)⟩
  rintro rfl
  exact declare

/-- An event with the instant at which it was created. -/
def eventDefinition : Definition where
  name := "event"
  fields := [⟨"created_at", .date, false, false, none, none⟩]
  grants := Grants.empty
  tableName := none
  ownerField := none
  createdAt := none
  updatedAt := none

/-- The instant at which the table of events is created. -/
def opening : Instant := ⟨63839696400000000, by decide⟩

/-- An event has no problems, and the statement for its table has two columns of one name. -/
theorem stamp_column_repeated :
    eventDefinition.problems opening = .ok [] ∧
      eventDefinition.tableStatement opening = .ok (Table.creating "event"
        ["\"id\" text primary key", "\"created_at\" timestamptz",
          "\"created_at\" timestamptz not null default now()",
          "\"updated_at\" timestamptz not null default now()"]) ∧
      eventDefinition.columnNames = ["id", "created_at", "created_at", "updated_at"] ∧
      ¬ eventDefinition.columnNames.Nodup := by
  exact ⟨rfl, rfl, rfl, by decide⟩

/-- A receipt, whose owner is not among its fields. -/
def receiptDefinition : Definition where
  name := "receipt"
  fields := [⟨"total", .number, true, false, some "0", none⟩,
    ⟨"created at \"the till\"", .date, false, false, some "now", none⟩]
  grants := Grants.empty
  tableName := some "receipts"
  ownerField := some "createdBy"
  createdAt := none
  updatedAt := none

/-- The six columns of a receipt have six names. -/
theorem receipt_columns_differ :
    receiptDefinition.problems opening = .ok [] ∧
      ∃ columns names, receiptDefinition.tableStatement opening =
          .ok (Table.creating "receipts" columns) ∧
        List.Forall₂ Table.Declares columns names ∧ names.length = 6 ∧ names.Nodup := by
  have clean : receiptDefinition.problems opening = .ok [] := rfl
  obtain ⟨columns, made, declare, differ⟩ := columns_differ_iff clean opening
  exact ⟨clean, columns, receiptDefinition.columnNames, made, (declare _).mpr rfl, rfl,
    differ.mpr (by decide)⟩

end Definition

end GovernedRecords
