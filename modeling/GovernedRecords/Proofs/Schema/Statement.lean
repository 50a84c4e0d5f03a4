import GovernedRecords.Proofs.Schema.Tokens
import GovernedRecords.Proofs.Validation.Defaults

/-!
# The statement of a table says what the definition says

The statement that creates the table of a definition is split into tokens.  These are the tokens of
one statement (`Sql.Creates`) with a column for each field (`Field.Becomes`), and nothing that
stands in a name or a default is read as more than a name or a literal
(`Definition.statement_tokens`).

Each expression for a default is read back as the default that the type of its field takes: a
literal as its text, a word as its truth value, and a numeral, maybe behind a minus sign, as the
number that it was written for.
-/

set_option autoImplicit false

namespace GovernedRecords

namespace Sql

/-! ## Statements -/

/-- The default of a column: the current instant, or a constant. -/
inductive Default where
  | now
  | constant (value : Value)

/-- A column, with the words of its type and of its constraints. -/
structure Column where
  name : Text
  type : List Text
  constraints : List Text
  default : Option Default

/-- Tokens write a default: a call, or one constant, which may have a minus sign if it is a number.
A constant has the value that is read from it. -/
inductive Default.Writes : List Token → Default → Prop where
  | now : Writes [.word "now", .mark (CodePoint.ofChar '('), .mark (CodePoint.ofChar ')')] .now
  | text (text : Text) : Writes [.literal text] (.constant (.text text))
  | bool (truth : Bool) :
      Writes [.word (if truth then "true" else "false")] (.constant (.bool truth))
  | number {numeral : Text} {number : Double} (read : Numeral.read? numeral = some number) :
      Writes [.number numeral] (.constant (.float number))
  | negative {numeral : Text} {number : Double} (read : Numeral.read? numeral = some number) :
      Writes [.mark (CodePoint.ofChar '-'), .number numeral] (.constant (.float number.negate))

/-- Tokens write the default of a column behind a word for it, or there is neither. -/
inductive Default.Ends : List Token → Option Default → Prop where
  | absent : Ends [] none
  | present {tokens : List Token} {default : Default} (written : Writes tokens default) :
      Ends (.word "default" :: tokens) (some default)

/-- Tokens write a column: its name, the words of its type and of its constraints, and its
default. -/
def Column.Writes (tokens : List Token) (column : Column) : Prop :=
  ∃ ending, Default.Ends ending column.default ∧
    tokens = .name column.name :: ((column.type ++ column.constraints).map .word ++ ending)

/-- The column of the identifier. -/
def Column.identifier : Column := ⟨"id", ["text"], ["primary", "key"], none⟩

/-- The column of an owner field that is not declared. -/
def Column.owner (name : Text) : Column := ⟨name, ["text"], ["not", "null"], none⟩

/-- The column of a stamp. -/
def Column.stamp (name : Text) : Column := ⟨name, ["timestamptz"], ["not", "null"], some .now⟩

/-- Tokens are one statement that creates a table with some columns. -/
def Creates (tokens : List Token) (table : Text) (columns : List Column) : Prop :=
  ∃ parts, List.Forall₂ Column.Writes parts columns ∧
    tokens = [.word "create", .word "table", .word "if", .word "not", .word "exists",
      .name table, .mark (CodePoint.ofChar '(')] ++
        (separated [.mark (CodePoint.ofChar ',')] parts ++
          [.mark (CodePoint.ofChar ')'), .mark (CodePoint.ofChar ';')])

/-- The name that a token is. -/
def Token.name? : Token → Option Text
  | .name text => some text
  | _ => none

/-- There is one name in a column, which is that of the column. -/
theorem Column.Writes.names {tokens : List Token} {column : Column}
    (writes : Column.Writes tokens column) : tokens.filterMap Token.name? = [column.name] := by
  obtain ⟨name, type, constraints, default⟩ := column
  obtain ⟨ending, ends, rfl⟩ := writes
  have none : ending.filterMap Token.name? = [] := by
    cases ends with
    | absent => rfl
    | present written => cases written <;> rfl
  have words : ∀ texts : List Text, (texts.map Token.word).filterMap Token.name? = [] := by
    intro texts
    simp [List.filterMap_map, Function.comp_def, Token.name?]
  rw [List.filterMap_cons, List.filterMap_append, words, none]
  rfl

theorem names_separated {parts : List (List Token)} {columns : List Column} (mark : CodePoint)
    (writes : List.Forall₂ Column.Writes parts columns) :
    (separated [.mark mark] parts).filterMap Token.name? = columns.map Column.name := by
  induction writes with
  | nil => rfl
  | cons first rest ih =>
      cases rest with
      | nil => exact first.names
      | cons second rest =>
          rw [separated, List.filterMap_append, first.names, List.singleton_append,
            List.filterMap_append, ih]
          rfl

/-- The names in a statement are those of the table and of its columns. -/
theorem Creates.names {tokens : List Token} {table : Text} {columns : List Column}
    (creates : Creates tokens table columns) :
    tokens.filterMap Token.name? = table :: columns.map Column.name := by
  obtain ⟨parts, writes, rfl⟩ := creates
  rw [List.filterMap_append, List.filterMap_append, names_separated _ writes]
  exact congrArg (table :: ·) (List.append_nil _)

end Sql

/-! ## The columns of a definition -/

/-- The words of a field type. -/
def FieldType.words : FieldType → List Text
  | .string => ["text"]
  | .text => ["text"]
  | .number => ["double", "precision"]
  | .boolean => ["boolean"]
  | .date => ["timestamptz"]

/-- The words of the constraints of a field. -/
def Field.constraintWords (field : Field) : List Text :=
  let required : List Text := if field.required then ["not", "null"] else []
  let unique : List Text := if field.unique then ["unique"] else []
  required ++ unique

/-- What the default of a field becomes: nothing without one, the current instant for the word for
it in a date field, and else the value that the type takes it for. -/
inductive Field.DefaultAt (now : Instant) (field : Field) : Option Sql.Default → Prop where
  | absent (missing : field.default = none) : DefaultAt now field none
  | now {default : Text} (given : field.default = some default) (date : field.type = .date)
      (word : Coercion.isNow default = true) : DefaultAt now field (some .now)
  | constant {default : Text} {value : Value} (given : field.default = some default)
      (other : field.type = .date → Coercion.isNow default = false)
      (coerced : field.type.coerce now (.text default) = .ok value) :
      DefaultAt now field (some (.constant value))

/-- The column of a field. -/
structure Field.Becomes (now : Instant) (field : Field) (column : Sql.Column) : Prop where
  name : column.name = field.name
  type : column.type = field.type.words
  constraints : column.constraints = field.constraintWords
  default : field.DefaultAt now column.default

/-- The columns of the table: the identifier, an owner field that is not declared, the fields, and
the two stamps. -/
def Definition.Becomes (now : Instant) (definition : Definition) (columns : List Sql.Column) :
    Prop :=
  ∃ declared, List.Forall₂ (Field.Becomes now) definition.fields declared ∧
    columns = .identifier ::
      (definition.undeclaredOwner.map .owner ++ declared ++ Definition.stampColumns.map .stamp)

open Sql

namespace Table

variable {now : Instant} {field : Field}

theorem reads_words {words : List Text} (proper : ∀ word ∈ words, isWord word = true) :
    Reads (Text.join " " words) (words.map .word) := by
  have parts : List.Forall₂ Reads words (words.map fun word => [.word word]) := by
    rw [List.forall₂_map_right_iff, List.forall₂_same]
    exact fun word member => reads_word (proper word member)
  have read := Reads.join_blank parts
  rwa [← List.flatMap_def, ← List.map_eq_flatMap] at read

theorem reads_columnType (type : FieldType) :
    Reads (columnType type) (type.words.map .word) := by
  have joined : columnType type = Text.join " " type.words := by cases type <;> rfl
  have proper : type.words.all isWord = true := by cases type <;> rfl
  rw [joined]
  exact reads_words (List.all_eq_true.mp proper)

/-- A call for the current instant. -/
theorem reads_now : Reads "now()" [.word "now", .mark (CodePoint.ofChar '('),
    .mark (CodePoint.ofChar ')')] := by
  have called : Reads "()" [.mark (CodePoint.ofChar '('), .mark (CodePoint.ofChar ')')] :=
    .mark_cons rfl (fun _ => rfl) (.mark_cons rfl (fun _ => rfl) .nil)
  have word : Reads "now" [.word "now"] := reads_word rfl
  exact word.append called (breaks_cons rfl _) (List.cons_ne_nil _ _)

/-- The numeral of a number that was read is read as tokens that write the number. -/
theorem reads_toText {number : Double} {text : Text} (finite : number.isFinite = true)
    (read : Numeral.read? text = some number) :
    ∃ tokens, Reads number.toText tokens ∧ Default.Writes tokens (.constant (.float number)) := by
  cases number with
  | nan => cases finite
  | infinity negative => cases finite
  | finite negative significand exponent =>
      obtain ⟨layout, proper, same, written⟩ :=
        Double.exists_layout negative (Numeral.canonical_of_read? read)
      rw [written]
      cases negative with
      | false => exact ⟨_, reads_numeral proper, .number same⟩
      | true => exact ⟨_, reads_negative proper, .negative same⟩

/-- A number that a text is coerced to was read from it. -/
theorem read?_of_coerce {text : Text} {number : Double}
    (done : FieldType.number.coerce now (.text text) = .ok (.float number)) :
    Numeral.read? text.trim = some number := by
  simp only [FieldType.coerce, Coercion.number] at done
  cases read : Numeral.read? text.trim with
  | none =>
      rw [read] at done
      cases done
  | some double =>
      simp only [read, Coercion.finite] at done
      split at done
      · cases done
        rfl
      · cases done

/-- The expression for a default is read as tokens that write what it becomes. -/
theorem reads_defaultExpression (taken : field.TakesDefault now) :
    (field.default = none ∧ defaultExpression now field = .ok none) ∨
      ∃ text tokens default, defaultExpression now field = .ok (some text) ∧ Reads text tokens ∧
        Default.Writes tokens default ∧ field.DefaultAt now (some default) := by
  rw [defaultExpression]
  cases given : field.default with
  | none => exact .inl ⟨rfl, rfl⟩
  | some default =>
      right
      obtain ⟨value, coerced⟩ := taken default given
      by_cases word : field.type = .date ∧ Coercion.isNow default = true
      · obtain ⟨date, named⟩ := word
        refine ⟨_, _, _, ?_, reads_now, .now, .now given date named⟩
        simp only [date, named, decide_true, Bool.and_self, if_true]
      · have other : (decide (field.type = .date) && Coercion.isNow default) = false := by
          rw [← Bool.not_eq_true, Bool.and_eq_true, decide_eq_true_eq]
          exact word
        have unnamed : field.type = .date → Coercion.isNow default = false :=
          fun date => Bool.eq_false_iff.mpr fun named => word ⟨date, named⟩
        have becomes := Field.DefaultAt.constant given unnamed coerced
        simp only [other, Bool.false_eq_true, if_false, coerced]
        cases type : field.type with
        | string =>
            rw [type] at coerced
            cases coerced
            exact ⟨_, _, _, rfl, reads_quoteLiteral default, .text default, becomes⟩
        | text =>
            rw [type] at coerced
            cases coerced
            exact ⟨_, _, _, rfl, reads_quoteLiteral default, .text default, becomes⟩
        | number =>
            rw [type] at coerced
            obtain ⟨-, number, rfl, finite⟩ := FieldType.coerce_eq_ok rfl coerced
            obtain ⟨tokens, reads, writes⟩ := reads_toText finite (read?_of_coerce coerced)
            exact ⟨_, _, _, rfl, reads, writes, becomes⟩
        | boolean =>
            rw [type] at coerced
            obtain ⟨-, truth, rfl⟩ := FieldType.coerce_eq_ok rfl coerced
            cases truth with
            | true => exact ⟨_, _, _, rfl, reads_word rfl, .bool true, becomes⟩
            | false => exact ⟨_, _, _, rfl, reads_word rfl, .bool false, becomes⟩
        | date =>
            rw [type] at coerced
            obtain ⟨-, instant, rfl⟩ := FieldType.coerce_eq_ok rfl coerced
            exact ⟨_, _, _, rfl, reads_quoteLiteral instant.stamp, .text instant.stamp, becomes⟩

theorem reads_flag {piece : Text} {tokens : List Token} (flag : Bool) (read : Reads piece tokens) :
    List.Forall₂ Reads (if flag then [piece] else []) (if flag then [tokens] else []) := by
  cases flag with
  | false => exact .nil
  | true => exact .cons read .nil

theorem reads_notNull : Reads "not null" [.word "not", .word "null"] := by
  have joined : Text.ofString "not null" = Text.join " " ["not", "null"] := rfl
  rw [joined]
  exact .join_blank (.cons (reads_word rfl) (.cons (reads_word rfl) .nil))

theorem reads_default {text : Text} {tokens : List Token} (read : Reads text tokens) :
    Reads (Text.concat ["default ", text]) (.word "default" :: tokens) := by
  have joined : Text.concat ["default ", text] = Text.join " " ["default", text] := by
    simp [Text.concat, Text.join]
    rfl
  have word : Reads "default" [.word "default"] := reads_word rfl
  have both := Reads.join_blank (.cons word (.cons read .nil))
  rw [joined]
  rwa [List.flatten_cons, List.flatten_cons, List.flatten_nil, List.append_nil] at both

/-- A text is read as tokens that write a column. -/
def ReadsAs (text : Text) (column : Column) : Prop :=
  ∃ tokens, Reads text tokens ∧ column.Writes tokens

/-- The column of a field is read as what the field becomes. -/
theorem readsAs_column (taken : field.TakesDefault now) :
    ∃ text columned, column now field = .ok text ∧ ReadsAs text columned ∧
      field.Becomes now columned := by
  -- The default is one more piece behind the others, or none.
  obtain ⟨expression, ending, default, written, reads, ends, becomes⟩ :
      ∃ expression ending default, defaultExpression now field = .ok expression ∧
        List.Forall₂ Reads (expression.map fun text => Text.concat ["default ", text]).toList
          ending ∧ Default.Ends ending.flatten default ∧ field.DefaultAt now default := by
    rcases reads_defaultExpression taken with ⟨missing, written⟩ |
      ⟨text, tokens, default, written, reads, writes, becomes⟩
    · exact ⟨_, [], none, written, .nil, .absent, .absent missing⟩
    · refine ⟨_, [.word "default" :: tokens], some default, written, ?_, ?_, becomes⟩
      · exact .cons (reads_default reads) .nil
      · rw [List.flatten_cons, List.flatten_nil, List.append_nil]
        exact .present writes
  have unique : Reads "unique" [.word "unique"] := reads_word rfl
  have pieces := List.rel_append (.cons (reads_quoteName field.name)
    (.cons (reads_columnType field.type) .nil)) (List.rel_append
      (reads_flag field.required reads_notNull)
      (List.rel_append (reads_flag field.unique unique) reads))
  refine ⟨_, ⟨field.name, field.type.words, field.constraintWords, default⟩,
    by rw [column, written]; rfl, ⟨_, ?_, ending.flatten, ends, rfl⟩, ⟨rfl, rfl, rfl, becomes⟩⟩
  convert Reads.join_blank pieces using 1
  · simp only [List.flatten_cons, List.flatten_nil, List.append_nil]
  · rw [Field.constraintWords]
    cases field.required <;> cases field.unique <;> simp

/-- The columns of fields are read as what the fields become. -/
theorem readsAs_columns {fields : List Field} (taken : ∀ field ∈ fields, field.TakesDefault now) :
    ∃ texts columned, columns now fields = .ok texts ∧ List.Forall₂ ReadsAs texts columned ∧
      List.Forall₂ (Field.Becomes now) fields columned := by
  induction fields with
  | nil => exact ⟨[], [], rfl, .nil, .nil⟩
  | cons field rest ih =>
      obtain ⟨first, others⟩ := List.forall_mem_cons.mp taken
      obtain ⟨text, columned, written, reads, becomes⟩ := readsAs_column first
      obtain ⟨texts, allColumned, allWritten, allRead, allBecome⟩ := ih others
      exact ⟨text :: texts, columned :: allColumned, by rw [columns, written, allWritten]; rfl,
        .cons reads allRead, .cons becomes allBecome⟩

/-- A name with words after it. -/
theorem reads_named (name : Text) {words : List Text} (proper : words.all isWord = true) :
    Reads (quoteName name ++ CodePoint.ofChar ' ' :: Text.join " " words)
      (.name name :: words.map .word) := by
  have read := reads_words (List.all_eq_true.mp proper)
  exact (reads_quoteName name).append (.space_cons rfl read) (breaks_cons rfl _)
    (List.cons_ne_nil _ _)

theorem readsAs_identifier : ReadsAs "\"id\" text primary key" .identifier := by
  have words : List.all (["text", "primary", "key"] : List Text) isWord = true := rfl
  exact ⟨_, reads_named "id" words, [], .absent, rfl⟩

theorem readsAs_owner (name : Text) :
    ReadsAs (Text.concat [quoteName name, " text not null"]) (.owner name) := by
  have words : List.all (["text", "not", "null"] : List Text) isWord = true := rfl
  have read := reads_named name words
  refine ⟨_, ?_, [], .absent, rfl⟩
  simp only [Text.concat, List.flatten_cons, List.flatten_nil, List.append_nil]
  exact read

theorem readsAs_stamp (name : Text) :
    ReadsAs (Text.join " " [quoteName name, "timestamptz", "not null", "default now()"])
      (.stamp name) := by
  have type : Reads "timestamptz" [.word "timestamptz"] := reads_word rfl
  have default : Reads "default now()" _ := reads_default reads_now
  exact ⟨_, .join_blank (.cons (reads_quoteName name) (.cons type (.cons reads_notNull
    (.cons default .nil)))), _, .present .now, rfl⟩

/-- A statement is read as tokens that create the table with the columns that its columns are read
as. -/
theorem reads_creating (table : Text) {texts : List Text} {columned : List Column}
    (read : List.Forall₂ ReadsAs texts columned) :
    ∃ tokens, Reads (creating table texts) tokens ∧ Creates tokens table columned := by
  obtain ⟨parts, reads, writes⟩ : ∃ parts, List.Forall₂ Reads texts parts ∧
      List.Forall₂ Column.Writes parts columned := by
    induction read with
    | nil => exact ⟨[], .nil, .nil⟩
    | cons first _ ih =>
        obtain ⟨tokens, reads, writes⟩ := first
        obtain ⟨parts, allRead, allWrite⟩ := ih
        exact ⟨tokens :: parts, .cons reads allRead, .cons writes allWrite⟩
  have closing : Reads "\n);\n" [.mark (CodePoint.ofChar ')'), .mark (CodePoint.ofChar ';')] :=
    .space_cons rfl (.mark_cons rfl (fun _ => rfl) (.mark_cons rfl (fun _ => rfl)
      (.space_cons rfl .nil)))
  have body := (Reads.join_comma reads).append closing (breaks_cons rfl _) (List.cons_ne_nil _ _)
  have opened : Reads (" (\n  " ++ (Text.join ",\n  " texts ++ "\n);\n"))
      (.mark (CodePoint.ofChar '(') :: _) :=
    .space_cons rfl (.mark_cons rfl (fun _ => rfl)
      (.space_cons rfl (.space_cons rfl (.space_cons rfl body))))
  have named := (reads_quoteName table).append opened (breaks_cons rfl _) (List.cons_ne_nil _ _)
  have spaced : Reads (CodePoint.ofChar ' ' :: _) _ := named.space_cons rfl
  have verb : List.all (["create", "table", "if", "not", "exists"] : List Text) isWord = true := rfl
  have whole := (reads_words (List.all_eq_true.mp verb)).append spaced (breaks_cons rfl _)
    (List.cons_ne_nil _ _)
  have text : creating table texts =
      Text.join " " ["create", "table", "if", "not", "exists"] ++ CodePoint.ofChar ' ' ::
        (quoteName table ++ (" (\n  " ++ (Text.join ",\n  " texts ++ "\n);\n"))) := by
    simp [creating, Text.concat]
    rfl
  rw [text]
  exact ⟨_, whole, parts, writes, rfl⟩

end Table

namespace Definition

variable {definition : Definition} {now : Instant}

/-- The owner field that is not declared is read as its column. -/
theorem readsAs_ownerColumn (definition : Definition) :
    List.Forall₂ Table.ReadsAs definition.ownerColumn
      (definition.undeclaredOwner.map .owner) := by
  rw [ownerColumn, undeclaredOwner]
  cases definition.owner? with
  | none => exact .nil
  | some owner =>
      cases declared : definition.field? owner with
      | some field => simp [declared]
      | none =>
          simp only [Option.isSome_none, Bool.false_eq_true, if_false, Option.filter, declared,
            Option.isNone_none, if_true, Option.toList]
          exact .cons (Table.readsAs_owner owner) .nil

/-- The statement of a definition whose defaults are taken is read as tokens that create the table
with the columns that the definition becomes. -/
theorem reads_tableStatement (taken : ∀ field ∈ definition.fields, field.TakesDefault now) :
    ∃ statement tokens columns, definition.tableStatement now = .ok statement ∧
      Reads statement tokens ∧ Creates tokens definition.tableText columns ∧
      definition.Becomes now columns := by
  obtain ⟨texts, columned, written, read, becomes⟩ := Table.readsAs_columns taken
  have stamps : List.Forall₂ Table.ReadsAs
      ["\"created_at\" timestamptz not null default now()",
        "\"updated_at\" timestamptz not null default now()"] (stampColumns.map .stamp) :=
    .cons (Table.readsAs_stamp "created_at") (.cons (Table.readsAs_stamp "updated_at") .nil)
  have all := List.Forall₂.cons Table.readsAs_identifier (List.rel_append (List.rel_append
    definition.readsAs_ownerColumn read) stamps)
  obtain ⟨tokens, reads, creates⟩ := Table.reads_creating definition.tableText all
  refine ⟨_, tokens, _, ?_, reads, creates, columned, becomes, rfl⟩
  rw [tableStatement, written]
  simp only [bind, Except.bind, List.flatten_cons, List.flatten_nil, List.append_nil,
    List.append_assoc, List.singleton_append]
  rfl

/-- The columns have the names of the columns of the table. -/
theorem Becomes.names {columns : List Column} (becomes : definition.Becomes now columns) :
    columns.map Column.name = definition.columnNames := by
  obtain ⟨declared, each, rfl⟩ := becomes
  have fields : declared.map Column.name = definition.fieldNames := by
    rw [fieldNames]
    generalize definition.fields = fields at each
    induction each with
    | nil => rfl
    | cons first _ ih => rw [List.map_cons, List.map_cons, first.name, ih]
  have owner : Column.name ∘ Column.owner = id := rfl
  have stamp : Column.name ∘ Column.stamp = id := rfl
  rw [List.map_cons, List.map_append, List.map_append, List.map_map, List.map_map, fields, owner,
    stamp, List.map_id, List.map_id, columnNames]
  rfl

/-- **Nothing in a definition is read as more than it is.**  The statement of a definition without
problems is made at any instant, and it is split into the tokens of one statement that creates a
table, with no comment, whatever code points the names and defaults hold.  The names among the
tokens are that of the table and those of the columns in their order, and the constants are the
defaults as the fields take them. -/
theorem statement_tokens (clean : definition.problems now = .ok []) (later : Instant) :
    ∃ statement tokens columns, definition.tableStatement later = .ok statement ∧
      Sql.tokens? statement = some tokens ∧ Creates tokens definition.tableText columns ∧
      definition.Becomes later columns ∧
      tokens.filterMap Token.name? = definition.tableText :: definition.columnNames := by
  obtain ⟨statement, tokens, columns, made, reads, creates, becomes⟩ :=
    reads_tableStatement (takesDefault_of_problems clean later)
  refine ⟨statement, tokens, columns, made, reads.tokens?, creates, becomes, ?_⟩
  rw [creates.names, becomes.names]

/-- Posts, whose names and defaults look like parts of a statement. -/
def post : Definition where
  name := "post"
  fields := [⟨"title\"\n, (", .string, true, true, some "');--\\", none⟩,
    ⟨"score\" text); --", .number, false, false, some " -1e-7", none⟩]
  grants := .empty
  tableName := some "posts\"; drop table \"users"
  ownerField := some "createdBy"
  createdAt := none
  updatedAt := none

/-- The statement for posts has the names of one table and of its six columns. -/
theorem post_statement_tokens :
    post.problems opening = .ok [] ∧ ∃ statement tokens columns,
      post.tableStatement opening = .ok statement ∧ Sql.tokens? statement = some tokens ∧
        Creates tokens "posts\"; drop table \"users" columns ∧ post.Becomes opening columns ∧
        tokens.filterMap Token.name? = ["posts\"; drop table \"users", "id", "createdBy",
          "title\"\n, (", "score\" text); --", "created_at", "updated_at"] := by
  have clean : post.problems opening = .ok [] := rfl
  exact ⟨clean, statement_tokens clean opening⟩

end Definition

end GovernedRecords
