import GovernedRecords.Proofs.Entries
import GovernedRecords.Proofs.Json.Strings
import GovernedRecords.Proofs.Text.Plain
import GovernedRecords.Value.Copy
import Mathlib.Data.List.Forall2

/-!
# Documents in JSON are read back

A plain value is built from null, truth values, texts without surrogates, lists, and objects
whose keys are different texts.  A style is readable when nothing but blanks stands around its
commas and colons and code points stand for themselves.

What a readable style writes for a plain value is read as that value (`read_write`).  The
induction is on the value; it shows more of the written text than the end result needs, namely
that the value is read from any longer text that begins with it (`Reads`).
-/

set_option autoImplicit false

namespace GovernedRecords

mutual
/-- Whether a value is built from null, truth values, texts without surrogates, lists, and
objects whose keys are different texts. -/
def Value.IsPlain : Value → Prop
  | .null => True
  | .bool _ => True
  | .text characters => characters.IsPlain
  | .list items => Value.ArePlain items
  | .object entries => Entries.ArePlain entries
  | _ => False

/-- Whether all values of a list are plain. -/
def Value.ArePlain : List Value → Prop
  | [] => True
  | first :: rest => first.IsPlain ∧ Value.ArePlain rest

/-- Whether all entries have plain keys, no key twice, and plain values. -/
def Entries.ArePlain : List (Value × Value) → Prop
  | [] => True
  | (key, value) :: rest =>
    (∃ name, key = .text name ∧ name.IsPlain ∧ Entries.get? rest name = none) ∧
      value.IsPlain ∧ Entries.ArePlain rest
end

namespace Json

/-- Only blanks stand around the commas and colons of a style, and it escapes no more than JSON
asks for. -/
structure Style.Readable (style : Style) : Prop where
  items : ∃ blanks, style.itemEnd = CodePoint.ofChar ',' :: blanks ∧ ∀ each ∈ blanks, isBlank each
  keys : ∃ blanks, style.keyEnd = CodePoint.ofChar ':' :: blanks ∧ ∀ each ∈ blanks, isBlank each
  whole : style.asciiOnly = false

theorem indented_readable : Style.indented.Readable where
  items := ⟨[], rfl, List.forall_mem_nil _⟩
  keys := ⟨[CodePoint.ofChar ' '], rfl, List.forall_mem_singleton.mpr (by decide)⟩
  whole := rfl

/-- A value is read from any text that begins with a written one, given steps and depth
enough. -/
structure Reads (value : Value) (written : Text) : Prop where
  begins : ∃ first rest, written = first :: rest ∧ isBlank first = false ∧
    first ≠ CodePoint.ofChar ']'
  plain : written.IsPlain
  read : ∀ (bound : Nat) (limits : Limits) (rest : Text), value.nesting ≤ limits.depth →
    written.length ≤ bound → readValue bound limits (written ++ rest) = .ok (value, rest)

/-! ## Blanks -/

theorem skipBlanks_append {blanks : Text} (blank : ∀ each ∈ blanks, isBlank each) (rest : Text) :
    skipBlanks (blanks ++ rest) = skipBlanks rest := by
  rw [skipBlanks, List.dropWhile_append_of_pos blank]
  rfl

theorem skipBlanks_cons {first : CodePoint} (dark : isBlank first = false) (rest : Text) :
    skipBlanks (first :: rest) = first :: rest :=
  List.dropWhile_cons_of_neg (by simp [dark])

theorem Reads.skipBlanks {value : Value} {written : Text} (reads : Reads value written)
    (rest : Text) : skipBlanks (written ++ rest) = written ++ rest := by
  obtain ⟨first, others, rfl, dark, -⟩ := reads.begins
  exact skipBlanks_cons dark _

theorem isBlank_lineBreak (style : Style) (level : Nat) :
    ∀ each ∈ lineBreak style level, isBlank each := by
  intro each member
  rw [lineBreak] at member
  split at member
  · cases member
  · rcases List.mem_cons.mp member with rfl | later
    · decide
    · rw [(List.mem_replicate.mp later).2]
      decide

/-! ## Scalars -/

theorem reads_null : Reads .null "null" where
  begins := ⟨_, _, rfl, by decide, by decide⟩
  plain := Text.any_isSurrogate_eq_false.mp (by decide)
  read bound limits rest _ long := by
    cases bound with
    | zero => cases long
    | succ bound => rfl

theorem reads_bool (truth : Bool) : Reads (.bool truth) (if truth then "true" else "false") where
  begins := by cases truth <;> exact ⟨_, _, rfl, by decide, by decide⟩
  plain := by cases truth <;> exact Text.any_isSurrogate_eq_false.mp (by decide)
  read bound limits rest _ long := by
    cases bound with
    | zero => cases truth <;> cases long
    | succ bound => cases truth <;> rfl

theorem isSurrogate_of_shortEscape? {letter point : CodePoint}
    (short : shortEscape? letter = some point) : letter.isSurrogate = false := by
  have one : letter = CodePoint.ofChar '"' ∨ letter = CodePoint.ofChar '\\' ∨
      letter = CodePoint.ofChar '/' ∨ letter = CodePoint.ofChar 'b' ∨
      letter = CodePoint.ofChar 'f' ∨ letter = CodePoint.ofChar 'n' ∨
      letter = CodePoint.ofChar 'r' ∨ letter = CodePoint.ofChar 't' := by
    simp only [shortEscape?, Bool.or_eq_true, decide_eq_true_eq] at short
    grind
  rcases one with rfl | rfl | rfl | rfl | rfl | rfl | rfl | rfl <;>
    exact CodePoint.isSurrogate_ofChar _

theorem isPlain_writePoint {point : CodePoint} (plain : point.isSurrogate = false) :
    Text.IsPlain (writePoint false point) := by
  rw [← Text.any_isSurrogate_eq_false]
  rcases writePoint_cases point with ⟨_, short, written⟩ | ⟨_, written⟩ | ⟨_, _, _, written⟩
  · rw [written]
    simp only [List.any_cons, List.any_nil, CodePoint.isSurrogate_ofChar,
      isSurrogate_of_shortEscape? short, Bool.or_self]
  · rw [written, unitEscape]
    simp only [Text.hex, List.nil_append, List.cons_append, List.any_cons, List.any_nil,
      CodePoint.isSurrogate_ofChar, Text.isSurrogate_hexDigit, Bool.or_self]
  · rw [written]
    simp only [List.any_cons, List.any_nil, plain, Bool.or_self]

theorem isPlain_writeString {text : Text} (plain : text.IsPlain) :
    Text.IsPlain (writeString false text) := by
  intro point member
  simp only [writeString, List.mem_cons, List.mem_append, List.mem_flatMap, List.not_mem_nil,
    or_false] at member
  rcases member with rfl | ⟨origin, inText, inWritten⟩ | rfl
  · exact CodePoint.isSurrogate_ofChar _
  · exact isPlain_writePoint (plain origin inText) point inWritten
  · exact CodePoint.isSurrogate_ofChar _

theorem reads_text {text : Text} (plain : text.IsPlain) :
    Reads (.text text) (writeString false text) where
  begins := ⟨_, _, rfl, by decide, by decide⟩
  plain := isPlain_writeString plain
  read bound limits rest _ long := by
    cases bound with
    | zero => cases long
    | succ bound =>
        rw [writeString, List.cons_append, List.append_assoc, List.singleton_append, readValue,
          if_pos rfl, readString_flatMap]
        rfl

/-! ## Lists -/

theorem inside?_of_lt {limits : Limits} {nesting : Nat} (deep : nesting + 1 ≤ limits.depth) :
    ∃ inside, limits.inside? = some inside ∧ nesting ≤ inside.depth := by
  rw [Limits.inside?]
  cases depth : limits.depth with
  | zero => omega
  | succ depth => exact ⟨_, rfl, by simp only; omega⟩

/-- Several texts with a separator begin like the first of them. -/
theorem join_cons (separator first : Text) (others : List Text) :
    ∃ rest, Text.join separator (first :: others) = first ++ rest := by
  cases others with
  | nil => exact ⟨[], (List.append_nil first).symm⟩
  | cons second others =>
      exact ⟨separator ++ Text.join separator (second :: others), by
        rw [Text.join, List.append_assoc]⟩

/-- A joined text begins like its first part, so no blank is passed over before it either. -/
theorem skipBlanks_join {first : Text}
    (dense : ∀ rest, skipBlanks (first ++ rest) = first ++ rest) (separator : Text)
    (others : List Text) (rest : Text) :
    skipBlanks (Text.join separator (first :: others) ++ rest) =
      Text.join separator (first :: others) ++ rest := by
  obtain ⟨more, starts⟩ := join_cons separator first others
  rw [starts, List.append_assoc, dense]

/-- Written items with commas between them are read up to the bracket that closes the list. -/
theorem readItems_join {items : List Value} {written : List Text}
    (reads : List.Forall₂ Reads items written) (present : items ≠ []) {comma gap : Text}
    (blank : ∀ each ∈ comma, isBlank each) (last : ∀ each ∈ gap, isBlank each) {bound : Nat}
    {limits : Limits} (deep : Value.nestingOfItems items ≤ limits.depth)
    (long : (Text.join (CodePoint.ofChar ',' :: comma) written).length < bound) (rest : Text) :
    readItems bound limits (Text.join (CodePoint.ofChar ',' :: comma) written ++
      (gap ++ CodePoint.ofChar ']' :: rest)) = .ok (items, rest) := by
  have dark : isBlank (CodePoint.ofChar ']') = false := by decide
  have comma_dark : isBlank (CodePoint.ofChar ',') = false := by decide
  have other : CodePoint.ofChar ',' ≠ CodePoint.ofChar ']' := by decide
  induction reads generalizing bound with
  | nil => exact absurd rfl present
  | @cons item text items texts head tail ih =>
      obtain ⟨bound, rfl⟩ : ∃ below, bound = below + 1 := ⟨bound - 1, by omega⟩
      rw [Value.nestingOfItems] at deep
      have itemDeep : item.nesting ≤ limits.depth := by omega
      cases tail with
      | nil =>
          rw [Text.join] at long ⊢
          rw [readItems, head.read bound limits _ itemDeep (by omega)]
          simp only [skipBlanks_append last, skipBlanks_cons dark, if_true]
      | @cons second secondText later laterTexts next others =>
          rw [Text.join] at long ⊢
          simp only [List.length_append, List.length_cons] at long
          have laterRead := @ih (by simp) bound (by omega) (by omega)
          rw [readItems, List.append_assoc, List.append_assoc,
            head.read bound limits _ itemDeep (by omega)]
          simp only [List.cons_append, skipBlanks_cons comma_dark, other, if_false, if_true,
            skipBlanks_append blank]
          rw [skipBlanks_join next.skipBlanks, laterRead]
          rfl

theorem isPlain_of_isBlank {blanks : Text} (blank : ∀ each ∈ blanks, isBlank each) :
    blanks.IsPlain := by
  intro point member
  have small := blank point member
  simp only [isBlank, Bool.or_eq_true, decide_eq_true_eq] at small
  rw [Utf8.isSurrogate_eq_false]
  omega

/-- What a readable style writes between brackets: blanks, then the parts with a comma and
blanks between them, then blanks. -/
theorem bracket_eq {style : Style} (readable : style.Readable) (level : Nat)
    (opening closing : Text) {written : List Text} (present : written ≠ []) :
    ∃ comma start gap : Text, (∀ each ∈ comma, isBlank each) ∧ (∀ each ∈ start, isBlank each) ∧
      (∀ each ∈ gap, isBlank each) ∧
      bracket style level opening closing written =
        opening ++ (start ++ (Text.join (CodePoint.ofChar ',' :: comma) written ++
          (gap ++ closing))) := by
  obtain ⟨blanks, comma, blank⟩ := readable.items
  have broken := isBlank_lineBreak style
  refine ⟨blanks ++ lineBreak style (level + 1), _, _, ?_, broken (level + 1), broken level, ?_⟩
  · intro each member
    rcases List.mem_append.mp member with inBlanks | inBreak
    · exact blank each inBlanks
    · exact broken _ each inBreak
  · cases written with
    | nil => exact absurd rfl present
    | cons first others => simp [bracket, Text.concat, comma]

/-- A text in brackets begins with the opening mark and ends, before what follows, with the closing
one. -/
theorem bracket_append {style : Style} (readable : style.Readable) (level : Nat)
    (opening closing : Char) {written : List Text} (present : written ≠ []) :
    ∃ comma start gap : Text, (∀ each ∈ comma, isBlank each) ∧ (∀ each ∈ start, isBlank each) ∧
      (∀ each ∈ gap, isBlank each) ∧ ∀ rest,
        bracket style level [.ofChar opening] [.ofChar closing] written ++ rest =
          CodePoint.ofChar opening ::
            (start ++ (Text.join (CodePoint.ofChar ',' :: comma) written ++
              (gap ++ CodePoint.ofChar closing :: rest))) := by
  obtain ⟨comma, start, gap, blank, first, last, whole⟩ :=
    bracket_eq readable level [.ofChar opening] [.ofChar closing] present
  refine ⟨comma, start, gap, blank, first, last, fun rest => ?_⟩
  rw [whole]
  simp

/-- What stands between brackets is shorter by both of them. -/
theorem length_lt_of_bracket {whole start joined gap rest : Text} {opening closing : CodePoint}
    (text : whole ++ rest = opening :: (start ++ (joined ++ (gap ++ closing :: rest))))
    {bound : Nat} (long : whole.length ≤ bound) :
    ∃ below, bound = below + 1 ∧ joined.length < below := by
  have lengths := congrArg List.length text
  simp only [List.length_append, List.length_cons] at lengths
  exact ⟨bound - 1, by omega, by omega⟩

/-- A text with brackets around plain parts is plain. -/
theorem isPlain_bracket {style : Style} (readable : style.Readable) (level : Nat)
    {opening closing : Text} (opens : opening.IsPlain) (closes : closing.IsPlain)
    {written : List Text} (plains : ∀ each ∈ written, each.IsPlain) :
    (bracket style level opening closing written).IsPlain := by
  by_cases present : written = []
  · subst present
    simpa [bracket, Text.concat] using opens.append closes
  · obtain ⟨comma, start, gap, blank, first, last, whole⟩ :=
      bracket_eq readable level opening closing present
    have mark : Text.IsPlain [CodePoint.ofChar ','] := List.forall_mem_singleton.mpr (by decide)
    rw [whole]
    exact opens.append ((isPlain_of_isBlank first).append
      ((Text.isPlain_join (mark.append (isPlain_of_isBlank blank)) plains).append
        ((isPlain_of_isBlank last).append closes)))

theorem forall_isPlain_of_reads {items : List Value} {written : List Text}
    (reads : List.Forall₂ Reads items written) : ∀ each ∈ written, each.IsPlain := by
  induction reads with
  | nil => exact List.forall_mem_nil _
  | cons head tail ih => exact List.forall_mem_cons.mpr ⟨head.plain, ih⟩

theorem reads_list {items : List Value} {written : List Text}
    (reads : List.Forall₂ Reads items written) {style : Style} (readable : style.Readable)
    (level : Nat) : Reads (.list items) (bracket style level "[" "]" written) where
  begins := by
    cases written <;> exact ⟨_, _, rfl, by decide, by decide⟩
  plain := isPlain_bracket readable level (Text.any_isSurrogate_eq_false.mp (by decide))
    (Text.any_isSurrogate_eq_false.mp (by decide)) (forall_isPlain_of_reads reads)
  read bound limits rest deep long := by
    have quote : CodePoint.ofChar '[' ≠ CodePoint.ofChar '"' := by decide
    obtain ⟨inside, entered, innerDeep⟩ := inside?_of_lt deep
    by_cases present : written = []
    · subst present
      cases reads
      have text : bracket style level "[" "]" [] ++ rest =
          CodePoint.ofChar '[' :: CodePoint.ofChar ']' :: rest := rfl
      have closed : isBlank (CodePoint.ofChar ']') = false := by decide
      obtain ⟨bound, rfl⟩ : ∃ below, bound = below + 1 :=
        Nat.exists_eq_succ_of_ne_zero (by rintro rfl; cases long)
      rw [text, readValue]
      simp only [quote, entered, skipBlanks_cons closed, if_false, if_true]
    · have nonempty : items ≠ [] := by
        rintro rfl
        cases reads
        exact present rfl
      obtain ⟨comma, start, gap, blank, first, last, whole⟩ :=
        bracket_append readable level '[' ']' present
      have text : bracket style level "[" "]" written ++ rest = _ := whole rest
      obtain ⟨bound, rfl, shorter⟩ := length_lt_of_bracket text long
      have read := readItems_join reads nonempty blank last innerDeep shorter rest
      cases reads with
      | nil => exact absurd rfl present
      | @cons _ itemText _ texts head tail =>
        obtain ⟨more, starts⟩ := join_cons (CodePoint.ofChar ',' :: comma) itemText texts
        obtain ⟨mark, others, opened, dark, open_mark⟩ := head.begins
        rw [starts, opened] at read
        rw [text, readValue, starts, opened]
        simp only [List.cons_append] at read ⊢
        simp only [quote, entered, skipBlanks_append first, skipBlanks_cons dark, open_mark,
          if_false, if_true, read]
        rfl

/-! ## Objects -/

/-- An entry is written as its key, a colon and its value. -/
structure ReadsEntry (entry : Value × Value) (written : Text) : Prop where
  parts : ∃ (name blanks value : Text), entry.1 = .text name ∧ name.IsPlain ∧
    (∀ each ∈ blanks, isBlank each) ∧ Reads entry.2 value ∧
    written = writeString false name ++ (CodePoint.ofChar ':' :: (blanks ++ value))

theorem ReadsEntry.plain {entry : Value × Value} {written : Text}
    (reads : ReadsEntry entry written) : written.IsPlain := by
  obtain ⟨name, blanks, value, -, plain, blank, read, rfl⟩ := reads.parts
  have colon : Text.IsPlain [CodePoint.ofChar ':'] := List.forall_mem_singleton.mpr (by decide)
  exact (isPlain_writeString plain).append
    (colon.append ((isPlain_of_isBlank blank).append read.plain))

/-- One entry is read, and the mark after it decides whether others follow. -/
theorem readEntries_entry {entry : Value × Value} {written : Text}
    (reads : ReadsEntry entry written) {bound : Nat} {limits : Limits}
    (deep : entry.2.nesting ≤ limits.depth) (long : written.length ≤ bound) :
    ∃ name, entry.1 = .text name ∧
      ∀ (before : Entries) {gap : Text} {mark : CodePoint} (rest : Text),
      (∀ each ∈ gap, isBlank each) → isBlank mark = false →
      readEntries (bound + 1) limits before (written ++ (gap ++ mark :: rest)) =
        if mark = CodePoint.ofChar '\x7d' then .ok (before.put name entry.2, rest)
        else if mark = CodePoint.ofChar ',' then
          readEntries bound limits (before.put name entry.2) (skipBlanks rest)
        else malformed := by
  obtain ⟨name, blanks, value, key, -, blank, read, rfl⟩ := reads.parts
  refine ⟨name, key, fun before {gap} {mark} rest last dark => ?_⟩
  simp only [List.length_append, List.length_cons] at long
  have colon : isBlank (CodePoint.ofChar ':') = false := by decide
  have text : writeString false name ++ (CodePoint.ofChar ':' :: (blanks ++ value)) ++
      (gap ++ mark :: rest) = CodePoint.ofChar '"' :: (name.flatMap (writePoint false) ++
        CodePoint.ofChar '"' :: (CodePoint.ofChar ':' :: (blanks ++ (value ++
          (gap ++ mark :: rest))))) := by
    simp [writeString]
  rw [text, readEntries, if_pos rfl, readString_flatMap]
  simp only [skipBlanks_cons colon, if_true, skipBlanks_append blank, read.skipBlanks]
  rw [read.read bound limits _ deep (by omega)]
  simp only [skipBlanks_append last, skipBlanks_cons dark]

/-- Nothing but a blank is passed over before an entry. -/
theorem ReadsEntry.skipBlanks {entry : Value × Value} {written : Text}
    (reads : ReadsEntry entry written) (rest : Text) :
    skipBlanks (written ++ rest) = written ++ rest := by
  obtain ⟨_, _, _, _, _, _, _, opened⟩ := reads.parts
  rw [opened]
  exact skipBlanks_cons (by decide) _

/-- When the first of some new entries is put, the others are still new. -/
theorem fresh_put {name : Text} {value : Value} {entries before : Entries}
    (new : Entries.get? entries name = none)
    (fresh : ∀ other, (Entries.get? ((.text name, value) :: entries) other).isSome →
      Entries.get? before other = none) (other : Text)
    (there : (Entries.get? entries other).isSome) :
    Entries.get? (before.put name value) other = none := by
  rw [Entries.get?_put, if_neg]
  · refine fresh other ?_
    rw [Entries.get?_cons]
    split
    · rfl
    · exact there
  · rintro rfl
    rw [new] at there
    cases there

/-- Written entries with commas between them are read up to the brace that closes the object,
after those already read. -/
theorem readEntries_join {entries : Entries} {written : List Text}
    (reads : List.Forall₂ ReadsEntry entries written) (present : entries ≠ [])
    (plain : Entries.ArePlain entries) {comma gap : Text} (blank : ∀ each ∈ comma, isBlank each)
    (last : ∀ each ∈ gap, isBlank each) {bound : Nat} {limits : Limits}
    (deep : Value.nestingOfEntries entries ≤ limits.depth)
    (long : (Text.join (CodePoint.ofChar ',' :: comma) written).length < bound)
    {before : Entries}
    (fresh : ∀ name, (Entries.get? entries name).isSome → Entries.get? before name = none)
    (rest : Text) :
    readEntries bound limits before (Text.join (CodePoint.ofChar ',' :: comma) written ++
      (gap ++ CodePoint.ofChar '\x7d' :: rest)) = .ok (before ++ entries, rest) := by
  have dark : isBlank (CodePoint.ofChar '\x7d') = false := by decide
  have comma_dark : isBlank (CodePoint.ofChar ',') = false := by decide
  have other : CodePoint.ofChar ',' ≠ CodePoint.ofChar '\x7d' := by decide
  induction reads generalizing bound before with
  | nil => exact absurd rfl present
  | @cons entry text entries texts head tail ih =>
      obtain ⟨key, value⟩ := entry
      obtain ⟨bound, rfl⟩ : ∃ below, bound = below + 1 := ⟨bound - 1, by omega⟩
      rw [Value.nestingOfEntries] at deep
      have valueDeep : value.nesting ≤ limits.depth := by omega
      obtain ⟨⟨name, rfl, namePlain, new⟩, valuePlain, restPlain⟩ := plain
      have unread : Entries.get? before name = none := fresh name (by simp [Entries.get?_cons])
      have put := Entries.put_of_get?_eq_none value unread
      cases tail with
      | nil =>
          rw [Text.join] at long ⊢
          obtain ⟨_, same, step⟩ := readEntries_entry head valueDeep (Nat.le_of_lt_succ long)
          cases same
          rw [step before rest last dark, if_pos rfl, put]
      | @cons second secondText later laterTexts next others =>
          rw [Text.join] at long ⊢
          simp only [List.length_append, List.length_cons] at long
          have within : text.length ≤ bound := by omega
          obtain ⟨_, same, step⟩ := readEntries_entry head valueDeep within
          cases same
          have shorter : (Text.join (CodePoint.ofChar ',' :: comma)
              (secondText :: laterTexts)).length < bound := by omega
          have laterRead := ih (by simp) restPlain (by omega) shorter (fresh_put new fresh)
          have step := @step before [] _ (comma ++ (Text.join (CodePoint.ofChar ',' :: comma)
            (secondText :: laterTexts) ++ (gap ++ CodePoint.ofChar '\x7d' :: rest)))
            (List.forall_mem_nil _) comma_dark
          rw [if_neg other, if_pos rfl, skipBlanks_append blank] at step
          rw [skipBlanks_join next.skipBlanks, laterRead, put] at step
          simpa using step

theorem reads_object {entries : Entries} {written : List Text}
    (reads : List.Forall₂ ReadsEntry entries written) (plain : Entries.ArePlain entries)
    {style : Style} (readable : style.Readable) (level : Nat) :
    Reads (.object entries) (bracket style level "\x7b" "\x7d" written) where
  begins := by
    cases written <;> exact ⟨_, _, rfl, by decide, by decide⟩
  plain := by
    refine isPlain_bracket readable level (Text.any_isSurrogate_eq_false.mp (by decide))
      (Text.any_isSurrogate_eq_false.mp (by decide)) ?_
    clear plain
    induction reads with
    | nil => exact List.forall_mem_nil _
    | cons head tail ih => exact List.forall_mem_cons.mpr ⟨head.plain, ih⟩
  read bound limits rest deep long := by
    have quote : CodePoint.ofChar '\x7b' ≠ CodePoint.ofChar '"' := by decide
    have list : CodePoint.ofChar '\x7b' ≠ CodePoint.ofChar '[' := by decide
    obtain ⟨inside, entered, innerDeep⟩ := inside?_of_lt deep
    by_cases present : written = []
    · subst present
      cases reads
      have text : bracket style level "\x7b" "\x7d" [] ++ rest =
          CodePoint.ofChar '\x7b' :: CodePoint.ofChar '\x7d' :: rest := rfl
      have closed : isBlank (CodePoint.ofChar '\x7d') = false := by decide
      obtain ⟨bound, rfl⟩ : ∃ below, bound = below + 1 :=
        Nat.exists_eq_succ_of_ne_zero (by rintro rfl; cases long)
      rw [text, readValue]
      simp only [quote, list, entered, skipBlanks_cons closed, if_false, if_true]
    · have nonempty : entries ≠ [] := by
        rintro rfl
        cases reads
        exact present rfl
      obtain ⟨comma, start, gap, blank, first, last, whole⟩ :=
        bracket_append readable level '\x7b' '\x7d' present
      have text : bracket style level "\x7b" "\x7d" written ++ rest = _ := whole rest
      obtain ⟨bound, rfl, shorter⟩ := length_lt_of_bracket text long
      have unread : ∀ name, (Entries.get? entries name).isSome →
          Entries.get? [] name = none := fun _ _ => rfl
      have read := readEntries_join reads nonempty plain blank last innerDeep shorter unread rest
      cases reads with
      | nil => exact absurd rfl present
      | @cons _ entryText _ texts head tail =>
        obtain ⟨more, starts⟩ := join_cons (CodePoint.ofChar ',' :: comma) entryText texts
        obtain ⟨name, _, _, _, _, _, _, opened⟩ := head.parts
        have dark : isBlank (CodePoint.ofChar '"') = false := by decide
        have open_mark : CodePoint.ofChar '"' ≠ CodePoint.ofChar '\x7d' := by decide
        rw [starts, opened, writeString] at read
        rw [text, readValue, starts, opened, writeString]
        simp only [List.cons_append] at read ⊢
        simp only [quote, list, entered, skipBlanks_append first, skipBlanks_cons dark, open_mark,
          if_false, if_true, read]
        rfl

/-! ## Whole values -/

theorem writeText_of_isPlain (style : Style) {text : Text} (plain : text.IsPlain) :
    writeText style text = .ok (writeString style.asciiOnly text) := by
  rw [writeText, Text.any_isSurrogate_eq_false.mpr plain]
  simp

mutual
/-- Every plain value is written, as a text from which it is read. -/
theorem exists_writeAt {style : Style} (readable : style.Readable) :
    ∀ (value : Value) (level : Nat), value.IsPlain →
      ∃ written, writeAt style level value = .ok written ∧ Reads value written
  | .null, _, _ => ⟨_, rfl, reads_null⟩
  | .bool truth, _, _ => ⟨_, rfl, reads_bool truth⟩
  | .text characters, _, plain => by
      refine ⟨_, writeText_of_isPlain style plain, ?_⟩
      rw [readable.whole]
      exact reads_text plain
  | .list items, level, plain => by
      obtain ⟨written, done, reads⟩ := exists_writeItems readable items (level + 1) plain
      exact ⟨_, by rw [writeAt, done]; rfl, reads_list reads readable level⟩
  | .object entries, level, plain => by
      obtain ⟨written, done, reads⟩ := exists_writeEntries readable entries (level + 1) plain
      exact ⟨_, by rw [writeAt, done]; rfl, reads_object reads plain readable level⟩

/-- Every list of plain values is written item by item. -/
theorem exists_writeItems {style : Style} (readable : style.Readable) :
    ∀ (items : List Value) (level : Nat), Value.ArePlain items →
      ∃ written, writeItems style level items = .ok written ∧ List.Forall₂ Reads items written
  | [], _, _ => ⟨[], rfl, .nil⟩
  | first :: rest, level, plain => by
      obtain ⟨text, done, reads⟩ := exists_writeAt readable first level plain.1
      obtain ⟨texts, allDone, others⟩ := exists_writeItems readable rest level plain.2
      exact ⟨text :: texts, by rw [writeItems, done, allDone]; rfl, .cons reads others⟩

/-- Plain entries are written one after another. -/
theorem exists_writeEntries {style : Style} (readable : style.Readable) :
    ∀ (entries : List (Value × Value)) (level : Nat), Entries.ArePlain entries →
      ∃ written, writeEntries style level entries = .ok written ∧
        List.Forall₂ ReadsEntry entries written
  | [], _, _ => ⟨[], rfl, .nil⟩
  | (key, value) :: rest, level, plain => by
      obtain ⟨⟨name, same, namePlain, -⟩, valuePlain, restPlain⟩ := plain
      obtain ⟨blanks, colon, blank⟩ := readable.keys
      obtain ⟨text, done, reads⟩ := exists_writeAt readable value level valuePlain
      obtain ⟨texts, allDone, others⟩ := exists_writeEntries readable rest level restPlain
      refine ⟨_, ?_, .cons ⟨name, blanks, text, same, namePlain, blank, reads, rfl⟩ others⟩
      rw [writeEntries, same, keyText, done, allDone]
      simp only [bind, Except.bind, writeText_of_isPlain style namePlain, readable.whole]
      simp [pure, Except.pure, Text.concat, colon]
end

/-- **What a readable style writes for a plain value is read as that value.** -/
theorem read_write [Host] {style : Style} (readable : style.Readable) {value : Value}
    (plain : value.IsPlain) (shallow : value.nesting ≤ Limits.usual.depth) :
    ∃ written, write style value = .ok written ∧ written.IsPlain ∧ read written = .ok value := by
  obtain ⟨written, done, reads⟩ := exists_writeAt readable value 0 plain
  refine ⟨written, done, reads.plain, ?_⟩
  have whole := reads.read (2 * written.length + 2) Limits.usual [] shallow (by omega)
  have start := reads.skipBlanks []
  rw [List.append_nil] at whole start
  rw [read, readWithin, start, whole]
  rfl

end Json

end GovernedRecords
