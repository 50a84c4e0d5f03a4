import GovernedRecords.Proofs.Entries
import GovernedRecords.Proofs.Json.Strings
import GovernedRecords.Proofs.Text.Digits
import GovernedRecords.Proofs.Value.Texts
import Mathlib.Data.List.Forall2

/-!
# Compact JSON says what was written

A document is built from null, truth values, integers, texts, lists, and objects whose keys are
texts.  Every document whose integers have numerals is written without blanks
(`exists_writeAt_compact`), and no two documents are written as the same text
(`write_compact_injective`).

Inside a larger text a written document is followed by a comma or a closing bracket, or by
nothing.  The induction shows that two texts which begin with written documents and go on in that
way agree on the document and on what follows it (`Unambiguous`).  The first code point tells the
kind of a document, and the end of a number is where a mark stands; strings are read back as they
are.
-/

set_option autoImplicit false

namespace GovernedRecords

mutual
/-- Whether a value is built from null, truth values, integers, texts, lists, and objects whose
keys are texts. -/
def Value.IsDocument : Value → Prop
  | .null => True
  | .bool _ => True
  | .int _ => True
  | .text _ => True
  | .list items => Value.AreDocuments items
  | .object entries => Entries.AreDocuments entries
  | _ => False

/-- Whether all values of a list are documents. -/
def Value.AreDocuments : List Value → Prop
  | [] => True
  | first :: rest => first.IsDocument ∧ Value.AreDocuments rest

/-- Whether all entries have a text for a key and a document for a value. -/
def Entries.AreDocuments : List (Value × Value) → Prop
  | [] => True
  | (key, value) :: rest =>
    (∃ name, key = .text name) ∧ value.IsDocument ∧ Entries.AreDocuments rest
end

theorem Value.areDocuments_iff (items : List Value) :
    Value.AreDocuments items ↔ ∀ item ∈ items, item.IsDocument := by
  induction items with
  | nil => simp [Value.AreDocuments]
  | cons first rest ih => rw [Value.AreDocuments, ih, List.forall_mem_cons]

theorem Entries.areDocuments_iff (entries : Entries) :
    Entries.AreDocuments entries ↔
      ∀ entry ∈ entries, (∃ name, entry.1 = .text name) ∧ entry.2.IsDocument := by
  induction entries with
  | nil => simp [Entries.AreDocuments]
  | cons entry rest ih =>
      obtain ⟨key, value⟩ := entry
      rw [Entries.AreDocuments, ih, List.forall_mem_cons, and_assoc]

namespace Json

/-! ## What is written -/

/-- Between brackets there is nothing but the parts and their commas. -/
theorem bracket_compact (level : Nat) (opening closing : Char) (parts : List Text) :
    bracket Style.compact level [.ofChar opening] [.ofChar closing] parts =
      CodePoint.ofChar opening :: (Text.join [.ofChar ','] parts ++ [.ofChar closing]) := by
  cases parts with
  | nil => rfl
  | cons first others =>
      have comma : (Style.compact.itemEnd : Text) = [CodePoint.ofChar ','] := rfl
      have none : ∀ level, lineBreak Style.compact level = [] := fun _ => rfl
      simp [bracket, Text.concat, comma, none]

theorem writeText_compact (text : Text) :
    writeText Style.compact text = .ok (writeString false text) := rfl

theorem writeInteger_of_isWritten {integer : Int} (written : Numeral.isWritten integer = true) :
    writeInteger integer = .ok (Text.ofInt integer) := by
  rw [writeInteger, Numeral.ofInt_of_isWritten written]
  rfl

/-- A written integer is its numeral. -/
theorem writeInteger_eq_ok {integer : Int} {text : Text} (done : writeInteger integer = .ok text) :
    text = Text.ofInt integer := by
  rw [writeInteger] at done
  cases numeral : Numeral.ofInt integer with
  | error error => rw [numeral] at done; cases done
  | ok written =>
      rw [numeral] at done
      cases done
      exact Numeral.ofInt_eq_ok numeral

mutual
/-- **Every document whose integers have numerals is written without blanks.** -/
theorem exists_writeAt_compact : ∀ (value : Value) (level : Nat), value.IsDocument →
    value.HasNumerals → ∃ text, writeAt Style.compact level value = .ok text
  | .null, _, _, _ => ⟨_, rfl⟩
  | .bool _, _, _, _ => ⟨_, rfl⟩
  | .int _, _, _, numeral => ⟨_, writeInteger_of_isWritten numeral⟩
  | .text _, _, _, _ => ⟨_, rfl⟩
  | .list items, level, document, numerals => by
      obtain ⟨texts, written⟩ := exists_writeItems_compact items (level + 1) document numerals
      exact ⟨_, by rw [writeAt, written]; rfl⟩
  | .object entries, level, document, numerals => by
      obtain ⟨texts, written⟩ := exists_writeEntries_compact entries (level + 1) document numerals
      exact ⟨_, by rw [writeAt, written]; rfl⟩

theorem exists_writeItems_compact : ∀ (items : List Value) (level : Nat),
    Value.AreDocuments items → Value.HaveNumerals items →
      ∃ texts, writeItems Style.compact level items = .ok texts
  | [], _, _, _ => ⟨[], rfl⟩
  | first :: rest, level, documents, numerals => by
      obtain ⟨text, written⟩ := exists_writeAt_compact first level documents.1 numerals.1
      obtain ⟨texts, others⟩ := exists_writeItems_compact rest level documents.2 numerals.2
      exact ⟨text :: texts, by rw [writeItems, written, others]; rfl⟩

theorem exists_writeEntries_compact : ∀ (entries : List (Value × Value)) (level : Nat),
    Entries.AreDocuments entries → Value.EntriesHaveNumerals entries →
      ∃ texts, writeEntries Style.compact level entries = .ok texts
  | [], _, _, _ => ⟨[], rfl⟩
  | (key, value) :: rest, level, documents, numerals => by
      obtain ⟨⟨name, rfl⟩, document, others⟩ := documents
      obtain ⟨text, written⟩ := exists_writeAt_compact value level document numerals.1.2
      obtain ⟨texts, others⟩ := exists_writeEntries_compact rest level others numerals.2
      exact ⟨_, by rw [writeEntries, keyText, written, others]; rfl⟩
end

/-- A document and its text. -/
structure Written (value : Value) (text : Text) : Prop where
  document : value.IsDocument
  done : ∃ level, writeAt Style.compact level value = .ok text

/-- A key with a document, and its text. -/
structure WrittenEntry (entry : Value × Value) (text : Text) : Prop where
  parts : ∃ name value, entry.1 = .text name ∧ Written entry.2 value ∧
    text = writeString false name ++ CodePoint.ofChar ':' :: value

theorem written_items {level : Nat} {items : List Value} {texts : List Text}
    (documents : Value.AreDocuments items)
    (done : writeItems Style.compact level items = .ok texts) :
    List.Forall₂ Written items texts := by
  induction items generalizing texts with
  | nil =>
      cases done
      exact .nil
  | cons first rest ih =>
      rw [writeItems] at done
      cases written : writeAt Style.compact level first with
      | error cause => simp [written, bind, Except.bind] at done
      | ok text =>
          cases others : writeItems Style.compact level rest with
          | error cause => simp [written, others, bind, Except.bind] at done
          | ok later =>
              rw [written, others] at done
              cases done
              exact .cons ⟨documents.1, level, written⟩ (ih documents.2 others)

theorem written_entries {level : Nat} {entries : Entries} {texts : List Text}
    (documents : Entries.AreDocuments entries)
    (done : writeEntries Style.compact level entries = .ok texts) :
    List.Forall₂ WrittenEntry entries texts := by
  induction entries generalizing texts with
  | nil =>
      cases done
      exact .nil
  | cons entry rest ih =>
      obtain ⟨key, value⟩ := entry
      obtain ⟨⟨name, rfl⟩, document, documents⟩ := documents
      rw [writeEntries, keyText] at done
      simp only [bind, Except.bind, writeText_compact] at done
      cases written : writeAt Style.compact level value with
      | error cause => simp [written] at done
      | ok text =>
          cases others : writeEntries Style.compact level rest with
          | error cause => simp [written, others] at done
          | ok later =>
              rw [written, others] at done
              cases done
              have colon : (Style.compact.keyEnd : Text) = [CodePoint.ofChar ':'] := rfl
              refine .cons ⟨name, text, rfl, ⟨document, level, written⟩, ?_⟩ (ih documents others)
              simp [Text.concat, colon]

theorem Written.list {items : List Value} {text : Text} (written : Written (.list items) text) :
    ∃ texts, List.Forall₂ Written items texts ∧
      text = CodePoint.ofChar '[' :: (Text.join [.ofChar ','] texts ++ [.ofChar ']']) := by
  obtain ⟨documents, level, done⟩ := written
  rw [writeAt] at done
  cases parts : writeItems Style.compact (level + 1) items with
  | error cause =>
      rw [parts] at done
      cases done
  | ok texts =>
      rw [parts] at done
      cases done
      exact ⟨texts, written_items documents parts, bracket_compact level '[' ']' texts⟩

theorem Written.object {entries : Entries} {text : Text}
    (written : Written (.object entries) text) :
    ∃ texts, List.Forall₂ WrittenEntry entries texts ∧
      text = CodePoint.ofChar '\x7b' ::
        (Text.join [.ofChar ','] texts ++ [.ofChar '\x7d']) := by
  obtain ⟨documents, level, done⟩ := written
  rw [writeAt] at done
  cases parts : writeEntries Style.compact (level + 1) entries with
  | error cause =>
      rw [parts] at done
      cases done
  | ok texts =>
      rw [parts] at done
      cases done
      exact ⟨texts, written_entries documents parts,
        bracket_compact level '\x7b' '\x7d' texts⟩

/-! ## Where a document ends -/

/-- The code points that end a document inside another one. -/
def isMark (point : CodePoint) : Bool :=
  point = CodePoint.ofChar ',' || point = CodePoint.ofChar ']' || point = CodePoint.ofChar '\x7d'

/-- A text that is empty or begins with a mark. -/
def Ends (rest : Text) : Prop := ∀ first ∈ rest.head?, isMark first = true

theorem ends_nil : Ends [] := nofun

theorem ends_cons {mark : CodePoint} (isOne : isMark mark = true) (rest : Text) :
    Ends (mark :: rest) := by
  intro first head
  cases head
  exact isOne

/-- The kind of the documents that begin with a code point. -/
def kindOf? (first : CodePoint) : Option Text :=
  if first.isDigit || first = CodePoint.ofChar '-' then some (Value.int 0).kindName
  else if first = CodePoint.ofChar 'n' then some Value.null.kindName
  else if first = CodePoint.ofChar 't' || first = CodePoint.ofChar 'f' then
    some (Value.bool true).kindName
  else if first = CodePoint.ofChar '"' then some (Value.text []).kindName
  else if first = CodePoint.ofChar '[' then some (Value.list []).kindName
  else if first = CodePoint.ofChar '\x7b' then some (Value.object []).kindName
  else none

/-- **The first code point of a written document tells its kind.** -/
theorem Written.kind {value : Value} {text : Text} (written : Written value text) :
    ∃ first rest, text = first :: rest ∧ kindOf? first = some value.kindName := by
  obtain ⟨document, level, done⟩ := id written
  cases value with
  | null =>
      cases done
      exact ⟨_, _, rfl, by decide⟩
  | bool truth => cases truth <;> cases done <;> exact ⟨_, _, rfl, by decide⟩
  | int integer =>
      obtain rfl := writeInteger_eq_ok done
      cases integer with
      | ofNat number =>
          obtain ⟨first, rest, digits, digit⟩ := Text.exists_ofNat number
          exact ⟨first, rest, digits, by rw [kindOf?, digit]; rfl⟩
      | negSucc number =>
          have sign : kindOf? (CodePoint.ofChar '-') = some (Value.int 0).kindName := by decide
          exact ⟨_, _, rfl, sign⟩
  | text characters =>
      have quote : kindOf? (CodePoint.ofChar '"') = some (Value.text []).kindName := by decide
      cases done
      exact ⟨_, _, rfl, quote⟩
  | list items =>
      have opening : kindOf? (CodePoint.ofChar '[') = some (Value.list []).kindName := by decide
      obtain ⟨texts, -, rfl⟩ := written.list
      exact ⟨_, _, rfl, opening⟩
  | object entries =>
      have opening : kindOf? (CodePoint.ofChar '\x7b') = some (Value.object []).kindName := by
        decide
      obtain ⟨texts, -, rfl⟩ := written.object
      exact ⟨_, _, rfl, opening⟩
  | _ => exact absurd document id

/-- What begins a document does not end one. -/
theorem isMark_of_kindOf? {first : CodePoint} {kind : Text} (begins : kindOf? first = some kind) :
    isMark first = false := by
  have none : kindOf? (CodePoint.ofChar ',') = none ∧ kindOf? (CodePoint.ofChar ']') = none ∧
      kindOf? (CodePoint.ofChar '\x7d') = none := by
    decide
  rw [← Bool.not_eq_true]
  simp only [isMark, Bool.or_eq_true, decide_eq_true_eq]
  rintro ((rfl | rfl) | rfl) <;> simp [none] at begins

theorem Written.not_isMark {value : Value} {text : Text} (written : Written value text) :
    ∃ first rest, text = first :: rest ∧ isMark first = false := by
  obtain ⟨first, rest, begins, kind⟩ := written.kind
  exact ⟨first, rest, begins, isMark_of_kindOf? kind⟩

theorem WrittenEntry.not_isMark {entry : Value × Value} {text : Text}
    (written : WrittenEntry entry text) :
    ∃ first rest, text = first :: rest ∧ isMark first = false := by
  obtain ⟨name, value, -, -, rfl⟩ := written.parts
  exact ⟨_, _, rfl, by decide⟩

/-! ## Two texts that begin alike -/

/-- Joined parts go on after the first one with a comma and the others, or with what closes
them. -/
theorem join_cons_append (first : Text) (others : List Text) (closing : CodePoint) (rest : Text) :
    Text.join [CodePoint.ofChar ','] (first :: others) ++ closing :: rest =
      first ++ if others = [] then closing :: rest
        else CodePoint.ofChar ',' :: (Text.join [CodePoint.ofChar ','] others ++ closing :: rest) := by
  cases others <;> simp [Text.join]

/-- Parts that are told from what follows them are told from one another when they are joined. -/
theorem joined_unique {α : Type} {Writes : α → Text → Prop} {closing : CodePoint}
    (mark : isMark closing = true) (differs : closing ≠ CodePoint.ofChar ',')
    (begins : ∀ {item text}, Writes item text →
      ∃ first rest, text = first :: rest ∧ isMark first = false)
    {items others : List α} {texts words : List Text} {rest more : Text}
    (unique : ∀ item ∈ items, ∀ ⦃other text word rest more⦄, Writes item text →
      Writes other word → Ends rest → Ends more → text ++ rest = word ++ more →
        item = other ∧ rest = more)
    (left : List.Forall₂ Writes items texts) (right : List.Forall₂ Writes others words)
    (same : Text.join [CodePoint.ofChar ','] texts ++ closing :: rest =
      Text.join [CodePoint.ofChar ','] words ++ closing :: more) :
    items = others ∧ rest = more := by
  have comma : isMark (CodePoint.ofChar ',') = true := by decide
  have goesOn : ∀ (words : List Text) (rest : Text), Ends (if words = [] then closing :: rest
      else CodePoint.ofChar ',' :: (Text.join [.ofChar ','] words ++ closing :: rest)) := by
    intro words rest
    split
    · exact ends_cons mark _
    · exact ends_cons comma _
  -- A part does not begin with what closes the parts.
  have opens : ∀ {item : α} {text : Text} (texts : List Text) (rest more : Text),
      Writes item text → closing :: rest ≠
        Text.join [CodePoint.ofChar ','] (text :: texts) ++ closing :: more := by
    intro item text texts rest more written
    obtain ⟨first, later, rfl, plain⟩ := begins written
    rw [join_cons_append]
    intro same
    rw [(List.cons.inj same).1, plain] at mark
    cases mark
  induction left generalizing others words with
  | nil =>
      cases right with
      | nil => exact ⟨rfl, (List.cons.inj same).2⟩
      | cons head tail => exact absurd same (opens _ _ _ head)
  | @cons item text items texts head tail ih =>
      cases right with
      | nil => exact absurd same.symm (opens _ _ _ head)
      | @cons other word others words otherHead otherTail =>
          obtain ⟨first, later⟩ := List.forall_mem_cons.mp unique
          rw [join_cons_append, join_cons_append] at same
          obtain ⟨rfl, after⟩ := first head otherHead (goesOn _ _) (goesOn _ _) same
          cases tail with
          | nil =>
              cases otherTail with
              | nil => exact ⟨rfl, (List.cons.inj after).2⟩
              | cons _ _ => exact absurd (List.cons.inj after).1 differs
          | cons next following =>
              cases otherTail with
              | nil => exact absurd (List.cons.inj after).1.symm differs
              | cons otherNext otherFollowing =>
                  obtain ⟨sameOthers, sameRest⟩ := ih later (.cons otherNext otherFollowing)
                    (List.cons.inj after).2
                  exact ⟨congrArg (item :: ·) sameOthers, sameRest⟩

/-- Whatever begins with the text of a value and goes on as a document may begins with no other
document. -/
def Unambiguous (value : Value) : Prop :=
  ∀ ⦃other text word rest more⦄, Written value text → Written other word → Ends rest → Ends more →
    text ++ rest = word ++ more → value = other ∧ rest = more

/-- Documents that are written alike are of one kind. -/
theorem Written.kindName_eq {value other : Value} {text word rest more : Text}
    (left : Written value text) (right : Written other word) (same : text ++ rest = word ++ more) :
    value.kindName = other.kindName := by
  obtain ⟨first, later, rfl, kind⟩ := left.kind
  obtain ⟨second, others, rfl, otherKind⟩ := right.kind
  rw [(List.cons.inj same).1, otherKind] at kind
  exact (Option.some.inj kind).symm

/-- A written string is told from what follows it. -/
theorem string_unique {characters others rest more : Text}
    (same : writeString false characters ++ rest = writeString false others ++ more) :
    characters = others ∧ rest = more := by
  simp only [writeString, List.cons_append, List.append_assoc, List.nil_append] at same
  have read := readString_flatMap characters rest
  rw [(List.cons.inj same).2, readString_flatMap] at read
  obtain ⟨sameText, sameRest⟩ := Prod.mk.inj (Except.ok.inj read)
  exact ⟨sameText.symm, sameRest.symm⟩

theorem unambiguous_text (characters : Text) : Unambiguous (.text characters) := by
  intro other text word rest more left right _ _ same
  have kind := left.kindName_eq right same
  obtain ⟨_, _, done⟩ := left
  obtain ⟨_, _, otherDone⟩ := right
  cases other with
  | text others =>
      cases done
      cases otherDone
      obtain ⟨rfl, rfl⟩ := string_unique same
      exact ⟨rfl, rfl⟩
  | _ => exact absurd kind (by simp only [Value.kindName]; decide)

theorem unambiguous_int (integer : Int) : Unambiguous (.int integer) := by
  intro other text word rest more left right ends otherEnds same
  have kind := left.kindName_eq right same
  obtain ⟨_, _, done⟩ := left
  obtain ⟨_, _, otherDone⟩ := right
  have unmarked : ∀ integer : Int, ∀ point ∈ Text.ofInt integer, (!isMark point) = true := by
    intro integer point member
    have part := Text.numeral_of_mem_ofInt member
    rw [Bool.not_eq_true']
    exact isMark_of_kindOf? (if_pos (by simpa using part))
  cases other with
  | int number =>
      obtain rfl := writeInteger_eq_ok done
      obtain rfl := writeInteger_eq_ok otherDone
      obtain ⟨numerals, same⟩ := Text.eq_and_eq_of_append (unmarked integer) (unmarked number)
        (fun first head => by rw [ends first head]; rfl)
        (fun first head => by rw [otherEnds first head]; rfl) same
      exact ⟨by rw [Text.ofInt_injective numerals], same⟩
  | _ => exact absurd kind (by simp only [Value.kindName]; decide)

/-- An entry is told from what follows it when its value is. -/
theorem WrittenEntry.unique {entry other : Value × Value} {text word rest more : Text}
    (unambiguous : Unambiguous entry.2) (left : WrittenEntry entry text)
    (right : WrittenEntry other word) (ends : Ends rest) (otherEnds : Ends more)
    (same : text ++ rest = word ++ more) : entry = other ∧ rest = more := by
  obtain ⟨name, value, key, written, rfl⟩ := left.parts
  obtain ⟨otherName, otherValue, otherKey, otherWritten, rfl⟩ := right.parts
  rw [List.append_assoc, List.append_assoc] at same
  obtain ⟨sameName, after⟩ := string_unique same
  obtain ⟨sameValue, sameRest⟩ := unambiguous written otherWritten ends otherEnds
    (List.cons.inj after).2
  exact ⟨Prod.ext (by rw [key, otherKey, sameName]) sameValue, sameRest⟩

mutual
/-- **Every document is told from what follows it.** -/
theorem unambiguous : ∀ value : Value, Unambiguous value
  | .text characters => unambiguous_text characters
  | .int integer => unambiguous_int integer
  | .null => by
      intro other text word rest more left right _ _ same
      have kind := left.kindName_eq right same
      obtain ⟨_, _, done⟩ := left
      obtain ⟨_, _, otherDone⟩ := right
      cases other with
      | null =>
          cases done
          cases otherDone
          exact ⟨rfl, List.append_cancel_left same⟩
      | _ => exact absurd kind (by simp only [Value.kindName]; decide)
  | .bool truth => by
      intro other text word rest more left right _ _ same
      have kind := left.kindName_eq right same
      obtain ⟨_, _, done⟩ := left
      obtain ⟨_, _, otherDone⟩ := right
      have letters : CodePoint.ofChar 't' ≠ CodePoint.ofChar 'f' := by decide
      cases other with
      | bool other =>
          cases done
          cases otherDone
          cases truth <;> cases other
          · exact ⟨rfl, List.append_cancel_left same⟩
          · exact absurd (List.cons.inj same).1.symm letters
          · exact absurd (List.cons.inj same).1 letters
          · exact ⟨rfl, List.append_cancel_left same⟩
      | _ => exact absurd kind (by simp only [Value.kindName]; decide)
  | .list items => by
      intro other text word rest more left right _ _ same
      have kind := left.kindName_eq right same
      cases other with
      | list others =>
          obtain ⟨texts, written, rfl⟩ := left.list
          obtain ⟨words, otherWritten, rfl⟩ := right.list
          simp only [List.cons_append, List.append_assoc, List.nil_append] at same
          obtain ⟨rfl, rest⟩ := joined_unique (by decide) (by decide) Written.not_isMark
            (unambiguous_items items) written otherWritten (List.cons.inj same).2
          exact ⟨rfl, rest⟩
      | _ => exact absurd kind (by simp only [Value.kindName]; decide)
  | .object entries => by
      intro other text word rest more left right _ _ same
      have kind := left.kindName_eq right same
      cases other with
      | object others =>
          obtain ⟨texts, written, rfl⟩ := left.object
          obtain ⟨words, otherWritten, rfl⟩ := right.object
          simp only [List.cons_append, List.append_assoc, List.nil_append] at same
          obtain ⟨rfl, rest⟩ := joined_unique (by decide) (by decide) WrittenEntry.not_isMark
            (fun entry member _ _ _ _ _ =>
              WrittenEntry.unique (unambiguous_entries entries entry member))
            written otherWritten (List.cons.inj same).2
          exact ⟨rfl, rest⟩
      | _ => exact absurd kind (by simp only [Value.kindName]; decide)
  | .float _ => fun _ _ _ _ _ left => absurd left.document id
  | .tuple _ => fun _ _ _ _ _ left => absurd left.document id
  | .set _ => fun _ _ _ _ _ left => absurd left.document id
  | .bytes _ => fun _ _ _ _ _ left => absurd left.document id
  | .date _ => fun _ _ _ _ _ left => absurd left.document id
  | .datetime _ => fun _ _ _ _ _ left => absurd left.document id

theorem unambiguous_items : ∀ (items : List Value), ∀ item ∈ items, Unambiguous item
  | [] => List.forall_mem_nil _
  | first :: rest => List.forall_mem_cons.mpr ⟨unambiguous first, unambiguous_items rest⟩

theorem unambiguous_entries : ∀ (entries : List (Value × Value)), ∀ entry ∈ entries,
    Unambiguous entry.2
  | [] => List.forall_mem_nil _
  | (_, value) :: rest => List.forall_mem_cons.mpr ⟨unambiguous value, unambiguous_entries rest⟩
end

/-- **No two documents are written alike.** -/
theorem write_compact_injective {value other : Value} {text : Text} (document : value.IsDocument)
    (otherDocument : other.IsDocument) (written : write Style.compact value = .ok text)
    (otherWritten : write Style.compact other = .ok text) : value = other :=
  (unambiguous value ⟨document, 0, written⟩ ⟨otherDocument, 0, otherWritten⟩ ends_nil ends_nil
    rfl).1

end Json

end GovernedRecords
