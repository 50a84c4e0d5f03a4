import GovernedRecords.Proofs.Entries
import GovernedRecords.Value.Display

/-!
# Values with a text

A value has a text unless an integer in it has more digits than are written or the host does not
show how deeply it is nested.  The text is then what the value displays (`Value.toText_eq_ok`), so
two values are compared as texts only where both have one: they read alike (`Value.ReadsAs`) or
apart (`Value.ReadsApart`), and otherwise the comparison fails.
-/

set_option autoImplicit false

namespace GovernedRecords

theorem Numeral.ofInt_eq_ok {integer : Int} {text : Text} (done : ofInt integer = .ok text) :
    text = Text.ofInt integer := by
  rw [ofInt] at done
  split at done <;> cases done
  rfl

theorem Numeral.ofInt_of_isWritten {integer : Int} (written : isWritten integer = true) :
    ofInt integer = .ok (Text.ofInt integer) := if_pos written

namespace Value

mutual
/-- Whether the integers in a value have numerals. -/
def HasNumerals : Value → Prop
  | .int integer => Numeral.isWritten integer = true
  | .list items => HaveNumerals items
  | .tuple items => HaveNumerals items
  | .set items => HaveNumerals items
  | .object entries => EntriesHaveNumerals entries
  | _ => True

/-- Whether the integers in some values have numerals. -/
def HaveNumerals : List Value → Prop
  | [] => True
  | first :: rest => first.HasNumerals ∧ HaveNumerals rest

/-- Whether the integers in the keys and values of some entries have numerals. -/
def EntriesHaveNumerals : List (Value × Value) → Prop
  | [] => True
  | (key, value) :: rest =>
    (key.HasNumerals ∧ value.HasNumerals) ∧ EntriesHaveNumerals rest
end

mutual
/-- A value has a text exactly when there is room for its nesting and its integers have
numerals. -/
theorem textError?_eq_none_iff (room : Nat) : ∀ value : Value,
    value.textError? room = none ↔ value.nesting ≤ room ∧ value.HasNumerals
  | .null | .bool _ | .float _ | .text _ | .bytes _ | .date _ | .datetime _ => by
    simp [textError?, nesting, HasNumerals]
  | .int integer => by simp [textError?, nesting, HasNumerals]
  | .list items | .tuple items | .set items => by
    cases room with
    | zero => simp [textError?, nesting]
    | succ room =>
        simp only [textError?, nesting, HasNumerals, Nat.add_le_add_iff_right,
          itemsTextError?_eq_none_iff room items]
  | .object entries => by
    cases room with
    | zero => simp [textError?, nesting]
    | succ room =>
        simp only [textError?, nesting, HasNumerals, Nat.add_le_add_iff_right,
          entriesTextError?_eq_none_iff room entries]

theorem itemsTextError?_eq_none_iff (room : Nat) : ∀ items : List Value,
    itemsTextError? room items = none ↔ nestingOfItems items ≤ room ∧ HaveNumerals items
  | [] => by simp [itemsTextError?, nestingOfItems, HaveNumerals]
  | first :: rest => by
    simp only [itemsTextError?, nestingOfItems, HaveNumerals, Option.or_eq_none_iff,
      textError?_eq_none_iff room first, itemsTextError?_eq_none_iff room rest, Nat.max_le]
    exact and_and_and_comm

theorem entriesTextError?_eq_none_iff (room : Nat) : ∀ entries : List (Value × Value),
    entriesTextError? room entries = none ↔
      nestingOfEntries entries ≤ room ∧ EntriesHaveNumerals entries
  | [] => by simp [entriesTextError?, nestingOfEntries, EntriesHaveNumerals]
  | (key, value) :: rest => by
    simp only [entriesTextError?, nestingOfEntries, EntriesHaveNumerals, Option.or_eq_none_iff,
      textError?_eq_none_iff room key, textError?_eq_none_iff room value,
      entriesTextError?_eq_none_iff room rest, Nat.max_le]
    rw [and_and_and_comm (a := key.nesting ≤ room), and_and_and_comm]
end

theorem haveNumerals_of_forall_mem {items : List Value}
    (numerals : ∀ item ∈ items, item.HasNumerals) : HaveNumerals items := by
  induction items with
  | nil => exact trivial
  | cons first rest ih =>
      obtain ⟨head, others⟩ := List.forall_mem_cons.mp numerals
      exact ⟨head, ih others⟩

theorem hasNumerals_ofFields {parts : List (Text × Value)}
    (numerals : ∀ part ∈ parts, part.2.HasNumerals) : (Value.ofFields parts).HasNumerals := by
  rw [Value.ofFields, HasNumerals]
  induction parts with
  | nil => exact trivial
  | cons part rest ih =>
      obtain ⟨first, others⟩ := List.forall_mem_cons.mp numerals
      exact ⟨⟨trivial, first⟩, ih others⟩

theorem hasNumerals_ofTexts (texts : List Text) : (Value.ofTexts texts).HasNumerals := by
  refine haveNumerals_of_forall_mem fun item member => ?_
  obtain ⟨text, -, rfl⟩ := List.mem_map.mp member
  exact trivial

theorem HaveNumerals.of_mem {items : List Value} (numerals : HaveNumerals items) {item : Value}
    (member : item ∈ items) : item.HasNumerals := by
  induction items with
  | nil => cases member
  | cons first rest ih =>
      rcases List.mem_cons.mp member with rfl | member
      · exact numerals.1
      · exact ih numerals.2 member

theorem EntriesHaveNumerals.get {entries : Entries} (numerals : EntriesHaveNumerals entries)
    (name : Text) : (entries.get name).HasNumerals := by
  induction entries with
  | nil => trivial
  | cons entry rest ih =>
      obtain ⟨⟨-, valued⟩, others⟩ := numerals
      rw [Entries.get, Entries.get?_cons]
      split
      · exact valued
      · exact ih others

/-! ## Entries in another order -/

theorem nestingOfEntries_perm {entries others : List (Value × Value)}
    (order : entries.Perm others) : nestingOfEntries entries = nestingOfEntries others := by
  induction order with
  | nil => rfl
  | cons entry _ ih => rw [nestingOfEntries, nestingOfEntries, ih]
  | swap first second rest =>
      simp only [nestingOfEntries]
      omega
  | trans _ _ one two => rw [one, two]

theorem entriesHaveNumerals_perm {entries others : List (Value × Value)}
    (order : entries.Perm others) : EntriesHaveNumerals entries ↔ EntriesHaveNumerals others := by
  induction order with
  | nil => exact Iff.rfl
  | cons entry _ ih => rw [EntriesHaveNumerals, EntriesHaveNumerals, ih]
  | swap first second rest =>
      simp only [EntriesHaveNumerals]
      exact and_left_comm
  | trans _ _ one two => rw [one, two]

/-! ## The text of a value -/

variable [Host] {first second value : Value} {text : Text}

@[simp] theorem toText_text (characters : Text) : (Value.text characters).toText = .ok characters :=
  rfl

theorem exists_toText_iff :
    (∃ text, value.toText = .ok text) ↔ value.nesting ≤ Host.shown ∧ value.HasNumerals := by
  rw [← textError?_eq_none_iff, toText]
  split <;> simp_all

/-- The text of a value is what it displays. -/
theorem toText_eq_ok (done : value.toText = .ok text) : text = value.display := by
  rw [toText] at done
  split at done <;> cases done
  rfl

/-- Two values that have the same text. -/
def ReadsAs (first second : Value) : Prop :=
  ∃ text, first.toText = .ok text ∧ second.toText = .ok text

/-- Two values that have different texts. -/
def ReadsApart (first second : Value) : Prop :=
  ∃ text word, first.toText = .ok text ∧ second.toText = .ok word ∧ text ≠ word

theorem sameText_of_ok {word : Text} (left : first.toText = .ok text)
    (right : second.toText = .ok word) : first.sameText second = .ok (text == word) := by
  rw [sameText, left, right]
  rfl

/-- Values are compared as texts only where both have one. -/
theorem exists_toText_of_sameText {same : Bool} (done : first.sameText second = .ok same) :
    ∃ text word, first.toText = .ok text ∧ second.toText = .ok word ∧ same = (text == word) := by
  rw [sameText] at done
  cases left : first.toText with
  | error error => simp [left, bind, Except.bind] at done
  | ok text =>
      cases right : second.toText with
      | error error => simp [left, right, bind, Except.bind] at done
      | ok word =>
          rw [left, right] at done
          cases done
          exact ⟨text, word, rfl, rfl, rfl⟩

theorem sameText_eq_true_iff : first.sameText second = .ok true ↔ first.ReadsAs second := by
  constructor
  · intro done
    obtain ⟨text, word, left, right, same⟩ := exists_toText_of_sameText done
    exact ⟨text, left, by rw [right, beq_iff_eq.mp same.symm]⟩
  · rintro ⟨text, left, right⟩
    rw [sameText_of_ok left right, beq_self_eq_true]

theorem sameText_eq_false_iff : first.sameText second = .ok false ↔ first.ReadsApart second := by
  constructor
  · intro done
    obtain ⟨text, word, left, right, same⟩ := exists_toText_of_sameText done
    exact ⟨text, word, left, right, beq_eq_false_iff_ne.mp same.symm⟩
  · rintro ⟨text, word, left, right, apart⟩
    rw [sameText_of_ok left right, beq_false_of_ne apart]

/-- The text of a value reads as everything that the value reads as. -/
theorem ReadsAs.of_toText (alike : first.ReadsAs second) (shown : first.toText = .ok text) :
    (Value.text text).ReadsAs second := by
  obtain ⟨common, left, right⟩ := alike
  cases left.symm.trans shown
  exact ⟨text, toText_text text, right⟩

theorem ReadsAs.not_readsApart (alike : first.ReadsAs second) : ¬ first.ReadsApart second := by
  rintro ⟨text, word, left, right, apart⟩
  obtain ⟨common, isLeft, isRight⟩ := alike
  cases left.symm.trans isLeft
  cases right.symm.trans isRight
  exact apart rfl

/-- Where both values have a text, they read alike or apart. -/
theorem readsAs_or_readsApart {word : Text} (left : first.toText = .ok text)
    (right : second.toText = .ok word) : first.ReadsAs second ∨ first.ReadsApart second := by
  by_cases same : text = word
  · exact .inl ⟨text, left, same ▸ right⟩
  · exact .inr ⟨text, word, left, right, same⟩

end Value

end GovernedRecords
