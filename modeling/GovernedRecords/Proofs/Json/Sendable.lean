import GovernedRecords.Http.Message
import GovernedRecords.Proofs.Json.Canonical

/-!
# Values that can be sent

A response shows a value as compact JSON and sends the bytes of that text.  This can fail: JSON
has no numbers that are not finite, an integer with too many digits has no numeral, and a lone
surrogate has no bytes.  A value without any of these is sendable (`Value.isSendable`).  It is
written as a text that has bytes (`exists_writeAt_of_isSendable`), so a response that shows it is
made (`exists_json`).

A value stays sendable when its entries are read, put, left out or merged, and the texts that
the library makes of it, its numerals and what it displays, are plain.
-/

set_option autoImplicit false

namespace GovernedRecords

/-! ## Numerals -/

namespace Double

theorem isPlain_exponentText (exponent : Int) : (exponentText exponent).IsPlain := by
  refine Text.isPlain_concat ?_
  simp only [List.forall_mem_cons]
  refine ⟨Text.isPlain_ofString, ?_, Text.isPlain_padded _ _, List.forall_mem_nil _⟩
  split <;> exact Text.isPlain_ofString

theorem isPlain_layOut (decimal : Decimal) : (layOut decimal).IsPlain := by
  have digits := Text.isPlain_ofNat decimal.digits
  have power := isPlain_exponentText
  unfold layOut
  dsimp only
  split
  · split
    · exact List.forall_mem_nil _
    · next only same =>
        rw [same] at digits
        exact (power _).cons (digits _ List.mem_cons_self)
    · next first rest _ same =>
        rw [same] at digits
        obtain ⟨head, others⟩ := List.forall_mem_cons.mp digits
        refine Text.isPlain_concat ?_
        simp only [List.forall_mem_cons]
        exact ⟨List.forall_mem_cons.mpr ⟨head, List.forall_mem_nil _⟩, Text.isPlain_ofString,
          others, power _, List.forall_mem_nil _⟩
  · split
    · refine Text.isPlain_concat ?_
      simp only [List.forall_mem_cons]
      exact ⟨digits, Text.isPlain_replicate _ '0', Text.isPlain_ofString, List.forall_mem_nil _⟩
    · split
      · refine Text.isPlain_concat ?_
        simp only [List.forall_mem_cons]
        exact ⟨Text.isPlain_ofString, Text.isPlain_replicate _ '0', digits, List.forall_mem_nil _⟩
      · refine Text.isPlain_concat ?_
        simp only [List.forall_mem_cons]
        exact ⟨fun point member => digits point (List.mem_of_mem_take member),
          Text.isPlain_ofString, fun point member => digits point (List.mem_of_mem_drop member),
          List.forall_mem_nil _⟩

/-- The numeral of any number is plain. -/
theorem isPlain_toText (number : Double) : number.toText.IsPlain := by
  cases number with
  | nan => exact Text.isPlain_ofString
  | infinity negative => cases negative <;> exact Text.isPlain_ofString
  | finite negative significand exponent =>
      have magnitude : Text.IsPlain
          (if significand = 0 then ("0.0" : Text) else layOut (shortest significand exponent)) := by
        split
        · exact Text.isPlain_ofString
        · exact isPlain_layOut _
      cases negative with
      | false => exact magnitude
      | true => exact magnitude.cons (CodePoint.isSurrogate_ofChar _)

end Double

/-! ## Sendable values -/

mutual
/-- Whether a value can be sent: it is of the kinds that JSON has, its numbers are finite and have
numerals, and its texts, keys included, hold no lone surrogates. -/
def Value.isSendable : Value → Bool
  | .null => true
  | .bool _ => true
  | .int integer => Numeral.isWritten integer
  | .float number => number.isFinite
  | .text characters => !characters.any CodePoint.isSurrogate
  | .list items => Value.areSendable items
  | .tuple items => Value.areSendable items
  | .object entries => Entries.areSendable entries
  | _ => false

/-- Whether all values of a list can be sent. -/
def Value.areSendable : List Value → Bool
  | [] => true
  | first :: rest => first.isSendable && Value.areSendable rest

/-- Whether all entries have text keys and can be sent. -/
def Entries.areSendable : List (Value × Value) → Bool
  | [] => true
  | (key, value) :: rest =>
    key.asText?.isSome && key.isSendable && value.isSendable && Entries.areSendable rest
end

theorem Value.isSendable_text_iff {text : Text} :
    (Value.text text).isSendable = true ↔ text.IsPlain := by
  rw [Value.isSendable, Bool.not_eq_true', Text.any_isSurrogate_eq_false]

namespace Entries

/-- A sendable entry has a plain text as its key and a sendable value. -/
structure SendableEntry (entry : Value × Value) : Prop where
  key : ∃ name, entry.1 = .text name ∧ name.IsPlain
  value : entry.2.isSendable = true

theorem areSendable_cons_iff {entry : Value × Value} {rest : Entries} :
    areSendable (entry :: rest) = true ↔ SendableEntry entry ∧ areSendable rest = true := by
  obtain ⟨key, value⟩ := entry
  simp only [areSendable, Bool.and_eq_true, Option.isSome_iff_exists, Value.asText?_eq_some]
  constructor
  · rintro ⟨⟨⟨⟨name, rfl⟩, plain⟩, sent⟩, others⟩
    exact ⟨⟨⟨name, rfl, Value.isSendable_text_iff.mp plain⟩, sent⟩, others⟩
  · rintro ⟨⟨⟨name, rfl, plain⟩, sent⟩, others⟩
    exact ⟨⟨⟨⟨name, rfl⟩, Value.isSendable_text_iff.mpr plain⟩, sent⟩, others⟩

theorem areSendable_iff {entries : Entries} :
    areSendable entries = true ↔ ∀ entry ∈ entries, SendableEntry entry := by
  induction entries with
  | nil => simp [areSendable]
  | cons entry rest ih => rw [areSendable_cons_iff, ih, List.forall_mem_cons]

variable {entries changes : Entries} {name : Text} {value : Value}

theorem areSendable_put (plain : name.IsPlain) (sent : value.isSendable = true)
    (sendable : areSendable entries = true) : areSendable (put name value entries) = true := by
  rw [areSendable_iff] at sendable ⊢
  intro entry member
  rcases mem_put member with rfl | old
  · exact ⟨⟨name, rfl, plain⟩, sent⟩
  · exact sendable entry old

theorem isSendable_get? (sendable : areSendable entries = true)
    (found : get? entries name = some value) : value.isSendable = true :=
  (areSendable_iff.mp sendable _ (mem_of_get? found)).value

theorem isSendable_get (sendable : areSendable entries = true) (name : Text) :
    (get entries name).isSendable = true := by
  rw [get]
  cases found : get? entries name with
  | none => rfl
  | some value => exact isSendable_get? sendable found

theorem areSendable_filter (sendable : areSendable entries = true) (test : Value × Value → Bool) :
    areSendable (entries.filter test) = true := by
  rw [areSendable_iff] at sendable ⊢
  intro entry member
  exact sendable entry (List.mem_filter.mp member).1

theorem areSendable_merge (sendable : areSendable entries = true)
    (changed : areSendable changes = true) : areSendable (merge entries changes) = true := by
  refine @merge_induction (fun each => areSendable each = true) entries changes sendable ?_
  intro before name value member kept
  obtain ⟨⟨key, same, plain⟩, sent⟩ := areSendable_iff.mp changed _ member
  cases same
  exact areSendable_put plain sent kept

end Entries

theorem Value.isSendable_ofFields {fields : List (Text × Value)}
    (sendable : ∀ field ∈ fields, field.1.IsPlain ∧ field.2.isSendable = true) :
    (Value.ofFields fields).isSendable = true := by
  rw [Value.ofFields, Value.isSendable, Entries.areSendable_iff]
  intro entry member
  obtain ⟨field, inFields, rfl⟩ := List.mem_map.mp member
  obtain ⟨plain, sent⟩ := sendable field inFields
  exact ⟨⟨field.1, rfl, plain⟩, sent⟩

/-! ## What sendable values display -/

mutual
/-- A sendable value inside a container is a plain text. -/
theorem Value.isPlain_inspected :
    ∀ value : Value, value.isSendable = true → value.inspected.IsPlain
  | .null, _ => Text.isPlain_ofString
  | .bool truth, _ => by cases truth <;> exact Text.isPlain_ofString
  | .int integer, _ => Text.isPlain_ofInt integer
  | .float number, _ => Double.isPlain_toText number
  | .text characters, sendable => Text.isPlain_quoted (Value.isSendable_text_iff.mp sendable)
  | .list items, sendable => by
      refine Text.isPlain_concat ?_
      simp only [List.forall_mem_cons]
      exact ⟨Text.isPlain_ofString, Value.isPlain_inspectedItems items sendable,
        Text.isPlain_ofString, List.forall_mem_nil _⟩
  | .tuple items, sendable => by
      refine Text.isPlain_concat ?_
      simp only [List.forall_mem_cons]
      refine ⟨Text.isPlain_ofString, Value.isPlain_inspectedItems items sendable, ?_,
        List.forall_mem_nil _⟩
      split <;> exact Text.isPlain_ofString
  | .object entries, sendable => by
      refine Text.isPlain_concat ?_
      simp only [List.forall_mem_cons]
      exact ⟨Text.isPlain_ofString, Value.isPlain_inspectedEntries entries sendable,
        Text.isPlain_ofString, List.forall_mem_nil _⟩

theorem Value.isPlain_inspectedItems :
    ∀ items : List Value, Value.areSendable items = true → (Value.inspectedItems items).IsPlain
  | [], _ => List.forall_mem_nil _
  | [only], sendable => by
      rw [Value.areSendable, Bool.and_eq_true] at sendable
      exact Value.isPlain_inspected only sendable.1
  | first :: second :: rest, sendable => by
      rw [Value.areSendable, Bool.and_eq_true] at sendable
      refine Text.isPlain_concat ?_
      simp only [List.forall_mem_cons]
      exact ⟨Value.isPlain_inspected first sendable.1, Text.isPlain_ofString,
        Value.isPlain_inspectedItems (second :: rest) sendable.2, List.forall_mem_nil _⟩

theorem Value.isPlain_inspectedEntries :
    ∀ entries : List (Value × Value), Entries.areSendable entries = true →
      (Value.inspectedEntries entries).IsPlain
  | [], _ => List.forall_mem_nil _
  | [(key, value)], sendable => by
      simp only [Entries.areSendable, Bool.and_eq_true] at sendable
      refine Text.isPlain_concat ?_
      simp only [List.forall_mem_cons]
      exact ⟨Value.isPlain_inspected key sendable.1.1.2, Text.isPlain_ofString,
        Value.isPlain_inspected value sendable.1.2, List.forall_mem_nil _⟩
  | (key, value) :: second :: rest, sendable => by
      rw [Entries.areSendable] at sendable
      simp only [Bool.and_eq_true] at sendable
      refine Text.isPlain_concat ?_
      simp only [List.forall_mem_cons]
      exact ⟨Value.isPlain_inspected key sendable.1.1.2, Text.isPlain_ofString,
        Value.isPlain_inspected value sendable.1.2, Text.isPlain_ofString,
        Value.isPlain_inspectedEntries (second :: rest) sendable.2, List.forall_mem_nil _⟩
end

/-- A sendable value displays a plain text. -/
theorem Value.isPlain_display {value : Value} (sendable : value.isSendable = true) :
    value.display.IsPlain := by
  cases value with
  | text characters => exact Value.isSendable_text_iff.mp sendable
  | date day => cases sendable
  | datetime moment => cases sendable
  | _ => exact Value.isPlain_inspected _ sendable

/-! ## Writing sendable values -/

namespace Json

theorem writeDouble_of_isFinite {number : Double} (finite : number.isFinite = true) :
    writeDouble number = number.toText := by
  cases number with
  | finite negative significand exponent => rfl
  | nan => cases finite
  | infinity negative => cases finite

mutual
/-- Every sendable value is written as a plain text. -/
theorem exists_writeAt_of_isSendable {style : Style} (readable : style.Readable) :
    ∀ (value : Value) (level : Nat), value.isSendable = true →
      ∃ written, writeAt style level value = .ok written ∧ written.IsPlain
  | .null, _, _ => ⟨_, rfl, Text.isPlain_ofString⟩
  | .bool truth, _, _ => ⟨_, rfl, by cases truth <;> exact Text.isPlain_ofString⟩
  | .int integer, _, written => ⟨_, writeInteger_of_isWritten written, Text.isPlain_ofInt integer⟩
  | .float number, _, finite => by
      rw [Value.isSendable] at finite
      refine ⟨number.toText, ?_, number.isPlain_toText⟩
      rw [writeAt, finite, Bool.true_or, if_pos rfl, writeDouble_of_isFinite finite]
  | .text characters, _, sendable => by
      have plain := Value.isSendable_text_iff.mp sendable
      refine ⟨_, writeText_of_isPlain style plain, ?_⟩
      rw [readable.whole]
      exact isPlain_writeString plain
  | .list items, level, sendable => by
      obtain ⟨written, done, plains⟩ :=
        exists_writeItems_of_areSendable readable items (level + 1) sendable
      exact ⟨_, by rw [writeAt, done]; rfl,
        isPlain_bracket readable level Text.isPlain_ofString Text.isPlain_ofString plains⟩
  | .tuple items, level, sendable => by
      obtain ⟨written, done, plains⟩ :=
        exists_writeItems_of_areSendable readable items (level + 1) sendable
      exact ⟨_, by rw [writeAt, done]; rfl,
        isPlain_bracket readable level Text.isPlain_ofString Text.isPlain_ofString plains⟩
  | .object entries, level, sendable => by
      obtain ⟨written, done, plains⟩ :=
        exists_writeEntries_of_areSendable readable entries (level + 1) sendable
      exact ⟨_, by rw [writeAt, done]; rfl,
        isPlain_bracket readable level Text.isPlain_ofString Text.isPlain_ofString plains⟩

theorem exists_writeItems_of_areSendable {style : Style} (readable : style.Readable) :
    ∀ (items : List Value) (level : Nat), Value.areSendable items = true →
      ∃ written, writeItems style level items = .ok written ∧ ∀ each ∈ written, each.IsPlain
  | [], _, _ => ⟨[], rfl, List.forall_mem_nil _⟩
  | first :: rest, level, sendable => by
      rw [Value.areSendable, Bool.and_eq_true] at sendable
      obtain ⟨text, done, plain⟩ := exists_writeAt_of_isSendable readable first level sendable.1
      obtain ⟨texts, allDone, plains⟩ :=
        exists_writeItems_of_areSendable readable rest level sendable.2
      exact ⟨text :: texts, by rw [writeItems, done, allDone]; rfl,
        List.forall_mem_cons.mpr ⟨plain, plains⟩⟩

theorem exists_writeEntries_of_areSendable {style : Style} (readable : style.Readable) :
    ∀ (entries : List (Value × Value)) (level : Nat), Entries.areSendable entries = true →
      ∃ written, writeEntries style level entries = .ok written ∧ ∀ each ∈ written, each.IsPlain
  | [], _, _ => ⟨[], rfl, List.forall_mem_nil _⟩
  | (key, value) :: rest, level, sendable => by
      obtain ⟨⟨⟨name, same, namePlain⟩, sent⟩, others⟩ :=
        Entries.areSendable_cons_iff.mp sendable
      obtain ⟨blanks, colon, blank⟩ := readable.keys
      obtain ⟨text, done, plain⟩ := exists_writeAt_of_isSendable readable value level sent
      obtain ⟨texts, allDone, plains⟩ :=
        exists_writeEntries_of_areSendable readable rest level others
      have mark : Text.IsPlain style.keyEnd := by
        rw [colon]
        exact (isPlain_of_isBlank blank).cons (CodePoint.isSurrogate_ofChar _)
      have quoted := isPlain_writeString namePlain
      refine ⟨Text.concat [writeString false name, style.keyEnd, text] :: texts, ?_,
        List.forall_mem_cons.mpr ⟨Text.isPlain_concat ?_, plains⟩⟩
      · dsimp only at same
        rw [writeEntries, same, keyText, done, allDone]
        simp only [bind, Except.bind, writeText_of_isPlain style namePlain, readable.whole]
        rfl
      · simp only [List.forall_mem_cons]
        exact ⟨quoted, mark, plain, List.forall_mem_nil _⟩
end

end Json

namespace HttpResponse

mutual
/-- A sendable value stays so without its private entries. -/
theorem isSendable_visible : ∀ value : Value, value.isSendable = true →
    (visible value).isSendable = true
  | .null, sendable => sendable
  | .bool _, sendable => sendable
  | .int _, sendable => sendable
  | .float _, sendable => sendable
  | .text _, sendable => sendable
  | .list items, sendable => areSendable_visibleItems items sendable
  | .tuple items, sendable => areSendable_visibleItems items sendable
  | .object entries, sendable => areSendable_visibleEntries entries sendable

theorem areSendable_visibleItems : ∀ items : List Value, Value.areSendable items = true →
    Value.areSendable (visibleItems items) = true
  | [], _ => rfl
  | first :: rest, sendable => by
      rw [Value.areSendable, Bool.and_eq_true] at sendable
      rw [visibleItems, Value.areSendable, isSendable_visible first sendable.1,
        areSendable_visibleItems rest sendable.2, Bool.and_self]

theorem areSendable_visibleEntries : ∀ entries : List (Value × Value),
    Entries.areSendable entries = true → Entries.areSendable (visibleEntries entries) = true
  | [], _ => rfl
  | (key, value) :: rest, sendable => by
      obtain ⟨⟨key, sent⟩, others⟩ := Entries.areSendable_cons_iff.mp sendable
      have kept := areSendable_visibleEntries rest others
      rw [visibleEntries]
      split
      · exact kept
      · exact Entries.areSendable_cons_iff.mpr ⟨⟨key, isSendable_visible value sent⟩, kept⟩
end

/-- **A response that shows a sendable value is made.** -/
theorem exists_json (status : Nat) (headers : Headers) {value : Value}
    (sendable : value.isSendable = true) :
    ∃ octets, json status headers value =
      .ok ⟨status, some "application/json", headers, octets⟩ := by
  obtain ⟨written, done, plain⟩ :=
    Json.exists_writeAt_of_isSendable Json.compact_readable value 0 sendable
  obtain ⟨octets, encoded⟩ :=
    Option.isSome_iff_exists.mp ((Utf8.isSome_encode?_iff written).mpr plain)
  refine ⟨octets, ?_⟩
  rw [json, Json.write, done]
  simp only [Except.mapError, bind, Except.bind, bytes, encoded]
  rfl

end HttpResponse

end GovernedRecords
