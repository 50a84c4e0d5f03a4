import GovernedRecords.Proofs.Text.Digits
import GovernedRecords.Proofs.Text.Utf8

/-!
# Texts without lone surrogates

A text is plain when none of its code points is a surrogate.  Every character of a literal is
whole, and so is every digit, so the texts that the library makes itself are plain: literals,
numerals, and what is put together from plain parts or escaped.
-/

set_option autoImplicit false

namespace GovernedRecords.Text

/-! ## Parts -/

theorem IsPlain.cons {point : CodePoint} {text : Text} (whole : point.isSurrogate = false)
    (plain : text.IsPlain) : Text.IsPlain (point :: text) :=
  List.forall_mem_cons.mpr ⟨whole, plain⟩

theorem isPlain_ofString {characters : String} :
    (Text.ofString characters).IsPlain := by
  intro point member
  obtain ⟨character, -, rfl⟩ := List.mem_map.mp member
  exact CodePoint.isSurrogate_ofChar character

theorem isPlain_replicate (count : Nat) (character : Char) :
    Text.IsPlain (List.replicate count (CodePoint.ofChar character)) := by
  intro point member
  rw [List.eq_of_mem_replicate member]
  exact CodePoint.isSurrogate_ofChar character

theorem isPlain_concat {parts : List Text} (plain : ∀ part ∈ parts, part.IsPlain) :
    (Text.concat parts).IsPlain := by
  intro point member
  obtain ⟨part, inParts, inPart⟩ := List.mem_flatten.mp member
  exact plain part inParts point inPart

theorem isPlain_join {separator : Text} (plain : separator.IsPlain) {texts : List Text}
    (plains : ∀ each ∈ texts, each.IsPlain) : (Text.join separator texts).IsPlain := by
  induction texts with
  | nil => exact List.forall_mem_nil _
  | cons first others ih =>
      cases others with
      | nil => exact plains first List.mem_cons_self
      | cons second others =>
          rw [Text.join]
          exact ((plains first List.mem_cons_self).append plain).append
            (ih fun each member => plains each (List.mem_cons_of_mem _ member))

/-! ## Numerals -/

theorem isPlain_ofNat (number : Nat) : (Text.ofNat number).IsPlain := by
  intro point member
  obtain ⟨character, -, rfl⟩ := List.mem_map.mp member
  exact CodePoint.isSurrogate_ofChar character

theorem isPlain_ofInt (integer : Int) : (Text.ofInt integer).IsPlain := by
  cases integer with
  | ofNat number => exact isPlain_ofNat number
  | negSucc number => exact (isPlain_ofNat _).cons (CodePoint.isSurrogate_ofChar _)

theorem isPlain_padded (width number : Nat) : (Text.padded width number).IsPlain :=
  (isPlain_replicate _ '0').append (isPlain_ofNat number)

theorem isSurrogate_hexDigit (number : Nat) : (Text.hexDigit number).isSurrogate = false := by
  have small : number % 16 < 16 := Nat.mod_lt _ (by decide)
  have digits : ∀ value, value < 16 → (Text.hexDigit value).isSurrogate = false := by decide
  have same : Text.hexDigit number = Text.hexDigit (number % 16) := by
    simp only [Text.hexDigit, Nat.mod_mod]
  rw [same]
  exact digits _ small

theorem isPlain_hex (width number : Nat) : (Text.hex width number).IsPlain := by
  induction width generalizing number with
  | zero => exact List.forall_mem_nil _
  | succ width ih =>
      exact (ih _).append (List.forall_mem_singleton.mpr (isSurrogate_hexDigit number))

/-! ## Quoted texts -/

theorem isPlain_numberedEscape (number : Nat) : (Text.numberedEscape number).IsPlain := by
  have lettered : ∀ letter width, Text.IsPlain
      (CodePoint.ofChar '\\' :: CodePoint.ofChar letter :: Text.hex width number) := by
    intro letter width
    exact ((isPlain_hex _ _).cons (CodePoint.isSurrogate_ofChar _)).cons
      (CodePoint.isSurrogate_ofChar _)
  unfold numberedEscape
  split
  · exact lettered 'x' 2
  · split
    · exact lettered 'u' 4
    · exact lettered 'U' 8

theorem isPlain_escaped {shown : CodePoint → Bool} {quote point : CodePoint}
    (whole : point.isSurrogate = false) : (Text.escaped shown quote point).IsPlain := by
  have pair : ∀ second : CodePoint, second.isSurrogate = false →
      Text.IsPlain [CodePoint.ofChar '\\', second] := by
    intro second plain
    exact (IsPlain.cons plain (List.forall_mem_nil _)).cons (CodePoint.isSurrogate_ofChar _)
  unfold escaped
  split
  · exact pair _ whole
  · split
    · exact pair _ (CodePoint.isSurrogate_ofChar _)
    · split
      · exact pair _ (CodePoint.isSurrogate_ofChar _)
      · split
        · exact pair _ (CodePoint.isSurrogate_ofChar _)
        · split
          · exact IsPlain.cons whole (List.forall_mem_nil _)
          · exact isPlain_numberedEscape _

/-- A plain text is plain between quotes. -/
theorem isPlain_quoted {text : Text} (plain : text.IsPlain) : text.quoted.IsPlain := by
  have mark : ∀ first second, (Text.quoteFor first second).isSurrogate = false := by
    intro first second
    unfold quoteFor
    split <;> exact CodePoint.isSurrogate_ofChar _
  have body : ∀ shown quote, Text.IsPlain (text.flatMap (Text.escaped shown quote)) := by
    intro shown quote point member
    obtain ⟨origin, inText, inEscaped⟩ := List.mem_flatMap.mp member
    exact isPlain_escaped (plain origin inText) point inEscaped
  exact ((body _ _).cons (mark _ _)).append (IsPlain.cons (mark _ _) (List.forall_mem_nil _))

end GovernedRecords.Text
