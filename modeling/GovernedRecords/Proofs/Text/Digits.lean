import GovernedRecords.Text.Basic
import Mathlib.Algebra.Group.Nat.Defs

/-!
# Numerals

A number is written in decimal digits, and no two numbers in the same ones.  A numeral that is
padded to a width has exactly that many digits as long as the number fits, and its last digit
stands after the padded numeral of the other digits (`padded_succ`).
-/

set_option autoImplicit false

namespace GovernedRecords

theorem CodePoint.ofChar_injective {first second : Char}
    (same : CodePoint.ofChar first = CodePoint.ofChar second) : first = second := by
  have values : first.val.toNat = second.val.toNat := Fin.mk.inj same
  exact Char.ext (UInt32.toNat_inj.mp values)

/-- A character is never one half of a surrogate pair. -/
@[simp] theorem CodePoint.isSurrogate_ofChar (character : Char) :
    (ofChar character).isSurrogate = false := by
  have value : (ofChar character).val = character.val.toNat := rfl
  simp only [isSurrogate, value, Bool.and_eq_false_iff, decide_eq_false_iff_not, Nat.not_le]
  rcases character.valid with low | high
  · exact .inl low
  · exact .inr high.1

namespace Text

/-- Two literals are the same text when they are the same string. -/
theorem ofString_inj {first second : String} :
    ofString first = ofString second ↔ first = second := by
  constructor
  · intro same
    exact String.toList_inj.mp ((List.map_inj_right fun _ _ => CodePoint.ofChar_injective).mp same)
  · rintro rfl
    rfl

theorem ofNat_injective {first second : Nat} (same : ofNat first = ofNat second) :
    first = second := by
  have digits : Nat.toDigits 10 first = Nat.toDigits 10 second :=
    (List.map_inj_right fun _ _ => CodePoint.ofChar_injective).mp same
  rw [← Nat.ofDigitChars_ten_toDigits (n := first), digits, Nat.ofDigitChars_ten_toDigits]

/-! ## Digits -/

@[simp] theorem val_digit (number : Nat) : (digit number).val = 48 + number % 10 := by
  rw [digit, CodePoint.ofNat, dif_pos (by omega)]

@[simp] theorem isDigit_digit (number : Nat) : (digit number).isDigit = true := by
  simp only [CodePoint.isDigit, val_digit, Bool.and_eq_true, decide_eq_true_eq]
  omega

theorem ofChar_digitChar {number : Nat} (small : number < 10) :
    CodePoint.ofChar number.digitChar = digit number := by
  apply Fin.ext
  rw [val_digit, Nat.mod_eq_of_lt small]
  exact Nat.toNat_digitChar_of_lt_ten small

theorem digit_mod (number : Nat) : digit (number % 10) = digit number := by
  rw [digit, digit, Nat.mod_mod]

/-- No other character is a digit. -/
theorem digit_ne_ofChar (number : Nat) {character : Char} (other : character.isDigit = false) :
    digit number ≠ CodePoint.ofChar character := by
  have small : number % 10 < 10 := Nat.mod_lt _ (by decide)
  intro same
  rw [← digit_mod, ← ofChar_digitChar small] at same
  rw [← CodePoint.ofChar_injective same, Nat.isDigit_digitChar, decide_eq_false_iff_not] at other
  exact other small

theorem ofNat_of_lt {number : Nat} (small : number < 10) : ofNat number = [digit number] := by
  rw [ofNat, Nat.toDigits_of_lt_base small, List.map_singleton, ofChar_digitChar small]

theorem ofNat_of_le {number : Nat} (large : 10 ≤ number) :
    ofNat number = ofNat (number / 10) ++ [digit number] := by
  rw [ofNat, Nat.toDigits_of_base_le (by decide) large, List.map_append, List.map_singleton,
    ofChar_digitChar (Nat.mod_lt _ (by decide)), digit_mod]
  rfl

theorem le_length_ofNat {number width : Nat} (large : 10 ^ (width + 1) ≤ number) :
    width + 2 ≤ (ofNat number).length := by
  refine Nat.lt_of_not_le ?_
  intro short
  rw [ofNat, List.length_map] at short
  have small := (Nat.length_toDigits_le_iff (by decide) (by omega)).mp short
  omega

/-- A numeral of a number is made of digits. -/
theorem isDigit_of_mem_ofNat {number : Nat} {point : CodePoint} (member : point ∈ ofNat number) :
    point.isDigit = true := by
  induction number using Nat.strongRecOn with
  | ind number ih =>
      rcases Nat.lt_or_ge number 10 with small | large
      · rw [ofNat_of_lt small, List.mem_singleton] at member
        rw [member, isDigit_digit]
      · rw [ofNat_of_le large] at member
        rcases List.mem_append.mp member with earlier | last
        · exact ih (number / 10) (Nat.div_lt_self (by omega) (by decide)) earlier
        · rw [List.mem_singleton.mp last, isDigit_digit]

/-- A numeral of a number begins with a digit. -/
theorem exists_ofNat (number : Nat) :
    ∃ first rest, ofNat number = first :: rest ∧ first.isDigit = true := by
  cases digits : ofNat number with
  | nil => exact absurd (List.map_eq_nil_iff.mp digits) Nat.toDigits_ne_nil
  | cons first rest =>
      exact ⟨first, rest, rfl, isDigit_of_mem_ofNat (digits ▸ List.mem_cons_self)⟩

/-- A numeral of an integer is made of digits and a minus sign. -/
theorem numeral_of_mem_ofInt {integer : Int} {point : CodePoint} (member : point ∈ ofInt integer) :
    point.isDigit = true ∨ point = CodePoint.ofChar '-' := by
  cases integer with
  | ofNat number => exact .inl (isDigit_of_mem_ofNat member)
  | negSucc number =>
      rcases List.mem_cons.mp member with sign | digit
      · exact .inr sign
      · exact .inl (isDigit_of_mem_ofNat digit)

theorem ofInt_injective {first second : Int} (same : ofInt first = ofInt second) :
    first = second := by
  have sign : CodePoint.isDigit (CodePoint.ofChar '-') = false := by decide
  have signed : ∀ number rest, ofNat number ≠ CodePoint.ofChar '-' :: rest := by
    intro number rest same
    have digit := isDigit_of_mem_ofNat (same ▸ List.mem_cons_self)
    rw [sign] at digit
    cases digit
  cases first with
  | ofNat number =>
      cases second with
      | ofNat other => rw [ofNat_injective same]
      | negSucc other => exact absurd same (signed _ _)
  | negSucc number =>
      cases second with
      | ofNat other => exact absurd same.symm (signed _ _)
      | negSucc other => rw [Nat.succ.inj (ofNat_injective (List.cons.inj same).2)]

/-- Where a text of code points of one sort ends is seen when another sort follows it, or
nothing. -/
theorem eq_and_eq_of_append {test : CodePoint → Bool} {first second rest others : Text}
    (left : ∀ each ∈ first, test each = true) (right : ∀ each ∈ second, test each = true)
    (stops : ∀ each ∈ rest.head?, test each = false)
    (otherStops : ∀ each ∈ others.head?, test each = false)
    (same : first ++ rest = second ++ others) : first = second ∧ rest = others := by
  have none : ∀ text : Text, (∀ each ∈ text.head?, test each = false) →
      text.takeWhile test = [] := by
    intro text stops
    cases text with
    | nil => rfl
    | cons point _ => exact List.takeWhile_cons_of_neg (by simp [stops point rfl])
  have beginnings := congrArg (List.takeWhile test) same
  rw [List.takeWhile_append_of_pos left, List.takeWhile_append_of_pos right, none rest stops,
    none others otherStops, List.append_nil, List.append_nil] at beginnings
  subst beginnings
  exact ⟨rfl, List.append_cancel_left same⟩

/-! ## Padded numerals -/

theorem padded_one {number : Nat} (small : number < 10) : padded 1 number = [digit number] := by
  rw [padded, ofNat_of_lt small]
  rfl

/-- The last digit of a padded numeral, and those before it. -/
theorem padded_succ (width number : Nat) :
    padded (width + 2) number = padded (width + 1) (number / 10) ++ [digit number] := by
  rcases Nat.lt_or_ge number 10 with small | large
  · have none : number / 10 = 0 := Nat.div_eq_of_lt small
    have zero : digit 0 = CodePoint.ofChar '0' := rfl
    rw [padded, padded, none, ofNat_of_lt small, ofNat_of_lt (by decide), zero]
    simp only [List.length_singleton, Nat.add_sub_cancel, Nat.add_succ_sub_one]
    rw [List.replicate_succ']
  · have width_left : width + 2 - ((ofNat (number / 10)).length + 1) =
        width + 1 - (ofNat (number / 10)).length := by omega
    rw [padded, padded, ofNat_of_le large]
    simp only [List.length_append, List.length_singleton, width_left, List.append_assoc]

theorem padded_two {number : Nat} (fits : number < 100) :
    padded 2 number = [digit (number / 10), digit number] := by
  rw [padded_succ, padded_one (by omega)]
  rfl

theorem padded_four {number : Nat} (fits : number < 10000) :
    padded 4 number =
      [digit (number / 1000), digit (number / 100), digit (number / 10), digit number] := by
  rw [padded_succ, padded_succ, padded_two (by omega)]
  simp only [Nat.div_div_eq_div_mul]
  rfl

theorem padded_six {number : Nat} (fits : number < 1000000) :
    padded 6 number =
      [digit (number / 100000), digit (number / 10000), digit (number / 1000),
        digit (number / 100), digit (number / 10), digit number] := by
  rw [padded_succ, padded_succ, padded_four (by omega)]
  simp only [Nat.div_div_eq_div_mul]
  rfl

/-- Different numbers have different padded numerals. -/
theorem padded_injective {width : Nat} :
    ∀ {first second : Nat}, padded (width + 1) first = padded (width + 1) second →
      first = second := by
  induction width with
  | zero =>
      have unpadded : ∀ number, padded 1 number = ofNat number := by
        intro number
        obtain ⟨point, rest, written, -⟩ := exists_ofNat number
        simp [padded, written]
      intro first second same
      rw [unpadded, unpadded] at same
      exact ofNat_injective same
  | succ width ih =>
      intro first second same
      rw [padded_succ, padded_succ] at same
      obtain ⟨before, last⟩ := List.append_inj' same rfl
      have tens := ih before
      have ones := congrArg Fin.val (List.singleton_inj.mp last)
      rw [val_digit, val_digit] at ones
      omega

/-- A numeral that is long enough is not padded. -/
theorem padded_of_le {width number : Nat} (large : 10 ^ (width + 1) ≤ number) :
    padded (width + 2) number = ofNat number := by
  have long := le_length_ofNat large
  rw [padded, Nat.sub_eq_zero_of_le long]
  rfl

end Text

end GovernedRecords
