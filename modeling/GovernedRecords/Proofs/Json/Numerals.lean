import GovernedRecords.Json.Reader
import GovernedRecords.Proofs.Entries
import GovernedRecords.Proofs.Value.Texts
import Mathlib.Algebra.Group.Nat.Defs
import Mathlib.Data.List.Induction
import Mathlib.Data.List.TakeWhile

/-!
# Integers that are read

No integer is read that has more digits than a limit, and the numeral of what digits write is no
longer than they are.  So whatever is read within the usual limit can be written again as far as
its integers go (`hasNumerals_of_readWithin`).

The reader of values, of items and of entries call one another, and the bound on their steps falls
with every call; the proof follows them.
-/

set_option autoImplicit false

namespace GovernedRecords

/-! ## The numeral of digits -/

theorem Text.numeral_lt {digits : List Nat} (small : ∀ each ∈ digits, each < 10) :
    Text.numeral digits < 10 ^ digits.length := by
  induction digits using List.reverseRecOn with
  | nil => decide
  | append_singleton digits last ih =>
      have fewer := ih fun each member => small each (List.mem_append_left _ member)
      have unit := small last (by simp)
      rw [Text.numeral, List.foldl_append, List.foldl_cons, List.foldl_nil, List.length_append,
        List.length_singleton, pow_succ]
      change 10 * Text.numeral digits + last < _
      omega

theorem Text.length_ofNat_le {number width : Nat} (dense : 0 < width)
    (small : number < 10 ^ width) : (Text.ofNat number).length ≤ width := by
  rw [Text.ofNat, List.length_map]
  exact (Nat.length_toDigits_le_iff (by decide) dense).mpr small

/-! ## Entries that are put -/

theorem Value.EntriesHaveNumerals.put {entries : Entries} (numerals : EntriesHaveNumerals entries)
    (name : Text) {value : Value} (written : value.HasNumerals) :
    EntriesHaveNumerals (entries.put name value) := by
  induction entries with
  | nil => exact ⟨⟨trivial, written⟩, trivial⟩
  | cons entry rest ih =>
      obtain ⟨key, old⟩ := entry
      obtain ⟨⟨keyed, valued⟩, others⟩ := numerals
      rw [Entries.put]
      split
      · exact ⟨⟨keyed, written⟩, others⟩
      · exact ⟨⟨keyed, valued⟩, ih others⟩

namespace Json

/-! ## The parts of a number -/

theorem isDigit_of_readWhole? {text whole rest : Text}
    (read : readWhole? text = some (whole, rest)) :
    whole ≠ [] ∧ ∀ point ∈ whole, point.isDigit = true := by
  unfold readWhole? at read
  split at read
  · next first rest =>
    split at read
    · next zero =>
      cases read
      subst zero
      simp only [ne_eq, List.cons_ne_nil, not_false_eq_true, List.mem_singleton, forall_eq, true_and]
      decide
    · split at read
      · next digit =>
        cases read
        refine ⟨?_, fun point member => List.mem_takeWhile_imp member⟩
        rw [List.takeWhile_cons_of_pos digit]
        exact List.cons_ne_nil _ _
      · cases read
  · cases read

/-- The numeral of what digits write is no longer than they are. -/
theorem length_ofNat_digitsValue {whole : Text} (dense : whole ≠ [])
    (digits : ∀ point ∈ whole, point.isDigit = true) :
    (Text.ofNat (digitsValue whole)).length ≤ whole.length := by
  refine Text.length_ofNat_le (List.length_pos_iff.mpr dense) ?_
  rw [digitsValue, ← List.length_map (fun point : CodePoint => point.val - 48)]
  refine Text.numeral_lt ?_
  intro each member
  obtain ⟨point, isIn, rfl⟩ := List.mem_map.mp member
  have digit := digits point isIn
  simp only [CodePoint.isDigit, Bool.and_eq_true, decide_eq_true_eq] at digit
  omega

theorem hasNumerals_of_readNumber {limits : Limits} (few : limits.digits ≤ Numeral.greatestDigits)
    {negative : Bool} {text rest : Text} {value : Value}
    (read : readNumber limits negative text = .ok (value, rest)) : value.HasNumerals := by
  unfold readNumber at read
  split at read
  · cases read
  · next whole after isWhole =>
    obtain ⟨dense, digits⟩ := isDigit_of_readWhole? isWhole
    simp only at read
    split at read
    · split at read
      · cases read
      · next short =>
        cases read
        have fits := length_ofNat_digitsValue dense digits
        have same : (if negative then -(digitsValue whole : Int) else digitsValue whole).natAbs =
            digitsValue whole := by cases negative <;> simp
        simp only [Value.HasNumerals, Numeral.isWritten, same, decide_eq_true_eq]
        omega
    · cases read
      trivial

theorem hasNumerals_of_readScalar {limits : Limits} (few : limits.digits ≤ Numeral.greatestDigits)
    {text rest : Text} {value : Value} (read : readScalar limits text = .ok (value, rest)) :
    value.HasNumerals := by
  unfold readScalar at read
  split at read
  · next word value found =>
    cases read
    have named : (word, value) ∈ words := List.mem_of_find?_eq_some found
    simp only [words, List.mem_cons, Prod.mk.injEq, List.not_mem_nil, or_false] at named
    rcases named with ⟨-, rfl⟩ | ⟨-, rfl⟩ | ⟨-, rfl⟩ | ⟨-, rfl⟩ | ⟨-, rfl⟩ | ⟨-, rfl⟩ <;> trivial
  · split at read
    · split at read <;> exact hasNumerals_of_readNumber few read
    · cases read

theorem Limits.digits_inside? {limits inside : Limits} (there : limits.inside? = some inside) :
    inside.digits = limits.digits := by
  rw [inside?] at there
  split at there <;> cases there
  rfl

/-! ## Values -/

mutual
theorem hasNumerals_of_readValue {bound : Nat} {limits : Limits}
    (few : limits.digits ≤ Numeral.greatestDigits) {text rest : Text} {value : Value}
    (read : readValue bound limits text = .ok (value, rest)) : value.HasNumerals := by
  match bound, text with
  | 0, _ | _ + 1, [] => cases read
  | bound + 1, first :: after =>
      rw [readValue] at read
      split at read
      · cases string : readString after with
        | error cause => rw [string] at read; cases read
        | ok characters => rw [string] at read; cases read; trivial
      · split at read
        · split at read
          · cases read
          · cases read
          · next inside second others room _ =>
            split at read
            · cases read
              trivial
            · cases items : readItems bound inside (second :: others) with
              | error cause => rw [items] at read; cases read
              | ok found =>
                  rw [items] at read
                  cases read
                  exact haveNumerals_of_readItems
                    (by rwa [Limits.digits_inside? room]) items
        · split at read
          · split at read
            · cases read
            · cases read
            · next inside second others room _ =>
              split at read
              · cases read
                trivial
              · cases entries : readEntries bound inside [] (second :: others) with
                | error cause => rw [entries] at read; cases read
                | ok found =>
                    rw [entries] at read
                    cases read
                    exact haveNumerals_of_readEntries
                      (by rwa [Limits.digits_inside? room])
                      (show Value.EntriesHaveNumerals [] from trivial) entries
          · exact hasNumerals_of_readScalar few read

theorem haveNumerals_of_readItems {bound : Nat} {limits : Limits}
    (few : limits.digits ≤ Numeral.greatestDigits) {text rest : Text} {items : List Value}
    (read : readItems bound limits text = .ok (items, rest)) : Value.HaveNumerals items := by
  match bound with
  | 0 => cases read
  | bound + 1 =>
      rw [readItems] at read
      split at read
      · cases read
      · next item after one =>
        have first := hasNumerals_of_readValue few one
        split at read
        · cases read
        · next mark others _ =>
          split at read
          · cases read
            exact ⟨first, trivial⟩
          · split at read
            · cases more : readItems bound limits (skipBlanks others) with
              | error cause => rw [more] at read; cases read
              | ok found =>
                  rw [more] at read
                  cases read
                  exact ⟨first, haveNumerals_of_readItems few more⟩
            · cases read

theorem haveNumerals_of_readEntries {bound : Nat} {limits : Limits}
    (few : limits.digits ≤ Numeral.greatestDigits) {before entries : Entries} {text rest : Text}
    (numerals : Value.EntriesHaveNumerals before)
    (read : readEntries bound limits before text = .ok (entries, rest)) :
    Value.EntriesHaveNumerals entries := by
  match bound, text with
  | 0, _ | _ + 1, [] => cases read
  | bound + 1, first :: after =>
      rw [readEntries] at read
      split at read
      · split at read
        · cases read
        · next name tail _ =>
          split at read
          · cases read
          · split at read
            · split at read
              · cases read
              · next value later one =>
                have put := numerals.put name (hasNumerals_of_readValue few one)
                split at read
                · cases read
                · split at read
                  · cases read
                    exact put
                  · split at read
                    · exact haveNumerals_of_readEntries few put read
                    · cases read
            · cases read
      · cases read
end

/-- **What is read within the usual number of digits has numerals throughout.** -/
theorem hasNumerals_of_readWithin {depth : Nat} {text : Text} {value : Value}
    (read : readWithin ⟨depth, Numeral.greatestDigits⟩ text = .ok value) : value.HasNumerals := by
  unfold readWithin at read
  split at read
  · next found rest whole =>
    split at read <;> cases read
    exact hasNumerals_of_readValue (Nat.le_refl _) whole
  · cases read

end Json

end GovernedRecords
