import GovernedRecords.Number.Numeral
import GovernedRecords.Proofs.Number.Shortest
import GovernedRecords.Proofs.Text.Digits

/-!
# The numeral of a double is read as it

A numeral has digits before the point, maybe digits after it, and maybe an exponent (`Layout`), and
it is read as the decimal of its digits (`Layout.read?_text`).  Each of the ways in which a decimal
is laid out is such a numeral, with zeros before or after the digits of the decimal, which change
nothing but the power (`Layout.exists_layout`).  Since the shortest decimal of a number is read as
the number, so is its numeral (`Double.exists_layout`).
-/

set_option autoImplicit false

namespace GovernedRecords

open Text

namespace CodePoint

/-- The value of a digit. -/
theorem decimal?_of_isDigit {point : CodePoint} (digit : point.isDigit = true) :
    point.decimal? = some (point.val - 48) := by
  have small : point.val < 128 := by
    simp only [isDigit, Bool.and_eq_true, decide_eq_true_eq] at digit
    omega
  rw [decimal?, if_pos small, if_pos digit]

end CodePoint

namespace Numeral

/-- The values of digits. -/
def values (digits : Text) : List Nat := digits.map fun point => point.val - 48

theorem numeral_append (first second : List Nat) :
    numeral (first ++ second) = numeral first * 10 ^ second.length + numeral second := by
  have continued : ∀ total : Nat, second.foldl (fun total each => 10 * total + each) total =
      total * 10 ^ second.length + numeral second := by
    induction second with
    | nil => simp [numeral]
    | cons digit rest ih =>
        intro total
        have whole : numeral (digit :: rest) =
            (10 * 0 + digit) * 10 ^ rest.length + numeral rest := ih _
        rw [List.foldl_cons, ih, whole, List.length_cons, pow_succ]
        ring
  rw [numeral, List.foldl_append, continued]
  rfl

/-- The digits of a number have its value. -/
theorem numeral_values_ofNat (number : Nat) : numeral (values (ofNat number)) = number := by
  induction number using Nat.strongRecOn with
  | ind number ih =>
      rcases Nat.lt_or_ge number 10 with small | large
      · rw [ofNat_of_lt small]
        simp [values, numeral, Nat.mod_eq_of_lt small]
      · rw [ofNat_of_le large, values, List.map_append, numeral_append, ← values, ih _ (by omega)]
        simp [numeral]
        omega

theorem numeral_values_zeros (count : Nat) :
    numeral (values (List.replicate count (CodePoint.ofChar '0'))) = 0 := by
  induction count with
  | zero => rfl
  | succ count ih =>
      rw [List.replicate_succ', values, List.map_append, numeral_append, ← values, ih]
      rfl

/-! ## Reading the parts -/

/-- Digits are read up to the first code point that is none. -/
theorem spanDigits_append {digits rest : Text} (all : ∀ point ∈ digits, point.isDigit = true)
    (stops : ∀ point ∈ rest.head?, point.decimal? = none) :
    spanDigits (digits ++ rest) = (values digits, rest) := by
  induction digits with
  | nil =>
      cases rest with
      | nil => rfl
      | cons point others => simp [spanDigits, stops point rfl, values]
  | cons point digits ih =>
      obtain ⟨digit, others⟩ := List.forall_mem_cons.mp all
      simp [spanDigits, CodePoint.decimal?_of_isDigit digit, ih others, values]

/-- Digits that make up a whole text. -/
theorem spanDigits_eq {digits : Text} (all : ∀ point ∈ digits, point.isDigit = true) :
    spanDigits digits = (values digits, []) := by
  have read : spanDigits (digits ++ []) = (values digits, []) :=
    spanDigits_append all (by simp)
  rwa [List.append_nil] at read

/-- A digit is no sign. -/
theorem spanSign_of_isDigit {point : CodePoint} (digit : point.isDigit = true) (rest : Text) :
    spanSign (point :: rest) = (false, point :: rest) := by
  have minus : point ≠ CodePoint.ofChar '-' := by
    rintro rfl
    exact absurd digit (by decide)
  have plus : point ≠ CodePoint.ofChar '+' := by
    rintro rfl
    exact absurd digit (by decide)
  rw [spanSign, if_neg minus, if_neg plus]

theorem isDigit_of_mem_padded {width number : Nat} :
    ∀ point ∈ padded width number, point.isDigit = true := by
  intro point member
  rcases List.mem_append.mp member with zero | digit
  · rw [List.eq_of_mem_replicate zero]
    decide
  · exact isDigit_of_mem_ofNat digit

theorem numeral_values_padded (width number : Nat) :
    numeral (values (padded width number)) = number := by
  rw [padded, values, List.map_append, numeral_append, ← values, ← values, numeral_values_zeros,
    numeral_values_ofNat, Nat.zero_mul, Nat.zero_add]

/-- An exponent is written with a sign and digits. -/
theorem exponentText_eq (exponent : Int) :
    Double.exponentText exponent = CodePoint.ofChar 'e' ::
      CodePoint.ofChar (if exponent < 0 then '-' else '+') :: padded 2 exponent.natAbs := by
  rw [Double.exponentText]
  split <;> simp [concat] <;> rfl

/-- The exponent of scientific writing is read back. -/
theorem readExponent?_exponentText (exponent : Int) :
    readExponent? (Double.exponentText exponent) = some exponent := by
  have present : values (padded 2 exponent.natAbs) ≠ [] := by
    obtain ⟨first, rest, written, -⟩ := exists_ofNat exponent.natAbs
    simp [values, padded, written]
  have whole := numeral_values_padded 2 exponent.natAbs
  have digits := spanDigits_eq (@isDigit_of_mem_padded 2 exponent.natAbs)
  rw [exponentText_eq, readExponent?, if_pos (by decide)]
  by_cases negative : exponent < 0
  · have minus : spanSign (CodePoint.ofChar '-' :: padded 2 exponent.natAbs) =
        (true, padded 2 exponent.natAbs) := rfl
    simp only [if_pos negative, minus, digits, whole, if_true]
    congr 1
    omega
  · have plus : spanSign (CodePoint.ofChar '+' :: padded 2 exponent.natAbs) =
        (false, padded 2 exponent.natAbs) := rfl
    simp only [if_neg negative, plus, digits, whole, Bool.false_eq_true, if_false]
    congr 1
    omega

/-- What is read is a number in its normal form, if it is not too large. -/
theorem canonical_of_read? {text : Text} {negative : Bool} {significand : Nat} {exponent : Int}
    (read : read? text = some (.finite negative significand exponent)) :
    Double.Canonical significand exponent := by
  simp only [read?, Option.ite_none_left_eq_some, Option.map_eq_some_iff] at read
  obtain ⟨-, shift, -, rounded⟩ := read
  exact Double.canonical_ofDecimal rounded

end Numeral

/-! ## Layouts -/

/-- The parts of a numeral: the digits before the point, those after it, and the exponent. -/
structure Layout where
  whole : Text
  fraction : Text
  exponent : Option Int

namespace Layout

/-- The digits after a point, if there are any. -/
def pointed (fraction : Text) : Text :=
  if fraction.isEmpty then [] else CodePoint.ofChar '.' :: fraction

/-- The exponent, if there is one. -/
def ending (exponent : Option Int) : Text := (exponent.map Double.exponentText).getD []

/-- The text of a numeral. -/
def text (layout : Layout) : Text :=
  layout.whole ++ (pointed layout.fraction ++ ending layout.exponent)

/-- The number that all digits write. -/
def digits (layout : Layout) : Nat := numeral (Numeral.values (layout.whole ++ layout.fraction))

/-- The power of ten of the last digit. -/
def power (layout : Layout) : Int := layout.exponent.getD 0 - layout.fraction.length

/-- The parts are digits, of which there are some before the point. -/
structure Proper (layout : Layout) : Prop where
  present : layout.whole ≠ []
  whole : ∀ point ∈ layout.whole, point.isDigit = true
  fraction : ∀ point ∈ layout.fraction, point.isDigit = true

theorem readExponent?_ending (exponent : Option Int) :
    Numeral.readExponent? (ending exponent) = some (exponent.getD 0) := by
  cases exponent with
  | none => rfl
  | some exponent => exact Numeral.readExponent?_exponentText exponent

theorem head?_ending (exponent : Option Int) :
    ∀ point ∈ (ending exponent).head?, point = CodePoint.ofChar 'e' := by
  cases exponent with
  | none => simp [ending]
  | some exponent =>
      intro point first
      rw [ending, Option.map_some, Option.getD_some, Numeral.exponentText_eq] at first
      exact (Option.some.inj first).symm

variable {layout : Layout}

/-- **A numeral is read as the decimal of its digits.** -/
theorem read?_text (proper : layout.Proper) :
    Numeral.read? layout.text = some (Double.ofDecimal false layout.digits layout.power) := by
  obtain ⟨whole, fraction, exponent⟩ := layout
  obtain ⟨present, wholeDigits, fractionDigits⟩ := proper
  simp only at present wholeDigits fractionDigits
  have letter : (CodePoint.ofChar 'e').decimal? = none := rfl
  have point : (CodePoint.ofChar '.').decimal? = none := rfl
  have stops : ∀ first ∈ (ending exponent).head?, first.decimal? = none := by
    intro first member
    rw [head?_ending exponent first member]
    exact letter
  have unsigned : Numeral.spanSign (text ⟨whole, fraction, exponent⟩) =
      (false, text ⟨whole, fraction, exponent⟩) := by
    cases whole with
    | nil => exact absurd rfl present
    | cons first others =>
        exact Numeral.spanSign_of_isDigit (List.forall_mem_cons.mp wholeDigits).1 _
  have some : (Numeral.values whole).isEmpty = false := by
    simpa [Numeral.values] using present
  rw [Numeral.read?, unsigned]
  -- Without a fraction the reader must find no point in what follows the digits.
  cases fraction with
  | nil =>
      have read : Numeral.spanDigits (text ⟨whole, [], exponent⟩) =
          (Numeral.values whole, ending exponent) := Numeral.spanDigits_append wholeDigits stops
      have exponentRead := readExponent?_ending exponent
      have head := head?_ending exponent
      simp only [read]
      generalize ending exponent = last at exponentRead head ⊢
      cases last with
      | nil => simp [exponentRead, some, digits, power]
      | cons mark rest =>
          obtain rfl := head mark rfl
          have other : CodePoint.ofChar 'e' ≠ CodePoint.ofChar '.' := by decide
          simp [exponentRead, some, other, digits, power]
  | cons first others =>
      have read : Numeral.spanDigits (text ⟨whole, first :: others, exponent⟩) =
          (Numeral.values whole, CodePoint.ofChar '.' :: (first :: others ++ ending exponent)) := by
        refine Numeral.spanDigits_append wholeDigits ?_
        intro other member
        cases member
        exact point
      have more := Numeral.spanDigits_append fractionDigits stops
      simp only [read, if_true, more, some, Bool.false_and, Bool.false_eq_true, if_false,
        readExponent?_ending]
      simp [digits, power, Numeral.values]

theorem pointed_of_ne_nil {fraction : Text} (present : fraction ≠ []) :
    pointed fraction = CodePoint.ofChar '.' :: fraction := by
  cases fraction with
  | nil => exact absurd rfl present
  | cons first rest => rfl

/-- A layout is read as a decimal. -/
structure Writes (layout : Layout) (number : Nat) (power : Int) : Prop where
  proper : layout.Proper
  same : ∀ negative,
    Double.ofDecimal negative layout.digits layout.power = Double.ofDecimal negative number power

section Kinds

variable {number : Nat} {power : Int}

/-- A layout of proper parts is read as the decimal of its digits. -/
theorem Writes.of_digits (proper : layout.Proper) (value : layout.digits = number)
    (last : layout.power = power) : layout.Writes number power where
  proper := proper
  same _ := by rw [value, last]

theorem isDigit_of_mem_zeros (count : Nat) :
    ∀ point ∈ List.replicate count (CodePoint.ofChar '0'), point.isDigit = true := by
  intro point member
  rw [List.eq_of_mem_replicate member]
  decide

/-- The first digit stands before the point, and the exponent follows. -/
theorem writes_scientific {first : CodePoint} {rest : Text}
    (digits : ofNat number = first :: rest) :
    Writes ⟨[first], rest, some (rest.length + power)⟩ number power := by
  have all : ∀ point ∈ ofNat number, point.isDigit = true := fun _ => isDigit_of_mem_ofNat
  rw [digits] at all
  obtain ⟨head, others⟩ := List.forall_mem_cons.mp all
  have value : Layout.digits ⟨[first], rest, some (rest.length + power)⟩ = number := by
    rw [Layout.digits, List.singleton_append, ← digits, Numeral.numeral_values_ofNat]
  have last : Layout.power ⟨[first], rest, some (rest.length + power)⟩ = power := by
    simp only [Layout.power, Option.getD_some]
    omega
  exact .of_digits ⟨List.cons_ne_nil _ _, List.forall_mem_singleton.mpr head, others⟩ value last

/-- Zeros stand between the digits and the point, and one after it. -/
theorem writes_integral (number zeros : Nat) :
    Writes ⟨ofNat number ++ List.replicate zeros (CodePoint.ofChar '0'), "0", none⟩
      number zeros := by
  obtain ⟨first, rest, written, -⟩ := exists_ofNat number
  have value : Layout.digits
      ⟨ofNat number ++ List.replicate zeros (CodePoint.ofChar '0'), "0", none⟩ =
        number * 10 ^ (zeros + 1) := by
    have appended : Numeral.values (ofNat number ++
        List.replicate zeros (CodePoint.ofChar '0') ++ ("0" : Text)) =
          Numeral.values (ofNat number) ++
            Numeral.values (List.replicate (zeros + 1) (CodePoint.ofChar '0')) := by
      rw [List.append_assoc, Numeral.values, List.map_append, List.replicate_succ']
      rfl
    rw [Layout.digits, appended, Numeral.numeral_append, Numeral.numeral_values_ofNat,
      Numeral.numeral_values_zeros, Numeral.values, List.length_map, List.length_replicate,
      Nat.add_zero]
  have last : Layout.power
      ⟨ofNat number ++ List.replicate zeros (CodePoint.ofChar '0'), "0", none⟩ = -1 := rfl
  refine ⟨⟨by simp [written], ?_, ?_⟩, ?_⟩
  · intro point member
    rcases List.mem_append.mp member with digit | zero
    · exact isDigit_of_mem_ofNat digit
    · exact isDigit_of_mem_zeros zeros point zero
  · exact isDigit_of_mem_zeros 1
  · intro negative
    rw [value, last, Double.ofDecimal_mul_pow]
    congr 1
    omega

/-- Zeros stand between the point and the digits. -/
theorem writes_fraction (number zeros : Nat) :
    Writes ⟨"0", List.replicate zeros (CodePoint.ofChar '0') ++ ofNat number, none⟩ number
      (-(zeros + (ofNat number).length)) := by
  have value : Layout.digits
      ⟨"0", List.replicate zeros (CodePoint.ofChar '0') ++ ofNat number, none⟩ = number := by
    have appended : Numeral.values (("0" : Text) ++
        (List.replicate zeros (CodePoint.ofChar '0') ++ ofNat number)) =
          Numeral.values (List.replicate (zeros + 1) (CodePoint.ofChar '0')) ++
            Numeral.values (ofNat number) := by
      rw [← List.append_assoc, Numeral.values, List.map_append]
      rfl
    rw [Layout.digits, appended, Numeral.numeral_append, Numeral.numeral_values_ofNat,
      Numeral.numeral_values_zeros, Nat.zero_mul, Nat.zero_add]
  have last : Layout.power
      ⟨"0", List.replicate zeros (CodePoint.ofChar '0') ++ ofNat number, none⟩ =
        -(zeros + (ofNat number).length) := by
    simp [Layout.power]
  refine .of_digits ⟨List.cons_ne_nil _ _, isDigit_of_mem_zeros 1, ?_⟩ value last
  intro point member
  rcases List.mem_append.mp member with zero | digit
  · exact isDigit_of_mem_zeros zeros point zero
  · exact isDigit_of_mem_ofNat digit

/-- The point stands among the digits. -/
theorem writes_pointed {number count : Nat} (some : 0 < count)
    (few : count ≤ (ofNat number).length) :
    Writes ⟨(ofNat number).take count, (ofNat number).drop count, none⟩ number
      (count - (ofNat number).length) := by
  have value : Layout.digits ⟨(ofNat number).take count, (ofNat number).drop count, none⟩ =
      number := by
    rw [Layout.digits, List.take_append_drop, Numeral.numeral_values_ofNat]
  have last : Layout.power ⟨(ofNat number).take count, (ofNat number).drop count, none⟩ =
      count - (ofNat number).length := by
    simp only [Layout.power, Option.getD_none, List.length_drop]
    omega
  refine .of_digits ⟨?_, ?_, ?_⟩ value last
  · rw [← List.length_pos_iff]
    simp only [List.length_take]
    omega
  · exact fun point member => isDigit_of_mem_ofNat (List.mem_of_mem_take member)
  · exact fun point member => isDigit_of_mem_ofNat (List.mem_of_mem_drop member)

end Kinds

/-- The numeral of a decimal has a layout that is read as the decimal. -/
theorem exists_layout (decimal : Double.Decimal) :
    ∃ layout : Layout, layout.text = Double.layOut decimal ∧
      layout.Writes decimal.digits decimal.power := by
  obtain ⟨number, power⟩ := decimal
  obtain ⟨first, rest, written, -⟩ := exists_ofNat number
  have long : (ofNat number).length = rest.length + 1 := by rw [written, List.length_cons]
  simp only [Double.layOut]
  split
  · refine ⟨_, ?_, writes_scientific written⟩
    have last : ((ofNat number).length : Int) + power - 1 = rest.length + power := by omega
    rw [last, written]
    cases rest with
    | nil => rfl
    | cons second others => simp [text, pointed, ending, concat]; rfl
  · split
    · next large =>
        obtain ⟨zeros, rfl⟩ := Int.eq_ofNat_of_zero_le large
        refine ⟨_, ?_, writes_integral number zeros⟩
        simp [text, pointed, ending, concat]
        rfl
    · split
      · next small =>
          obtain ⟨zeros, same⟩ : ∃ zeros : Nat, power = -(zeros + (ofNat number).length) :=
            ⟨(-((ofNat number).length + power)).toNat, by omega⟩
          subst same
          refine ⟨_, ?_, writes_fraction number zeros⟩
          have between : (-((ofNat number).length +
              -((zeros : Int) + (ofNat number).length) - 1) - 1).toNat = zeros := by omega
          rw [between, text, pointed_of_ne_nil (by simp [written])]
          simp [ending, concat]
          rfl
      · next within large =>
          obtain ⟨count, same⟩ : ∃ count : Nat, power = count - (ofNat number).length :=
            ⟨(power + (ofNat number).length).toNat, by omega⟩
          subst same
          have before : ((ofNat number).length + ((count : Int) - (ofNat number).length) - 1 +
              1).toNat = count := by omega
          have fewer : count < (ofNat number).length := by omega
          refine ⟨_, ?_, writes_pointed (by omega) fewer.le⟩
          have more : (ofNat number).drop count ≠ [] := by
            rw [← List.length_pos_iff, List.length_drop]
            omega
          rw [before, text, pointed_of_ne_nil more]
          simp [ending, concat]
          rfl

end Layout

/-- **The numeral of a finite number is read as the number.**  It has the layout of one, behind a
minus sign if the number is negative. -/
theorem Double.exists_layout {significand : Nat} {exponent : Int} (negative : Bool)
    (canonical : Canonical significand exponent) :
    ∃ layout : Layout, layout.Proper ∧
      Numeral.read? layout.text = some (.finite false significand exponent) ∧
      (Double.finite negative significand exponent).toText =
        if negative then CodePoint.ofChar '-' :: layout.text else layout.text := by
  by_cases nonzero : significand = 0
  · have least : exponent = leastExponent := by
      refine canonical.full.resolve_right ?_
      rw [nonzero]
      decide
    subst nonzero least
    refine ⟨⟨"0", "0", none⟩, ⟨List.cons_ne_nil _ _,
      Layout.isDigit_of_mem_zeros 1, Layout.isDigit_of_mem_zeros 1⟩, rfl, ?_⟩
    cases negative <;> rfl
  · obtain ⟨layout, written, proper, same⟩ := Layout.exists_layout (shortest significand exponent)
    refine ⟨layout, proper, ?_, ?_⟩
    · rw [Layout.read?_text proper, same, ofDecimal_shortest canonical nonzero]
    · rw [toText, if_neg nonzero, written]

end GovernedRecords
