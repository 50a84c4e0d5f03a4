import GovernedRecords.Number.Double
import Mathlib.Algebra.Group.Nat.Defs

/-!
# Integers beyond all doubles

The doubles end at `2 ^ 1024 - 2 ^ 971`.  The number after it would be `2 ^ 1024`, whose significand
is even, so an integer halfway between the two is rounded to that and overflows.  This is the least
integer that no double approximates (`Double.ofInt?_eq_none_iff`).

The number of bits of an integer decides the exponent with which it is rounded, so whether it
overflows is clear from its bits unless there are exactly 1024 of them.  Then it does when rounding
carries into one bit more.
-/

set_option autoImplicit false

namespace GovernedRecords.Double

variable {number : Nat}

/-- The least natural that no double approximates: the highest 54 of 1024 bits. -/
def leastOverflow : Nat := (2 ^ 54 - 1) * 2 ^ 970

theorem scaled_natCast (number up : Nat) :
    scaled number 1 (up : Int) = (number * 2 ^ up, 1) := rfl

theorem scaled_neg_natCast (number down : Nat) :
    scaled number 1 (-(down : Int)) = (number, 2 ^ down) := by
  cases down with
  | zero => simp [scaled]
  | succ down =>
      rw [← Nat.one_mul (2 ^ (down + 1))]
      rfl

/-- An integer is rounded with the exponent that leaves 53 of its bits. -/
theorem ofQuotient_one (negative : Bool) (nonzero : number ≠ 0) :
    ofQuotient negative number 1 = nearestAt negative number 1 ((number.log2 : Int) - 52) := by
  have least : 2 ^ number.log2 ≤ number := Nat.log2_self_le nonzero
  have above : leastExponent ≤ (number.log2 : Int) - 53 := by
    rw [leastExponent]
    omega
  have whole : ¬ (scaled number 1 (-((number.log2 : Int) - 53))).1 /
      (scaled number 1 (-((number.log2 : Int) - 53))).2 < Nat.pow 2 53 := by
    rw [Nat.not_lt]
    rcases Nat.le_total number.log2 53 with few | many
    · obtain ⟨up, bits⟩ := Nat.exists_eq_add_of_le few
      have power : -((number.log2 : Int) - 53) = (up : Int) := by omega
      rw [power, scaled_natCast, Nat.div_one]
      calc 2 ^ 53 = 2 ^ number.log2 * 2 ^ up := by rw [bits, pow_add]
        _ ≤ number * 2 ^ up := Nat.mul_le_mul_right _ least
    · obtain ⟨down, bits⟩ := Nat.exists_eq_add_of_le many
      have power : -((number.log2 : Int) - 53) = -(down : Int) := by omega
      rw [power, scaled_neg_natCast, Nat.le_div_iff_mul_le (Nat.two_pow_pos down)]
      calc 2 ^ 53 * 2 ^ down = 2 ^ number.log2 := by rw [bits, pow_add]
        _ ≤ number := least
  have one : Nat.log2 1 = 0 := by decide
  have exponent : (number.log2 : Int) - 53 + 1 = (number.log2 : Int) - 52 := by omega
  simp only [ofQuotient, nonzero, if_false, one, Int.natCast_zero, Int.sub_zero,
    Int.max_eq_left above, whole, exponent]

/-- Rounding carries from halfway between the last number of 53 bits and the next on. -/
theorem roundQuotient_eq_iff {low : Nat} (fits : number < 2 ^ 54 * 2 ^ low) :
    roundQuotient number (2 ^ (low + 1)) = 2 ^ 53 ↔ 2 ^ 54 * 2 ^ low ≤ number + 2 ^ low := by
  have positive : 0 < 2 ^ low := Nat.two_pow_pos low
  rw [pow_succ']
  generalize 2 ^ low = half at *
  have parts := Nat.div_add_mod number (2 * half)
  have rest : number % (2 * half) < 2 * half := Nat.mod_lt _ (by omega)
  have bound : number / (2 * half) < 2 ^ 53 := by
    rw [Nat.div_lt_iff_lt_mul (by omega)]
    omega
  unfold roundQuotient
  generalize number / (2 * half) = quotient at *
  generalize number % (2 * half) = remainder at *
  by_cases last : quotient = 2 ^ 53 - 1
  · subst last
    dsimp only
    split
    · omega
    · split <;> omega
  · have less : 2 * half * quotient ≤ 2 * half * (2 ^ 53 - 2) :=
      Nat.mul_le_mul_left _ (by omega)
    constructor
    · intro carried
      dsimp only at carried
      split at carried
      · omega
      · split at carried <;> omega
    · omega

theorem exists_infinity_iff {beyond : Prop} [Decidable beyond] {negative : Bool}
    {significand : Nat} {exponent : Int} :
    (∃ sign, (if beyond then infinity negative else finite negative significand exponent) =
      infinity sign) ↔ beyond := by
  by_cases holds : beyond <;> simp [holds]

/-- A number overflows when its exponent is beyond the greatest, or when rounding carries from the
greatest exponent to the next. -/
theorem nearestAt_eq_infinity_iff {negative : Bool} {numerator denominator : Nat} {exponent : Int} :
    (∃ sign, nearestAt negative numerator denominator exponent = infinity sign) ↔
      greatestExponent < exponent ∨ (exponent = greatestExponent ∧
        roundQuotient (scaled numerator denominator (-exponent)).1
          (scaled numerator denominator (-exponent)).2 = 2 ^ 53) := by
  have bits : Nat.pow 2 53 = 2 ^ 53 := rfl
  unfold nearestAt
  dsimp only
  rw [exists_infinity_iff, bits]
  split
  · next carried =>
      simp only [carried, and_true]
      omega
  · next uncarried => simp only [uncarried, and_false, or_false]

theorem lt_of_log2_lt (nonzero : number ≠ 0) (high low : Nat) (few : number.log2 < high + low) :
    number < 2 ^ high * 2 ^ low := by
  rw [← pow_add]
  exact (Nat.log2_lt nonzero).mp few

theorem le_of_le_log2 (nonzero : number ≠ 0) (high low : Nat) (many : high + low ≤ number.log2) :
    2 ^ high * 2 ^ low ≤ number := by
  rw [← pow_add]
  exact (Nat.le_log2 nonzero).mp many

/-- **An integer is beyond all doubles exactly from halfway between the greatest of them and the
next power of two on.** -/
theorem ofInt?_eq_none_iff (integer : Int) :
    ofInt? integer = none ↔ leastOverflow ≤ integer.natAbs := by
  have infinite : ofInt? integer = none ↔
      ∃ sign, ofQuotient (integer < 0) integer.natAbs 1 = .infinity sign := by
    rw [ofInt?]
    cases ofQuotient (integer < 0) integer.natAbs 1 <;> simp
  rw [infinite]
  generalize integer.natAbs = number
  by_cases nonzero : number = 0
  · subst nonzero
    simp only [ofQuotient, if_true, zero, reduceCtorEq, exists_false, false_iff]
    decide +kernel
  rw [ofQuotient_one _ nonzero, nearestAt_eq_infinity_iff, greatestExponent, leastOverflow]
  rcases Nat.lt_trichotomy number.log2 1023 with few | all | many
  · have less := lt_of_log2_lt nonzero 53 970 few
    generalize 2 ^ 970 = half at *
    omega
  · have less := lt_of_log2_lt nonzero 54 970 (by omega)
    have exponent : (number.log2 : Int) - 52 = ((970 + 1 : Nat) : Int) := by omega
    rw [exponent, scaled_neg_natCast, roundQuotient_eq_iff less]
    generalize 2 ^ 970 = half at *
    omega
  · have more := le_of_le_log2 nonzero 54 970 (by omega)
    generalize 2 ^ 970 = half at *
    omega

end GovernedRecords.Double
