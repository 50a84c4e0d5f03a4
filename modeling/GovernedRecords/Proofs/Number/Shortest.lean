import GovernedRecords.Number.Shortest
import GovernedRecords.Proofs.Number.Rounding
import Mathlib.Data.Nat.Cast.Order.Field

/-!
# The shortest decimal of a double is read as it

A decimal is rounded like its quotient unless it is far beyond the range of all numbers
(`ofDecimal_eq_if`), so a zero at the end of its digits may be moved into its power
(`ofDecimal_ten`), and a decimal just below a number is read as the number (`ofDecimal_of_near`).

The search for the shortest decimal takes nothing that is not read as the number
(`nearestDecimal?_cases`).  It could fail only by finding nothing; but the last of its grids has a
unit that is less than an eighth of the last bit of the number (`ten_zpow_le`), so that the multiple
of the unit below the number is read as it.
-/

set_option autoImplicit false

namespace GovernedRecords.Double

variable {negative : Bool} {significand digits : Nat} {exponent power : Int}

/-! ## Decimals -/

/-- A decimal as a quotient of naturals. -/
def decimalParts (digits : Nat) (power : Int) : Nat × Nat :=
  match power with
  | .ofNat up => (digits * Nat.pow 10 up, 1)
  | .negSucc down => (digits, Nat.pow 10 (down + 1))

theorem decimalParts_pos (digits : Nat) (power : Int) : 0 < (decimalParts digits power).2 := by
  cases power with
  | ofNat up => exact Nat.one_pos
  | negSucc down => exact Nat.pow_pos (by decide)

theorem decimalParts_div (digits : Nat) (power : Int) :
    ((decimalParts digits power).1 : ℚ) / (decimalParts digits power).2 = digits * 10 ^ power := by
  cases power with
  | ofNat up => simp [decimalParts]
  | negSucc down => simp [decimalParts, zpow_negSucc, div_eq_mul_inv]

/-- How many digits a decimal has before the point. -/
def decimalPlaces (digits : Nat) (power : Int) : Int :=
  ((Nat.toDigits 10 digits).length : Int) + power

/-- The digits before the point bound a decimal. -/
theorem decimalPlaces_bounds (nonzero : digits ≠ 0) (power : Int) :
    (10 : ℚ) ^ (decimalPlaces digits power - 1) ≤ digits * 10 ^ power ∧
      (digits : ℚ) * 10 ^ power < 10 ^ decimalPlaces digits power := by
  have ten : (10 : ℚ) ≠ 0 := by norm_num
  have positive : (0 : ℚ) < 10 ^ power := by positivity
  obtain ⟨length, long⟩ : ∃ length, (Nat.toDigits 10 digits).length = length + 1 :=
    Nat.exists_eq_add_one.mpr Nat.length_toDigits_pos
  have below : digits < 10 ^ (length + 1) :=
    (Nat.length_toDigits_le_iff (by decide) (by omega)).mp long.le
  have above : 10 ^ length ≤ digits := by
    cases length with
    | zero => omega
    | succ length =>
        refine not_lt.mp ?_
        intro less
        have short := (Nat.length_toDigits_le_iff (by decide) (by omega)).mpr less
        omega
  have places : decimalPlaces digits power = ((length + 1 : Nat) : Int) + power := by
    rw [decimalPlaces, long]
  have fewer : decimalPlaces digits power - 1 = (length : Int) + power := by omega
  constructor
  · rw [fewer, zpow_add₀ ten, zpow_natCast]
    exact mul_le_mul_of_nonneg_right (by exact_mod_cast above) positive.le
  · rw [places, zpow_add₀ ten, zpow_natCast]
    exact mul_lt_mul_of_pos_right (by exact_mod_cast below) positive

theorem ofDecimal_eq_if (negative : Bool) (nonzero : digits ≠ 0) (power : Int) :
    ofDecimal negative digits power =
      if 400 < decimalPlaces digits power then .infinity negative
      else if decimalPlaces digits power < -400 then zero negative
      else ofQuotient negative (decimalParts digits power).1 (decimalParts digits power).2 := by
  unfold ofDecimal
  rw [if_neg nonzero]
  cases power <;> rfl

/-- A decimal is rounded to a number in its normal form, if it is not too large. -/
theorem canonical_ofDecimal {sign : Bool}
    (rounded : ofDecimal negative digits power = .finite sign significand exponent) :
    Canonical significand exponent := by
  by_cases nonzero : digits = 0
  · unfold ofDecimal at rounded
    rw [if_pos nonzero] at rounded
    cases rounded
    exact canonical_zero
  · rw [ofDecimal_eq_if negative nonzero] at rounded
    split at rounded
    · cases rounded
    · split at rounded
      · cases rounded
        exact canonical_zero
      · exact (canonical_ofQuotient (decimalParts_pos digits power) rounded).2

/-- A zero at the end of the digits moves the point. -/
theorem ofDecimal_ten (negative : Bool) (digits : Nat) (power : Int) :
    ofDecimal negative (digits * 10) power = ofDecimal negative digits (power + 1) := by
  by_cases nonzero : digits = 0
  · subst nonzero
    rfl
  · have more : digits * 10 ≠ 0 := by omega
    have length : (Nat.toDigits 10 (digits * 10)).length = (Nat.toDigits 10 digits).length + 1 := by
      rw [Nat.toDigits_of_base_le (by decide) (by omega), List.length_append,
        Nat.mul_div_cancel _ (by decide)]
      rfl
    have places : decimalPlaces (digits * 10) power = decimalPlaces digits (power + 1) := by
      rw [decimalPlaces, decimalPlaces, length]
      omega
    have value : ((decimalParts (digits * 10) power).1 : ℚ) / (decimalParts (digits * 10) power).2 =
        (decimalParts digits (power + 1)).1 / (decimalParts digits (power + 1)).2 := by
      rw [decimalParts_div, decimalParts_div, zpow_add_one₀ (by norm_num)]
      push_cast
      ring
    rw [ofDecimal_eq_if negative more, ofDecimal_eq_if negative nonzero, places,
      ofQuotient_congr negative (decimalParts_pos _ _) (decimalParts_pos _ _) value]

theorem ofDecimal_mul_pow (negative : Bool) (digits zeros : Nat) (power : Int) :
    ofDecimal negative (digits * 10 ^ zeros) power = ofDecimal negative digits (power + zeros) := by
  induction zeros generalizing power with
  | zero => simp
  | succ zeros ih =>
      rw [pow_succ, ← Nat.mul_assoc, ofDecimal_ten, ih, Nat.cast_succ]
      congr 1
      ring

/-- Four hundred places are more than any number has. -/
theorem two_zpow_le : (2 : ℚ) ^ (1200 : Int) ≤ 10 ^ (400 : Int) := by
  have left : (2 : ℚ) ^ (1200 : Int) = (2 ^ 3) ^ 400 := by
    rw [← pow_mul]
    exact zpow_natCast 2 1200
  have right : (10 : ℚ) ^ (400 : Int) = 10 ^ 400 := zpow_natCast 10 400
  rw [left, right]
  exact pow_le_pow_left₀ (by norm_num) (by norm_num) 400

theorem digits_ne_zero_of_near (nonzero : significand ≠ 0)
    (above : (significand - 1 / 8) * 2 ^ exponent < (digits : ℚ) * 10 ^ power) : digits ≠ 0 := by
  rintro rfl
  have some := (pos_of_near nonzero exponent).trans above
  simp at some

/-- A decimal near a number is not larger than any. -/
theorem decimalPlaces_le (canonical : Canonical significand exponent) (nonzero : significand ≠ 0)
    (above : (significand - 1 / 8) * 2 ^ exponent < (digits : ℚ) * 10 ^ power)
    (below : (digits : ℚ) * 10 ^ power ≤ significand * 2 ^ exponent) :
    decimalPlaces digits power ≤ 400 := by
  obtain ⟨least, -⟩ := decimalPlaces_bounds (digits_ne_zero_of_near nonzero above) power
  by_contra many
  have few : (significand : ℚ) < 2 ^ 53 := by exact_mod_cast canonical.few
  have grows : (10 : ℚ) ^ (400 : Int) ≤ 10 ^ (decimalPlaces digits power - 1) :=
    zpow_le_zpow_right₀ (by norm_num) (by omega)
  have range : (2 : ℚ) ^ exponent ≤ 2 ^ (971 : Int) :=
    zpow_le_zpow_right₀ (by norm_num) canonical.greatest
  have apart : (2 : ℚ) ^ (53 : Int) * 2 ^ (971 : Int) ≤ 2 ^ (1200 : Int) := by
    rw [← zpow_add₀ (by norm_num)]
    exact zpow_le_zpow_right₀ (by norm_num) (by decide)
  have bits : (2 : ℚ) ^ (53 : Int) = 2 ^ 53 := zpow_natCast 2 53
  have product : (significand : ℚ) * 2 ^ exponent < 2 ^ 53 * 2 ^ (971 : Int) :=
    mul_lt_mul few range (by positivity) (by norm_num)
  rw [bits] at apart
  exact absurd (product.trans_le apart)
    (not_lt.mpr (two_zpow_le.trans (grows.trans (least.trans below))))

/-- Nor is it smaller than any. -/
theorem le_decimalPlaces (canonical : Canonical significand exponent) (nonzero : significand ≠ 0)
    (above : (significand - 1 / 8) * 2 ^ exponent < (digits : ℚ) * 10 ^ power) :
    -400 ≤ decimalPlaces digits power := by
  obtain ⟨-, most⟩ := decimalPlaces_bounds (digits_ne_zero_of_near nonzero above) power
  by_contra few
  have one : (1 : ℚ) ≤ significand := by exact_mod_cast Nat.one_le_iff_ne_zero.mpr nonzero
  have grows : (10 : ℚ) ^ decimalPlaces digits power ≤ 10 ^ (-400 : Int) :=
    zpow_le_zpow_right₀ (by norm_num) (by omega)
  have range : (2 : ℚ) ^ (-1074 : Int) ≤ 2 ^ exponent :=
    zpow_le_zpow_right₀ (by norm_num) canonical.least
  have tens : (10 : ℚ) ^ (-400 : Int) ≤ 2 ^ (-1200 : Int) := by
    rw [zpow_neg, zpow_neg]
    exact inv_anti₀ (by positivity) two_zpow_le
  have apart : (2 : ℚ) ^ (-1200 : Int) ≤ 2 ^ (-1075 : Int) :=
    zpow_le_zpow_right₀ (by norm_num) (by decide)
  have double : (2 : ℚ) ^ (-1074 : Int) = 2 * 2 ^ (-1075 : Int) :=
    zpow_one_add₀ (by norm_num) (-1075)
  have tiny : (0 : ℚ) < 2 ^ (-1075 : Int) := by positivity
  have product : 7 / 8 * (2 : ℚ) ^ (-1074 : Int) ≤ (significand - 1 / 8) * 2 ^ exponent :=
    mul_le_mul (by linarith) range (by positivity) (by linarith)
  linarith

/-- **A decimal just below a number is read as it.** -/
theorem ofDecimal_of_near (negative : Bool) (canonical : Canonical significand exponent)
    (nonzero : significand ≠ 0)
    (above : (significand - 1 / 8) * 2 ^ exponent < (digits : ℚ) * 10 ^ power)
    (below : (digits : ℚ) * 10 ^ power ≤ significand * 2 ^ exponent) :
    ofDecimal negative digits power = .finite negative significand exponent := by
  have small := decimalPlaces_le canonical nonzero above below
  have large := le_decimalPlaces canonical nonzero above
  rw [ofDecimal_eq_if negative (digits_ne_zero_of_near nonzero above), if_neg (not_lt.mpr small),
    if_neg (not_lt.mpr large)]
  rw [← decimalParts_div] at above below
  exact ofQuotient_of_near negative canonical nonzero (decimalParts_pos _ _) above below

/-! ## The search -/

theorem gridParts_pos (significand : Nat) (exponent power : Int) :
    0 < (gridParts significand exponent power).2 := by
  have positive : 0 < (scaled significand 1 exponent).2 := scaled_pos Nat.one_pos exponent
  cases power with
  | ofNat up => exact Nat.mul_pos positive (Nat.pow_pos (by decide))
  | negSucc down => exact positive

theorem gridParts_div (significand : Nat) (exponent power : Int) :
    ((gridParts significand exponent power).1 : ℚ) / (gridParts significand exponent power).2 =
      significand * 2 ^ exponent / 10 ^ power := by
  have value : ((scaled significand 1 exponent).1 : ℚ) / (scaled significand 1 exponent).2 =
      significand * 2 ^ exponent := by
    rw [scaled_div, Nat.cast_one, div_one]
  rw [← value]
  cases power with
  | ofNat up =>
      simp [gridParts, div_mul_eq_div_div]
  | negSucc down =>
      simp [gridParts, zpow_negSucc]
      ring

/-- What is found on a grid is read as the number, and nothing is found only if the lower neighbour
of the number is not. -/
theorem nearestDecimal?_cases (significand : Nat) (exponent power : Int) :
    (∃ decimal, nearestDecimal? significand exponent power = some decimal ∧
        ofDecimal false decimal.digits decimal.power = .finite false significand exponent) ∨
      (nearestDecimal? significand exponent power = none ∧
        ofDecimal false ((gridParts significand exponent power).1 /
          (gridParts significand exponent power).2) power ≠
            .finite false significand exponent) := by
  unfold nearestDecimal?
  dsimp only
  split
  · next reads _ => exact .inl ⟨_, rfl, of_decide_eq_true reads⟩
  · next _ reads => exact .inl ⟨_, rfl, of_decide_eq_true reads⟩
  · next reads _ => exact .inr ⟨rfl, of_decide_eq_false reads⟩
  · next reads next =>
    split
    · exact .inl ⟨_, rfl, of_decide_eq_true reads⟩
    · exact .inl ⟨_, rfl, of_decide_eq_true next⟩

/-- What a search finds is read as the number, if something is found on its last grid. -/
theorem ofDecimal_searchDecimal {count : Nat} :
    ∀ {power : Int}, nearestDecimal? significand exponent (power - count) ≠ none →
      ofDecimal false (searchDecimal significand exponent (count + 1) power).digits
        (searchDecimal significand exponent (count + 1) power).power =
          .finite false significand exponent := by
  induction count with
  | zero =>
      intro power last
      rcases nearestDecimal?_cases significand exponent power with
        ⟨decimal, found, reads⟩ | ⟨none, -⟩
      · rw [searchDecimal, found]
        exact reads
      · exact absurd none (by simpa using last)
  | succ count ih =>
      intro power last
      rw [searchDecimal]
      rcases nearestDecimal?_cases significand exponent power with
        ⟨decimal, found, reads⟩ | ⟨none, -⟩
      · rw [found]
        exact reads
      · rw [none]
        refine ih ?_
        have next : power - 1 - (count : Int) = power - ((count + 1 : Nat) : Int) := by omega
        rw [next]
        exact last

/-- On a grid much finer than the last bit of a number something is found. -/
theorem nearestDecimal?_of_fine (canonical : Canonical significand exponent)
    (nonzero : significand ≠ 0) (fine : 8 * (10 : ℚ) ^ power ≤ 2 ^ exponent) :
    nearestDecimal? significand exponent power ≠ none := by
  rcases nearestDecimal?_cases significand exponent power with ⟨decimal, found, -⟩ | ⟨-, unread⟩
  · rw [found]
    exact Option.some_ne_none decimal
  · refine absurd ?_ unread
    have unit : (0 : ℚ) < 10 ^ power := by positivity
    have value := gridParts_div significand exponent power
    have positive := gridParts_pos significand exponent power
    generalize (gridParts significand exponent power).1 = numerator at *
    generalize (gridParts significand exponent power).2 = denominator at *
    -- The lower neighbour is less than a unit below, and the unit less than an eighth of a bit.
    have below : ((numerator / denominator : Nat) : ℚ) ≤ numerator / denominator := Nat.cast_div_le
    have above : (numerator : ℚ) / denominator < (numerator / denominator : Nat) + 1 := by
      rw [div_lt_iff₀ (by exact_mod_cast positive), mul_comm]
      exact_mod_cast Nat.lt_mul_div_succ numerator positive
    rw [value, le_div_iff₀ unit] at below
    rw [value, div_lt_iff₀ unit] at above
    exact ofDecimal_of_near false canonical nonzero (by linarith) below

/-- The last grid is fine: nineteen places below those of a number of 53 bits its unit is less than
an eighth of the last bit. -/
theorem ten_zpow_le (least : -1074 ≤ exponent) (most : exponent ≤ 971)
    (small : 100000 * (power + 19) ≤ 30103 * (53 + exponent)) :
    8 * (10 : ℚ) ^ power ≤ 2 ^ exponent := by
  have two : (2 : ℚ) ≠ 0 := by norm_num
  have eight : 8 * (10 : ℚ) ^ power ≤ 2 ^ exponent ↔ (10 : ℚ) ^ power ≤ 2 ^ (exponent - 3) := by
    rw [zpow_sub₀ two, le_div_iff₀ (by norm_num), mul_comm]
    norm_num
  rw [eight]
  -- A ten is more than 93 / 28 bits and less than 196 / 59, which is close enough on each side.
  rcases Int.le_total 0 power with nonneg | nonpos
  · have tens : (10 : ℚ) ^ 59 ≤ 2 ^ 196 := by norm_num
    refine (pow_le_pow_iff_left₀ (by positivity) (by positivity) (by decide : 59 ≠ 0)).mp ?_
    calc ((10 : ℚ) ^ power) ^ 59 = (10 ^ 59) ^ power := by
          rw [← zpow_natCast, ← zpow_natCast, ← zpow_mul, ← zpow_mul, mul_comm]
      _ ≤ (2 ^ 196) ^ power := zpow_le_zpow_left₀ nonneg (by positivity) tens
      _ = 2 ^ (196 * power) := by rw [zpow_mul]; norm_num
      _ ≤ 2 ^ (59 * (exponent - 3)) := zpow_le_zpow_right₀ (by norm_num) (by omega)
      _ = (2 ^ (exponent - 3)) ^ 59 := by rw [mul_comm, zpow_mul]; exact zpow_natCast _ 59
  · have tens : (2 : ℚ) ^ 93 ≤ 10 ^ 28 := by norm_num
    obtain ⟨down, rfl⟩ := Int.exists_eq_neg_ofNat nonpos
    refine (pow_le_pow_iff_left₀ (by positivity) (by positivity) (by decide : 28 ≠ 0)).mp ?_
    calc ((10 : ℚ) ^ (-(down : Int))) ^ 28 = ((10 ^ 28) ^ (down : Int))⁻¹ := by
          rw [zpow_neg, inv_pow, ← zpow_natCast, ← zpow_natCast, ← zpow_mul, ← zpow_mul, mul_comm]
      _ ≤ ((2 ^ 93) ^ (down : Int))⁻¹ :=
          inv_anti₀ (by positivity) (zpow_le_zpow_left₀ (by omega) (by positivity) tens)
      _ = 2 ^ (-(93 * (down : Int))) := by rw [zpow_neg, zpow_mul]; norm_num
      _ ≤ 2 ^ (28 * (exponent - 3)) := zpow_le_zpow_right₀ (by norm_num) (by omega)
      _ = (2 ^ (exponent - 3)) ^ 28 := by rw [mul_comm, zpow_mul]; exact zpow_natCast _ 28

/-! ## The shortest decimal -/

/-- Dropping zeros does not change what is read. -/
theorem ofDecimal_dropZeros (negative : Bool) (count : Nat) (decimal : Decimal) :
    ofDecimal negative (dropZeros count decimal).digits (dropZeros count decimal).power =
      ofDecimal negative decimal.digits decimal.power := by
  induction count generalizing decimal with
  | zero => rfl
  | succ count ih =>
      rw [dropZeros]
      split
      · next zero =>
        have divided : decimal.digits / 10 * 10 = decimal.digits := by
          simp only [Bool.and_eq_true, decide_eq_true_eq] at zero
          omega
        rw [ih, ← ofDecimal_ten, divided]
      · rfl

/-- **The shortest decimal of a number is read as the number.** -/
theorem ofDecimal_shortest (canonical : Canonical significand exponent)
    (nonzero : significand ≠ 0) :
    ofDecimal false (shortest significand exponent).digits (shortest significand exponent).power =
      .finite false significand exponent := by
  have bits : significand.log2 < 53 := (Nat.log2_lt nonzero).mpr canonical.few
  have least : -1074 ≤ exponent := canonical.least
  rw [shortest, ofDecimal_dropZeros, Int.fdiv_eq_ediv_of_nonneg _ (by decide)]
  refine ofDecimal_searchDecimal (nearestDecimal?_of_fine canonical nonzero ?_)
  refine ten_zpow_le least canonical.greatest ?_
  omega

end GovernedRecords.Double
