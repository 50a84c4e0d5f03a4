import GovernedRecords.Number.Double
import Mathlib.Algebra.Order.Field.Power
import Mathlib.Data.Rat.Floor
import Mathlib.Tactic.Linarith
import Mathlib.Tactic.Ring

/-!
# Rounding a quotient to a double

A positive quotient is rounded with the one exponent that leaves 53 bits before its point, or with
the least exponent if it is small (`Fits`, `ofQuotient_eq`).  So the number depends on the quotient
alone and not on its numerator and denominator (`ofQuotient_congr`), it is in the normal form
(`canonical_ofQuotient`), and a quotient that is just below a number is rounded to that
(`ofQuotient_of_near`).

Quotients are compared as rational numbers.
-/

set_option autoImplicit false

namespace GovernedRecords.Double

variable {negative : Bool} {numerator denominator : Nat} {exponent : Int}

/-- Scaling multiplies the quotient by a power of two. -/
theorem scaled_div (numerator denominator : Nat) (power : Int) :
    ((scaled numerator denominator power).1 : ℚ) / (scaled numerator denominator power).2 =
      numerator / denominator * 2 ^ power := by
  cases power with
  | ofNat up =>
      simp only [scaled, Nat.pow_eq, Nat.cast_mul, Nat.cast_pow, Nat.cast_ofNat,
        Int.ofNat_eq_natCast, zpow_natCast]
      ring
  | negSucc down =>
      simp only [scaled, Nat.pow_eq, Nat.cast_mul, Nat.cast_pow, Nat.cast_ofNat, zpow_negSucc]
      rw [div_mul_eq_div_div, div_eq_mul_inv]

theorem scaled_pos (positive : 0 < denominator) (power : Int) :
    0 < (scaled numerator denominator power).2 := by
  cases power with
  | ofNat up => exact positive
  | negSucc down => exact Nat.mul_pos positive (Nat.two_pow_pos _)

/-! ## Rounding to an integer -/

theorem roundQuotient_mul {factor : Nat} (positive : 0 < factor) (numerator denominator : Nat) :
    roundQuotient (factor * numerator) (factor * denominator) =
      roundQuotient numerator denominator := by
  have below : 2 * (factor * (numerator % denominator)) < factor * denominator ↔
      2 * (numerator % denominator) < denominator := by
    rw [Nat.mul_left_comm, Nat.mul_lt_mul_left positive]
  have above : factor * denominator < 2 * (factor * (numerator % denominator)) ↔
      denominator < 2 * (numerator % denominator) := by
    rw [Nat.mul_left_comm, Nat.mul_lt_mul_left positive]
  simp only [roundQuotient, Nat.mul_div_mul_left _ _ positive, Nat.mul_mod_mul_left, below, above]

/-- Rounding depends on the quotient alone. -/
theorem roundQuotient_congr {other divisor : Nat} (positive : 0 < denominator)
    (otherPositive : 0 < divisor) (same : (numerator : ℚ) / denominator = other / divisor) :
    roundQuotient numerator denominator = roundQuotient other divisor := by
  have crossed : numerator * divisor = other * denominator := by
    rw [div_eq_div_iff (by positivity) (by positivity)] at same
    exact_mod_cast same
  calc roundQuotient numerator denominator
      = roundQuotient (divisor * numerator) (divisor * denominator) :=
        (roundQuotient_mul otherPositive _ _).symm
    _ = roundQuotient (denominator * other) (denominator * divisor) := by
        rw [Nat.mul_comm divisor numerator, crossed, Nat.mul_comm other, Nat.mul_comm divisor]
    _ = roundQuotient other divisor := roundQuotient_mul positive _ _

/-- A quotient is rounded to the integer that is less than a half away. -/
theorem roundQuotient_of_near {nearest : Nat} (positive : 0 < denominator)
    (above : (nearest : ℚ) - 1 / 2 < numerator / denominator)
    (below : (numerator : ℚ) / denominator < nearest + 1 / 2) :
    roundQuotient numerator denominator = nearest := by
  have positive' : (0 : ℚ) < denominator := by exact_mod_cast positive
  rw [lt_div_iff₀ positive'] at above
  rw [div_lt_iff₀ positive'] at below
  have above : 2 * (nearest * denominator) < 2 * numerator + denominator := by
    have double : (2 * (nearest * denominator) : ℚ) < 2 * numerator + denominator := by linarith
    exact_mod_cast double
  have below : 2 * numerator < 2 * (nearest * denominator) + denominator := by
    have double : (2 * numerator : ℚ) < 2 * (nearest * denominator) + denominator := by linarith
    exact_mod_cast double
  have parts := Nat.div_add_mod numerator denominator
  have rest := Nat.mod_lt numerator positive
  unfold roundQuotient
  dsimp only
  generalize numerator / denominator = quotient at *
  generalize numerator % denominator = remainder at *
  subst parts
  have comm : nearest * denominator = denominator * nearest := Nat.mul_comm _ _
  rw [comm] at above below
  -- The integer is the quotient or the one after it.
  rcases Nat.lt_trichotomy quotient nearest with less | same | more
  · have step : denominator * (quotient + 1) ≤ denominator * nearest := Nat.mul_le_mul_left _ less
    have next : quotient + 1 = nearest := by
      by_contra differ
      have two : denominator * (quotient + 2) ≤ denominator * nearest :=
        Nat.mul_le_mul_left _ (by omega)
      simp only [Nat.mul_add] at two step
      omega
    subst next
    simp only [Nat.mul_add] at above below
    rw [if_neg (by omega), if_pos (by omega)]
  · subst same
    rw [if_pos (by omega)]
  · have step : denominator * (nearest + 1) ≤ denominator * quotient := Nat.mul_le_mul_left _ more
    simp only [Nat.mul_add] at step
    omega

/-- Rounding does not leave the integers between which a quotient lies. -/
theorem le_roundQuotient {bound : Nat} (positive : 0 < denominator)
    (least : bound * denominator ≤ numerator) : bound ≤ roundQuotient numerator denominator := by
  have quotient : bound ≤ numerator / denominator := (Nat.le_div_iff_mul_le positive).mpr least
  unfold roundQuotient
  dsimp only
  split
  · exact quotient
  · split <;> omega

theorem roundQuotient_le {bound : Nat} (positive : 0 < denominator)
    (less : numerator < bound * denominator) : roundQuotient numerator denominator ≤ bound := by
  have quotient : numerator / denominator < bound := (Nat.div_lt_iff_lt_mul positive).mpr less
  unfold roundQuotient
  dsimp only
  split
  · exact quotient.le
  · split <;> omega

/-! ## The exponent -/

/-- An exponent with which a positive number has 53 bits before the point, or fewer if it is the
least exponent. -/
structure Fits (value : ℚ) (exponent : Int) : Prop where
  least : leastExponent ≤ exponent
  below : value < 2 ^ 53 * 2 ^ exponent
  full : exponent = leastExponent ∨ 2 ^ 52 * 2 ^ exponent ≤ value

theorem Fits.unique {value : ℚ} {other : Int} (fits : Fits value exponent)
    (also : Fits value other) : exponent = other := by
  have separate : ∀ {low high : Int}, Fits value low → Fits value high → ¬ low < high := by
    intro low high first second less
    rcases second.full with least | full
    · have := first.least
      omega
    · have step : (2 : ℚ) ^ (low + 1) ≤ 2 ^ high := zpow_le_zpow_right₀ (by norm_num) (by omega)
      rw [zpow_add_one₀ (by norm_num)] at step
      have := first.below
      linarith
  have := separate fits also
  have := separate also fits
  omega

/-- The bits of the parts of a quotient bound it. -/
theorem log2_bounds (nonzero : numerator ≠ 0) (positive : 0 < denominator) :
    (2 : ℚ) ^ ((numerator.log2 : Int) - denominator.log2 - 1) ≤ numerator / denominator ∧
      (numerator : ℚ) / denominator < 2 ^ ((numerator.log2 : Int) - denominator.log2 + 1) := by
  have two : (2 : ℚ) ≠ 0 := by norm_num
  have positive' : (0 : ℚ) < denominator := by exact_mod_cast positive
  have numeratorLow : (2 : ℚ) ^ (numerator.log2 : Int) ≤ numerator := by
    rw [zpow_natCast]
    exact_mod_cast Nat.log2_self_le nonzero
  have numeratorHigh : (numerator : ℚ) < 2 ^ ((numerator.log2 : Int) + 1) := by
    rw [← Nat.cast_succ, zpow_natCast]
    exact_mod_cast Nat.lt_log2_self
  have denominatorLow : (2 : ℚ) ^ (denominator.log2 : Int) ≤ denominator := by
    rw [zpow_natCast]
    exact_mod_cast Nat.log2_self_le positive.ne'
  have denominatorHigh : (denominator : ℚ) < 2 ^ ((denominator.log2 : Int) + 1) := by
    rw [← Nat.cast_succ, zpow_natCast]
    exact_mod_cast Nat.lt_log2_self
  constructor
  · rw [le_div_iff₀ positive']
    calc (2 : ℚ) ^ ((numerator.log2 : Int) - denominator.log2 - 1) * denominator
        ≤ 2 ^ ((numerator.log2 : Int) - denominator.log2 - 1) *
            2 ^ ((denominator.log2 : Int) + 1) :=
          mul_le_mul_of_nonneg_left denominatorHigh.le (by positivity)
      _ = 2 ^ (numerator.log2 : Int) := by
          rw [← zpow_add₀ two]
          congr 1
          ring
      _ ≤ numerator := numeratorLow
  · rw [div_lt_iff₀ positive']
    calc (numerator : ℚ) < 2 ^ ((numerator.log2 : Int) + 1) := numeratorHigh
      _ = 2 ^ ((numerator.log2 : Int) - denominator.log2 + 1) * 2 ^ (denominator.log2 : Int) := by
          rw [← zpow_add₀ two]
          congr 1
          ring
      _ ≤ 2 ^ ((numerator.log2 : Int) - denominator.log2 + 1) * denominator :=
          mul_le_mul_of_nonneg_left denominatorLow (by positivity)

/-- A scaled quotient has few bits before the point when the quotient is small. -/
theorem scaled_div_lt_iff (numerator : Nat) (positive : 0 < denominator) (exponent : Int)
    (bound : Nat) :
    (scaled numerator denominator (-exponent)).1 / (scaled numerator denominator (-exponent)).2 <
        bound ↔ (numerator : ℚ) / denominator < bound * 2 ^ exponent := by
  have scaledPositive : 0 < (scaled numerator denominator (-exponent)).2 := scaled_pos positive _
  have scaledPositive' : (0 : ℚ) < (scaled numerator denominator (-exponent)).2 := by
    exact_mod_cast scaledPositive
  have power : (0 : ℚ) < 2 ^ exponent := by positivity
  rw [Nat.div_lt_iff_lt_mul scaledPositive, ← Nat.cast_lt (α := ℚ), Nat.cast_mul,
    ← div_lt_iff₀ scaledPositive', scaled_div, zpow_neg, ← div_eq_mul_inv, div_lt_iff₀ power]

/-- **A quotient is rounded with the exponent that fits it.** -/
theorem ofQuotient_eq (negative : Bool) (nonzero : numerator ≠ 0) (positive : 0 < denominator) :
    ∃ exponent, Fits (numerator / denominator) exponent ∧
      ofQuotient negative numerator denominator =
        nearestAt negative numerator denominator exponent := by
  have two : (2 : ℚ) ≠ 0 := by norm_num
  obtain ⟨low, high⟩ := log2_bounds nonzero positive
  simp only [ofQuotient, nonzero, if_false]
  generalize guess : (numerator.log2 : Int) - denominator.log2 - 53 = estimate
  have lowest : (numerator.log2 : Int) - denominator.log2 - 1 = estimate + 52 := by omega
  have highest : (numerator.log2 : Int) - denominator.log2 + 1 = estimate + 54 := by omega
  rw [lowest, zpow_add₀ two] at low
  rw [highest, zpow_add₀ two] at high
  have whole := scaled_div_lt_iff numerator positive (max estimate leastExponent) (Nat.pow 2 53)
  have bits : ((Nat.pow 2 53 : Nat) : ℚ) = 2 ^ 53 := by norm_num
  rw [bits] at whole
  by_cases few : (numerator : ℚ) / denominator < 2 ^ 53 * 2 ^ max estimate leastExponent
  · refine ⟨_, ⟨Int.le_max_right _ _, few, ?_⟩, by rw [if_pos (whole.mpr few)]⟩
    rcases Int.le_total estimate leastExponent with small | large
    · exact .inl (Int.max_eq_right small)
    · rw [Int.max_eq_left large]
      refine .inr (le_trans (le_of_eq ?_) low)
      norm_num
      ring
  · refine ⟨_, ⟨?_, ?_, .inr ?_⟩, by rw [if_neg (mt whole.mp few)]⟩
    · have := Int.le_max_right estimate leastExponent
      omega
    · have step : (2 : ℚ) ^ estimate ≤ 2 ^ max estimate leastExponent :=
        zpow_le_zpow_right₀ (by norm_num) (Int.le_max_left _ _)
      rw [zpow_add_one₀ two]
      norm_num at high ⊢
      linarith
    · rw [zpow_add_one₀ two]
      linarith

/-! ## The number -/

/-- The significand and the exponent of a finite number: 53 bits, or fewer with the least
exponent. -/
structure Canonical (significand : Nat) (exponent : Int) : Prop where
  few : significand < 2 ^ 53
  least : leastExponent ≤ exponent
  greatest : exponent ≤ greatestExponent
  full : exponent = leastExponent ∨ 2 ^ 52 ≤ significand

theorem canonical_zero : Canonical 0 leastExponent :=
  ⟨by decide, Int.le_refl _, by decide, .inl rfl⟩

theorem nearestAt_eq (negative : Bool) (numerator denominator : Nat) (exponent : Int)
    {significand : Nat}
    (rounded : roundQuotient (scaled numerator denominator (-exponent)).1
      (scaled numerator denominator (-exponent)).2 = significand) :
    nearestAt negative numerator denominator exponent =
      if significand = 2 ^ 53 then
        if greatestExponent < exponent + 1 then .infinity negative
        else .finite negative (2 ^ 52) (exponent + 1)
      else if greatestExponent < exponent then .infinity negative
      else .finite negative significand exponent := by
  have bits : Nat.pow 2 53 = 2 ^ 53 := rfl
  have half : Nat.pow 2 52 = 2 ^ 52 := rfl
  simp only [nearestAt, rounded, bits, half]
  by_cases carried : significand = 2 ^ 53
  · simp only [carried, if_true]
  · simp only [carried, if_false]

/-- The number depends on the quotient alone. -/
theorem ofQuotient_congr {other divisor : Nat} (negative : Bool) (positive : 0 < denominator)
    (otherPositive : 0 < divisor) (same : (numerator : ℚ) / denominator = other / divisor) :
    ofQuotient negative numerator denominator = ofQuotient negative other divisor := by
  have zeros : numerator = 0 ↔ other = 0 := by
    have both := congrArg (fun quotient : ℚ => quotient = 0) same
    simpa [positive.ne', otherPositive.ne'] using both
  by_cases nonzero : numerator = 0
  · rw [ofQuotient, ofQuotient, if_pos nonzero, if_pos (zeros.mp nonzero)]
  · obtain ⟨exponent, fits, nearest⟩ := ofQuotient_eq negative nonzero positive
    obtain ⟨otherExponent, otherFits, otherNearest⟩ :=
      ofQuotient_eq negative (mt zeros.mpr nonzero) otherPositive
    rw [same] at fits
    obtain rfl := fits.unique otherFits
    have rounded := roundQuotient_congr (scaled_pos positive (-exponent))
      (scaled_pos otherPositive (-exponent)) (by rw [scaled_div, scaled_div, same])
    rw [nearest, otherNearest, nearestAt_eq _ _ _ _ rounded, nearestAt_eq _ _ _ _ rfl]

/-- A scaled quotient is rounded to the integer that is less than a half away, on the grid of the
scale. -/
theorem roundScaled_of_near {nearest : Nat} (positive : 0 < denominator)
    (above : ((nearest : ℚ) - 1 / 2) * 2 ^ exponent < numerator / denominator)
    (below : (numerator : ℚ) / denominator < (nearest + 1 / 2) * 2 ^ exponent) :
    roundQuotient (scaled numerator denominator (-exponent)).1
      (scaled numerator denominator (-exponent)).2 = nearest := by
  have power : (0 : ℚ) < 2 ^ exponent := by positivity
  refine roundQuotient_of_near (scaled_pos positive _) ?_ ?_
  · rwa [scaled_div, zpow_neg, ← div_eq_mul_inv, lt_div_iff₀ power]
  · rwa [scaled_div, zpow_neg, ← div_eq_mul_inv, div_lt_iff₀ power]

/-- A quotient near a number is rounded to it with the exponent of the number. -/
theorem nearestAt_of_near {significand : Nat} (negative : Bool)
    (canonical : Canonical significand exponent) (positive : 0 < denominator)
    (above : ((significand : ℚ) - 1 / 2) * 2 ^ exponent < numerator / denominator)
    (below : (numerator : ℚ) / denominator < (significand + 1 / 2) * 2 ^ exponent) :
    nearestAt negative numerator denominator exponent = .finite negative significand exponent := by
  rw [nearestAt_eq _ _ _ _ (roundScaled_of_near positive above below), if_neg canonical.few.ne,
    if_neg (Int.not_lt.mpr canonical.greatest)]

/-- A quotient near the first number of a binade is rounded to it with the exponent before. -/
theorem nearestAt_of_near_first (negative : Bool) (greatest : exponent ≤ greatestExponent)
    (positive : 0 < denominator)
    (above : ((2 : ℚ) ^ 53 - 1 / 2) * 2 ^ (exponent - 1) < numerator / denominator)
    (below : (numerator : ℚ) / denominator < (2 ^ 53 + 1 / 2) * 2 ^ (exponent - 1)) :
    nearestAt negative numerator denominator (exponent - 1) =
      .finite negative (2 ^ 52) exponent := by
  have carried : roundQuotient (scaled numerator denominator (-(exponent - 1))).1
      (scaled numerator denominator (-(exponent - 1))).2 = 2 ^ 53 := by
    refine roundScaled_of_near positive ?_ ?_
    · exact_mod_cast above
    · exact_mod_cast below
  rw [nearestAt_eq _ _ _ _ carried, if_pos rfl, Int.sub_add_cancel,
    if_neg (Int.not_lt.mpr greatest)]

theorem pos_of_near {significand : Nat} (nonzero : significand ≠ 0) (exponent : Int) :
    0 < ((significand : ℚ) - 1 / 8) * 2 ^ exponent := by
  have one : (1 : ℚ) ≤ significand := by exact_mod_cast Nat.one_le_iff_ne_zero.mpr nonzero
  exact mul_pos (by linarith) (by positivity)

/-- **A quotient just below a number is rounded to it.**  At the lower end of a binade the quotient
has the exponent before that of the number, and rounding carries. -/
theorem ofQuotient_of_near {significand : Nat} (negative : Bool)
    (canonical : Canonical significand exponent) (nonzero : significand ≠ 0)
    (positive : 0 < denominator)
    (above : (significand - 1 / 8) * 2 ^ exponent < (numerator : ℚ) / denominator)
    (below : (numerator : ℚ) / denominator ≤ significand * 2 ^ exponent) :
    ofQuotient negative numerator denominator = .finite negative significand exponent := by
  have power : (0 : ℚ) < 2 ^ exponent := by positivity
  have present : numerator ≠ 0 := by
    rintro rfl
    have some := (pos_of_near nonzero exponent).trans above
    simp at some
  obtain ⟨chosen, fits, nearest⟩ := ofQuotient_eq negative present positive
  rw [nearest]
  by_cases inside : exponent = leastExponent ∨
      2 ^ 52 * 2 ^ exponent ≤ (numerator : ℚ) / denominator
  · have few : (significand : ℚ) < 2 ^ 53 := by exact_mod_cast canonical.few
    have same : chosen = exponent := fits.unique ⟨canonical.least, by nlinarith, inside⟩
    subst same
    exact nearestAt_of_near negative canonical positive (by nlinarith) (by nlinarith)
  · obtain ⟨unequal, lower⟩ := not_or.mp inside
    have half : 2 ^ 52 ≤ significand := canonical.full.resolve_left unequal
    have first : significand = 2 ^ 52 := by
      refine le_antisymm ?_ half
      have close : ((significand : ℚ) - 1 / 8) * 2 ^ exponent < 2 ^ 52 * 2 ^ exponent :=
        above.trans (not_le.mp lower)
      have close := lt_of_mul_lt_mul_right close power.le
      have next : (significand : ℚ) < 2 ^ 52 + 1 := by linarith
      have next : significand < 2 ^ 52 + 1 := by exact_mod_cast next
      omega
    subst first
    have double : (2 : ℚ) ^ exponent = 2 * 2 ^ (exponent - 1) := by
      rw [← zpow_one_add₀ (by norm_num)]
      congr 1
      ring
    have smaller : (0 : ℚ) < 2 ^ (exponent - 1) := by positivity
    rw [double] at above below lower
    push_cast at above below lower
    have least := canonical.least
    have same : chosen = exponent - 1 :=
      fits.unique ⟨by omega, by nlinarith, .inr (by nlinarith)⟩
    subst same
    exact nearestAt_of_near_first negative canonical.greatest positive (by nlinarith)
      (by nlinarith)

/-- A quotient is rounded to a number in its normal form, if it is not too large. -/
theorem canonical_ofQuotient {sign : Bool} {significand : Nat} (positive : 0 < denominator)
    (rounded : ofQuotient negative numerator denominator = .finite sign significand exponent) :
    sign = negative ∧ Canonical significand exponent := by
  by_cases nonzero : numerator = 0
  · rw [ofQuotient, if_pos nonzero] at rounded
    cases rounded
    exact ⟨rfl, canonical_zero⟩
  obtain ⟨chosen, fits, nearest⟩ := ofQuotient_eq negative nonzero positive
  have scaledPositive : 0 < (scaled numerator denominator (-chosen)).2 := scaled_pos positive _
  have most : roundQuotient (scaled numerator denominator (-chosen)).1
      (scaled numerator denominator (-chosen)).2 ≤ 2 ^ 53 := by
    refine roundQuotient_le scaledPositive ?_
    rw [← Nat.div_lt_iff_lt_mul scaledPositive, scaled_div_lt_iff _ positive]
    exact_mod_cast fits.below
  have full : chosen = leastExponent ∨ 2 ^ 52 ≤ roundQuotient
      (scaled numerator denominator (-chosen)).1 (scaled numerator denominator (-chosen)).2 := by
    refine fits.full.imp_right fun full => le_roundQuotient scaledPositive ?_
    rw [← Nat.le_div_iff_mul_le scaledPositive, ← not_lt, scaled_div_lt_iff _ positive, not_lt]
    exact_mod_cast full
  rw [nearest, nearestAt_eq _ _ _ _ rfl] at rounded
  generalize roundQuotient (scaled numerator denominator (-chosen)).1
    (scaled numerator denominator (-chosen)).2 = kept at *
  have least := fits.least
  split at rounded
  · split at rounded
    · cases rounded
    · next within =>
      cases rounded
      exact ⟨rfl, by norm_num, by omega, not_lt.mp within, .inr (le_refl _)⟩
  · next uncarried =>
    split at rounded
    · cases rounded
    · next within =>
      cases rounded
      exact ⟨rfl, lt_of_le_of_ne most uncarried, least, not_lt.mp within, full⟩

end GovernedRecords.Double
