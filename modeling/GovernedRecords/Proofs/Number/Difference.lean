import GovernedRecords.Proofs.Number.Rounding

/-!
# Differences of doubles

A finite double is a rational number (`toRat`), and doubles are ordered as these numbers are
(`lt_iff`).  A sum is rounded, but rounding does not leave it below a number that it reaches
(`le_ofQuotient`), so a difference that comes out below such a number is below it exactly
(`subtract_lt`).
-/

set_option autoImplicit false

namespace GovernedRecords.Double

variable {negative : Bool} {significand : Nat} {exponent : Int} {first second : Double}

/-- The rational number that a finite double is. -/
def toRat : Double → ℚ
  | .finite negative significand exponent =>
    (if negative then -(significand : ℚ) else significand) * 2 ^ exponent
  | _ => 0

/-- A power of two is a whole multiple of a smaller one. -/
theorem two_zpow_eq {least : Int} (below : least ≤ exponent) :
    (2 : ℚ) ^ exponent = 2 ^ (exponent - least).toNat * 2 ^ least := by
  rw [← zpow_natCast, ← zpow_add₀ (by norm_num)]
  congr 1
  omega

/-- The significand over a smaller exponent is the same number. -/
theorem alignedTo_mul {least : Int} (below : least ≤ exponent) :
    (alignedTo least negative significand exponent : ℚ) * 2 ^ least =
      toRat (.finite negative significand exponent) := by
  have magnitude : (((significand * Nat.pow 2 (exponent - least).toNat : Nat) : Int) : ℚ) =
      significand * 2 ^ (exponent - least).toNat := by
    norm_num
  rw [toRat, two_zpow_eq below, alignedTo]
  cases negative with
  | false => simp only [Bool.false_eq_true, if_false, magnitude]; ring
  | true => simp only [if_true, Int.cast_neg, magnitude]; ring

/-- Doubles are ordered as the numbers that they are. -/
theorem lt_iff (finite : first.isFinite = true) (also : second.isFinite = true) :
    first.lt second = true ↔ first.toRat < second.toRat := by
  cases first with
  | nan => cases finite
  | infinity => cases finite
  | finite negative significand exponent =>
      cases second with
      | nan => cases also
      | infinity => cases also
      | finite negative' significand' exponent' =>
          have power : (0 : ℚ) < 2 ^ min exponent exponent' := by positivity
          rw [← alignedTo_mul (Int.min_le_left exponent exponent'),
            ← alignedTo_mul (Int.min_le_right exponent exponent'),
            mul_lt_mul_iff_left₀ power, Int.cast_lt]
          simp [lt]

section Rounding

variable {numerator denominator : Nat} {chosen : Int}

/-- Rounding on a grid does not cross the points of the grid. -/
theorem le_roundScaled (positive : 0 < denominator) {point : Nat}
    (reached : (point : ℚ) * 2 ^ chosen ≤ numerator / denominator) :
    point ≤ roundQuotient (scaled numerator denominator (-chosen)).1
      (scaled numerator denominator (-chosen)).2 := by
  have scaledPositive : 0 < (scaled numerator denominator (-chosen)).2 := scaled_pos positive _
  refine le_roundQuotient scaledPositive ?_
  rwa [← Nat.le_div_iff_mul_le scaledPositive, ← not_lt, scaled_div_lt_iff _ positive, not_lt]

/-- Rounding with the exponent that fits does not cross a number: either the number is a point of
the grid, or its exponent is smaller and it lies below all numbers with 53 bits on the grid. -/
theorem le_roundFitting (positive : 0 < denominator) (few : significand < 2 ^ 53)
    (least : leastExponent ≤ exponent) (fits : Fits (numerator / denominator) chosen)
    (reached : (significand : ℚ) * 2 ^ exponent ≤ numerator / denominator) :
    (significand : ℚ) * 2 ^ exponent ≤
      roundQuotient (scaled numerator denominator (-chosen)).1
        (scaled numerator denominator (-chosen)).2 * 2 ^ chosen := by
  rcases Int.lt_or_le exponent chosen with coarse | fine
  · have full : (2 : ℚ) ^ 52 * 2 ^ chosen ≤ numerator / denominator :=
      fits.full.resolve_left (by omega)
    have half : (2 : ℚ) ^ 52 ≤ roundQuotient (scaled numerator denominator (-chosen)).1
        (scaled numerator denominator (-chosen)).2 := by
      have reached : ((2 ^ 52 : ℕ) : ℚ) * 2 ^ chosen ≤ numerator / denominator := by
        exact_mod_cast full
      exact_mod_cast le_roundScaled positive reached
    have step : (2 : ℚ) ^ (exponent + 1) ≤ 2 ^ chosen :=
      zpow_le_zpow_right₀ (by norm_num) (by omega)
    rw [zpow_add_one₀ (by norm_num)] at step
    have few : (significand : ℚ) ≤ 2 ^ 53 := by exact_mod_cast few.le
    calc (significand : ℚ) * 2 ^ exponent ≤ 2 ^ 53 * 2 ^ exponent :=
          mul_le_mul_of_nonneg_right few (by positivity)
      _ = 2 ^ 52 * (2 ^ exponent * 2) := by ring
      _ ≤ 2 ^ 52 * 2 ^ chosen := mul_le_mul_of_nonneg_left step (by positivity)
      _ ≤ _ := mul_le_mul_of_nonneg_right half (by positivity)
  · have point : (significand : ℚ) * 2 ^ exponent =
        (significand * 2 ^ (exponent - chosen).toNat : Nat) * 2 ^ chosen := by
      rw [two_zpow_eq fine]
      push_cast
      ring
    rw [point] at reached ⊢
    exact mul_le_mul_of_nonneg_right (by exact_mod_cast le_roundScaled positive reached)
      (by positivity)

/-- **Rounding does not leave a quotient below a number that it reaches.** -/
theorem le_ofQuotient (positive : 0 < denominator) (nonzero : significand ≠ 0)
    (few : significand < 2 ^ 53) (least : leastExponent ≤ exponent)
    (reached : (significand : ℚ) * 2 ^ exponent ≤ numerator / denominator) :
    ofQuotient false numerator denominator = .infinity false ∨
      ∃ rounded chosen, ofQuotient false numerator denominator = .finite false rounded chosen ∧
        (significand : ℚ) * 2 ^ exponent ≤ rounded * 2 ^ chosen := by
  have bound : (0 : ℚ) < significand * 2 ^ exponent :=
    mul_pos (by exact_mod_cast Nat.pos_of_ne_zero nonzero) (by positivity)
  have present : numerator ≠ 0 := by
    rintro rfl
    simp only [Nat.cast_zero, zero_div] at reached
    linarith
  obtain ⟨chosen, fits, nearest⟩ := ofQuotient_eq false present positive
  have kept := le_roundFitting positive few least fits reached
  rw [nearest, nearestAt_eq _ _ _ _ rfl]
  generalize roundQuotient (scaled numerator denominator (-chosen)).1
    (scaled numerator denominator (-chosen)).2 = rounded at kept
  split
  · next carried =>
      subst carried
      split
      · exact .inl rfl
      · refine .inr ⟨_, _, rfl, kept.trans (le_of_eq ?_)⟩
        rw [zpow_add_one₀ (by norm_num)]
        push_cast
        ring
  · split
    · exact .inl rfl
    · exact .inr ⟨_, _, rfl, kept⟩

end Rounding

theorem toRat_negate (number : Double) : number.negate.toRat = -number.toRat := by
  cases number with
  | nan => simp [negate, toRat]
  | infinity => simp [negate, toRat]
  | finite negative significand exponent =>
      cases negative <;> simp [negate, toRat]

/-- A sum that reaches a number does not come out below it. -/
theorem not_add_lt (finite : first.isFinite = true) (also : second.isFinite = true)
    (nonzero : significand ≠ 0) (few : significand < 2 ^ 53) (least : leastExponent ≤ exponent)
    (reached : (significand : ℚ) * 2 ^ exponent ≤ first.toRat + second.toRat) :
    (first.add second).lt (.finite false significand exponent) = false := by
  cases first with
  | nan => cases finite
  | infinity => cases finite
  | finite negative left high =>
      cases second with
      | nan => cases also
      | infinity => cases also
      | finite negative' right low =>
          rw [← alignedTo_mul (Int.min_le_left high low), ← alignedTo_mul (Int.min_le_right high low),
            ← add_mul, ← Int.cast_add] at reached
          simp only [add]
          generalize alignedTo (min high low) negative left high +
            alignedTo (min high low) negative' right low = total at reached
          have power : (0 : ℚ) < 2 ^ min high low := by positivity
          have bound : (0 : ℚ) < significand * 2 ^ exponent :=
            mul_pos (by exact_mod_cast Nat.pos_of_ne_zero nonzero) (by positivity)
          have above : 0 < total := by
            have := pos_of_mul_pos_left (bound.trans_le reached) power.le
            exact_mod_cast this
          have magnitude : ((total.natAbs : Nat) : ℚ) = total := by
            rw [Nat.cast_natAbs, abs_of_pos above]
          rw [if_neg above.ne', decide_eq_false (Int.not_lt.mpr above.le)]
          have quotient := scaled_div total.natAbs 1 (min high low)
          rw [Nat.cast_one, div_one, magnitude] at quotient
          rcases le_ofQuotient (scaled_pos Nat.one_pos (min high low)) nonzero few least
              (reached.trans_eq quotient.symm) with beyond | ⟨rounded, chosen, same, kept⟩
          · rw [beyond]
            rfl
          · rw [same, ← Bool.not_eq_true, lt_iff rfl rfl]
            simpa [toRat] using kept

/-- **A difference that comes out below a number is below it.** -/
theorem subtract_lt (finite : first.isFinite = true) (also : second.isFinite = true)
    (nonzero : significand ≠ 0) (few : significand < 2 ^ 53) (least : leastExponent ≤ exponent)
    (less : (first.subtract second).lt (.finite false significand exponent) = true) :
    first.toRat < second.toRat + significand * 2 ^ exponent := by
  by_contra reached
  have negated : second.negate.isFinite = true := by
    cases second <;> exact also
  have reached : (significand : ℚ) * 2 ^ exponent ≤ first.toRat + second.negate.toRat := by
    rw [toRat_negate]
    linarith
  have same := not_add_lt finite negated nonzero few least reached
  rw [subtract, same] at less
  cases less

end GovernedRecords.Double
