import LoxExpr.Number.Shortest

/-!
# Decimals that read back

The shortest decimal of a finite number is nearest to this number and to no
other, so reading it gives the number back.  Every neighbour that is chosen was
tried before, the exact decimal needs no rounding, and a zero at the end of the
digits can be exchanged for a higher exponent.
-/

namespace LoxExpr

namespace Binary64

/-- The bits of the number nearest to a quotient, if magnitudes are counted in
units of this power of one half. -/
def bitsInUnits (power numerator denominator : Nat) : Nat :=
  let units := numerator * Nat.pow 2 power
  let shift := (units / denominator).log2 - 52
  let significand := roundQuotient units (denominator * Nat.pow 2 shift)
  min infinityBits (shift * leadingBit + significand)

-- The exponent of the unit is kept apart from its value, so that no step
-- computes its power.
theorem bitsOfQuotient_eq {power : Nat} (isUnit : 1074 = power)
    (numerator denominator : Nat) :
    bitsOfQuotient numerator denominator =
      bitsInUnits power numerator denominator := by
  rw [bitsOfQuotient, isUnit, bitsInUnits]

section Scaling

variable (numerator denominator : Nat) {factor : Nat} (positive : 0 < factor)

include positive

theorem roundQuotient_mul :
    roundQuotient (numerator * factor) (denominator * factor) =
      roundQuotient numerator denominator := by
  have below : 2 * (numerator % denominator * factor) <
      denominator * factor ↔ 2 * (numerator % denominator) < denominator := by
    rw [← Nat.mul_assoc]
    exact Nat.mul_lt_mul_right positive
  have above : denominator * factor <
      2 * (numerator % denominator * factor) ↔
        denominator < 2 * (numerator % denominator) := by
    rw [← Nat.mul_assoc]
    exact Nat.mul_lt_mul_right positive
  simp only [roundQuotient, Nat.mul_div_mul_right _ _ positive,
    Nat.mul_mod_mul_right, below, above]

/-- A common factor does not change the number nearest to a quotient. -/
theorem bitsInUnits_mul (power : Nat) :
    bitsInUnits power (numerator * factor) (denominator * factor) =
      bitsInUnits power numerator denominator := by
  have units : numerator * factor * Nat.pow 2 power =
      numerator * Nat.pow 2 power * factor := Nat.mul_right_comm _ _ _
  have scale (shift : Nat) : denominator * factor * Nat.pow 2 shift =
      denominator * Nat.pow 2 shift * factor := Nat.mul_right_comm _ _ _
  simp only [bitsInUnits, units, scale, Nat.mul_div_mul_right _ _ positive,
    roundQuotient_mul _ _ positive]

end Scaling

theorem roundQuotient_of_multiple (floor : Nat) {denominator : Nat}
    (positive : 0 < denominator) :
    roundQuotient (floor * denominator) denominator = floor := by
  simp [roundQuotient, Nat.mul_div_cancel _ positive, positive]

/-- A magnitude that needs no rounding is its scale and its significand. -/
theorem bitsInUnits_exact (power : Nat) {significand scale : Nat}
    (scaled : (significand * Nat.pow 2 scale).log2 - 52 = scale) :
    bitsInUnits power (significand * Nat.pow 2 scale) (Nat.pow 2 power) =
      min infinityBits (scale * leadingBit + significand) := by
  have unit : 0 < Nat.pow 2 power := Nat.two_pow_pos power
  have shifted : significand * Nat.pow 2 scale * Nat.pow 2 power =
      significand * (Nat.pow 2 power * Nat.pow 2 scale) := by
    rw [Nat.mul_assoc, Nat.mul_comm (Nat.pow 2 scale)]
  have positive : 0 < Nat.pow 2 power * Nat.pow 2 scale :=
    Nat.mul_pos unit (Nat.two_pow_pos scale)
  simp only [bitsInUnits, Nat.mul_div_cancel _ unit, scaled]
  rw [shifted, roundQuotient_of_multiple _ positive]

/-- A significand with its leading bit in place is scaled by what stands
behind it. -/
theorem scale_of_normal {significand : Nat} (low : leadingBit ≤ significand)
    (high : significand < leadingBit * 2) (scale : Nat) :
    (significand * Nat.pow 2 scale).log2 - 52 = scale := by
  have positive : 0 < Nat.pow 2 scale := Nat.two_pow_pos scale
  have nonzero : significand * Nat.pow 2 scale ≠ 0 := by
    have both := Nat.mul_pos (Nat.lt_of_lt_of_le (by decide) low) positive
    omega
  have length : (significand * Nat.pow 2 scale).log2 = 52 + scale := by
    rw [Nat.log2_eq_iff nonzero, Nat.pow_add, Nat.add_right_comm, Nat.pow_add]
    exact ⟨Nat.mul_le_mul_right _ low,
      Nat.mul_lt_mul_of_pos_right high positive⟩
  omega

theorem scale_of_subnormal {significand : Nat}
    (small : significand < leadingBit) :
    (significand * Nat.pow 2 0).log2 - 52 = 0 := by
  have whole : significand * Nat.pow 2 0 = significand := Nat.mul_one _
  rw [whole]
  by_cases isZero : significand = 0
  · rw [isZero]
    rfl
  · have short := (Nat.log2_lt isZero).mpr small
    omega

/-- A finite number is nearest to its own magnitude. -/
theorem bitsInUnits_magnitude (power : Nat) {bits : Nat}
    (finite : bits < infinityBits) :
    bitsInUnits power (magnitude bits) (Nat.pow 2 power) = bits := by
  have leading : leadingBit = 2 ^ 52 := rfl
  have divided := Nat.div_add_mod bits (2 ^ 52)
  have small : bits % 2 ^ 52 < 2 ^ 52 := Nat.mod_lt _ (by decide)
  rw [magnitude, leading]
  split
  · next isSubnormal =>
      have whole : bits % 2 ^ 52 * Nat.pow 2 0 = bits % 2 ^ 52 :=
        Nat.mul_one _
      have result := bitsInUnits_exact power (scale_of_subnormal small)
      rw [whole] at result
      rw [result, leading]
      omega
  · next isNormal =>
      have low : leadingBit ≤ 2 ^ 52 + bits % 2 ^ 52 := Nat.le_add_right _ _
      have high : 2 ^ 52 + bits % 2 ^ 52 < leadingBit * 2 := by
        rw [leading]
        omega
      rw [bitsInUnits_exact power (scale_of_normal low high _), leading]
      have scale : bits / 2 ^ 52 = bits / 2 ^ 52 - 1 + 1 := by omega
      omega

theorem bitsInUnits_zero (power denominator : Nat) :
    bitsInUnits power 0 denominator = 0 := by
  have rounded (denominator : Nat) : roundQuotient 0 denominator = 0 := by
    simp [roundQuotient]
  simp [bitsInUnits, rounded]

/-- Tenths are halves of fifths. -/
theorem bitsInUnits_fives (power number : Nat) :
    bitsInUnits power (number * Nat.pow 5 power) (Nat.pow 10 power) =
      bitsInUnits power number (Nat.pow 2 power) := by
  have tens : Nat.pow 10 power = Nat.pow 2 power * Nat.pow 5 power :=
    Nat.mul_pow 2 5 power
  have positive : 0 < Nat.pow 5 power := Nat.pow_pos (by decide)
  rw [tens, bitsInUnits_mul _ _ positive]

end Binary64

namespace Decimal

open Binary64

/-- A zero at the end of the digits counts as one more in the exponent. -/
theorem nearestBits_drop_zero {digits : Nat} (exponent : Int)
    (endsWithZero : digits % 10 = 0) :
    nearestBits ⟨digits / 10, exponent + 1⟩ =
      nearestBits ⟨digits, exponent⟩ := by
  obtain ⟨front, rfl⟩ := Nat.dvd_of_mod_eq_zero endsWithZero
  rw [Nat.mul_div_cancel_left _ (by decide)]
  cases exponent with
  | ofNat power =>
      have same : front * Nat.pow 10 (power + 1) =
          10 * front * Nat.pow 10 power := by
        rw [Nat.pow_eq, Nat.pow_eq, Nat.pow_succ, Nat.mul_comm 10,
          Nat.mul_assoc, Nat.mul_comm 10]
      exact congrArg (bitsOfQuotient · 1) same
  | negSucc power =>
      have scaled (denominator : Nat) :
          bitsOfQuotient (10 * front) (denominator * 10) =
            bitsOfQuotient front denominator := by
        rw [Nat.mul_comm 10, bitsOfQuotient_eq rfl, bitsOfQuotient_eq rfl,
          bitsInUnits_mul _ _ (by decide)]
      cases power with
      | zero =>
          have whole : front * Nat.pow 10 0 = front := Nat.mul_one _
          have single : nearestBits ⟨front, 0⟩ = bitsOfQuotient front 1 :=
            congrArg (bitsOfQuotient · 1) whole
          exact single.trans (scaled 1).symm
      | succ power => exact (scaled (Nat.pow 10 (power + 1))).symm

theorem nearestBits_stripZeros (limit : Nat) (decimal : Decimal) :
    (stripZeros limit decimal).nearestBits = decimal.nearestBits := by
  induction limit generalizing decimal with
  | zero => rfl
  | succ limit induction =>
      rw [stripZeros]
      split
      · next endsWithZero =>
          rw [induction]
          exact nearestBits_drop_zero decimal.exponent endsWithZero
      · rfl

/-- A neighbour is chosen only if it reads back. -/
theorem nearestBits_of_neighbour? {bits exact unit : Nat} {exponent : Int}
    {decimal : Decimal}
    (found : neighbour? bits exact unit exponent = some decimal) :
    decimal.nearestBits = bits := by
  simp only [neighbour?] at found
  split at found
  · next below above =>
      cases found
      split
      · exact beq_iff_eq.mp below
      · exact beq_iff_eq.mp above
  · next below _ =>
      cases found
      exact beq_iff_eq.mp below
  · next _ above =>
      cases found
      exact beq_iff_eq.mp above
  · cases found

theorem nearestBits_of_firstNeighbour? {bits exact dropped count : Nat}
    {decimal : Decimal}
    (found : firstNeighbour? bits exact dropped count = some decimal) :
    decimal.nearestBits = bits := by
  induction count generalizing dropped with
  | zero => cases found
  | succ count induction =>
      rw [firstNeighbour?] at found
      split at found
      · next here =>
          cases found
          exact nearestBits_of_neighbour? here
      · exact induction found

theorem nearestBits_zero (exponent : Int) :
    nearestBits ⟨0, exponent⟩ = 0 := by
  cases exponent with
  | ofNat power =>
      have units : 0 * Nat.pow 10 power = 0 := Nat.zero_mul _
      have single : nearestBits ⟨0, .ofNat power⟩ = bitsOfQuotient 0 1 :=
        congrArg (bitsOfQuotient · 1) units
      rw [single, bitsOfQuotient_eq rfl, bitsInUnits_zero]
  | negSucc power =>
      have below : nearestBits ⟨0, .negSucc power⟩ =
          bitsOfQuotient 0 (Nat.pow 10 (power + 1)) := rfl
      rw [below, bitsOfQuotient_eq rfl, bitsInUnits_zero]

theorem nearestBits_le (decimal : Decimal) :
    decimal.nearestBits ≤ infinityBits := by
  rw [nearestBits]
  split <;> exact Nat.min_le_left _ _

theorem nearestBits_neg (digits : Nat) {power : Nat} (positive : 0 < power) :
    nearestBits ⟨digits, -power⟩ =
      bitsOfQuotient digits (Nat.pow 10 power) := by
  cases power with
  | zero => exact absurd positive (Nat.lt_irrefl 0)
  | succ power => rfl

/-- The exact decimal of a finite number reads back. -/
theorem nearestBits_exactly {bits : Nat} (finite : bits < infinityBits) :
    (exactly bits).nearestBits = bits := by
  obtain ⟨power, isUnit⟩ : ∃ power, 1074 = power := ⟨_, rfl⟩
  have positive : 0 < power := by omega
  have exponent : (-1074 : Int) = -(power : Int) := by omega
  rw [exactly, exponent, isUnit, nearestBits_neg _ positive,
    bitsOfQuotient_eq isUnit, bitsInUnits_fives,
    bitsInUnits_magnitude power finite]

/-- The shortest decimal of a finite number reads back. -/
theorem nearestBits_shortest {bits : Nat} (finite : bits < infinityBits) :
    (shortest bits).nearestBits = bits := by
  have exact := nearestBits_exactly finite
  simp only [shortest]
  split
  · next isZero =>
      have same : exactly bits = ⟨0, (exactly bits).exponent⟩ :=
        congrArg (Decimal.mk · (exactly bits).exponent) isZero
      rw [same, nearestBits_zero] at exact
      rw [nearestBits_zero, exact]
  · rw [nearestBits_stripZeros]
    cases found : firstNeighbour? bits (exactly bits).digits
        (leadingPower (exactly bits).digits) 17 with
    | some decimal => exact nearestBits_of_firstNeighbour? found
    | none => exact exact

end Decimal

end LoxExpr
