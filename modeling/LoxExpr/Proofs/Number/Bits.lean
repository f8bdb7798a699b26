import Mathlib
import LoxExpr.Number.Binary64

/-!
# Numbers and their bits

The bits of a magnitude, up to those of infinity, are the bits of the number
that they make: nothing is lost on the way.  Such a number is not negative, it
is infinite only for the bits of infinity, and it equals itself.
-/

namespace LoxExpr

namespace Binary64

open Float.Model (Format)
open Float.Model.UnpackedFloat

theorem leadingBit_eq : leadingBit = 2 ^ 52 := rfl

theorem infinityBits_eq : infinityBits = 2047 * 2 ^ 52 := rfl

/-- The bits of a magnitude are its exponent in front of its significand. -/
theorem toBitVec_ofNat {bits : Nat} (bounded : bits ≤ infinityBits) :
    (UInt64.ofNat bits).toBitVec =
      packComponents Format.binary64 .positive
        (BitVec.ofNat 11 (bits / leadingBit))
        (BitVec.ofNat 52 (bits % leadingBit)) := by
  rw [infinityBits_eq] at bounded
  rw [leadingBit_eq]
  have small : bits % 2 ^ 52 < 2 ^ 52 := Nat.mod_lt _ (by decide)
  have exponent : (0#1 ++ BitVec.ofNat 11 (bits / 2 ^ 52)).toNat =
      bits / 2 ^ 52 := by
    rw [BitVec.toNat_append, BitVec.toNat_ofNat]
    simp
    omega
  have significand : (BitVec.ofNat 52 (bits % 2 ^ 52)).toNat =
      bits % 2 ^ 52 := by
    rw [BitVec.toNat_ofNat, Nat.mod_mod]
  apply BitVec.eq_of_toNat_eq
  change bits % 2 ^ 64 =
    ((0#1 ++ BitVec.ofNat 11 (bits / 2 ^ 52)) ++
      BitVec.ofNat 52 (bits % 2 ^ 52)).toNat
  rw [BitVec.toNat_append, exponent, significand,
    ← Nat.shiftLeft_add_eq_or_of_lt small, Nat.shiftLeft_eq]
  omega

/-- Among the magnitudes only infinity has its exponent. -/
theorem significand_of_infinite {bits : Nat} (bounded : bits ≤ infinityBits)
    (infinite : BitVec.ofNat 11 (bits / leadingBit) = 2047#11) :
    BitVec.ofNat 52 (bits % leadingBit) = 0#52 := by
  have exponent := congrArg BitVec.toNat infinite
  rw [BitVec.toNat_ofNat] at exponent
  rw [infinityBits_eq] at bounded
  rw [leadingBit_eq] at exponent ⊢
  have wide : (2047#11).toNat = 2047 := rfl
  rw [wide] at exponent
  have isInfinity : bits = 2047 * 2 ^ 52 := by omega
  rw [isInfinity, Nat.mul_mod_left]

/-- The bits of a magnitude are not those of not-a-number. -/
theorem isNaNBits_ofNat {bits : Nat} (bounded : bits ≤ infinityBits) :
    @isNaNBits Format.binary64 (UInt64.ofNat bits).toBitVec = false := by
  rw [toBitVec_ofNat bounded]
  simp only [isNaNBits, unpackExponent_packComponents,
    unpackMantissa_packComponents, decide_eq_false_iff_not, not_and,
    not_not]
  exact significand_of_infinite bounded

theorem toBits_ofNatBits {bits : Nat} (bounded : bits ≤ infinityBits) :
    (ofNatBits bits).toBits = UInt64.ofNat bits := by
  have kept : pack Format.binary64 (unpack Format.binary64
      (UInt64.ofNat bits).toBitVec) = (UInt64.ofNat bits).toBitVec := by
    rw [pack_unpack, isNaNBits_ofNat bounded]
    rfl
  exact congrArg UInt64.ofBitVec kept

theorem toNat_toBits_ofNatBits {bits : Nat} (bounded : bits ≤ infinityBits) :
    (ofNatBits bits).toBits.toNat = bits := by
  rw [toBits_ofNatBits bounded, UInt64.toNat_ofNat']
  rw [infinityBits_eq] at bounded
  omega

theorem unsignedBits_ofNatBits {bits : Nat} (bounded : bits ≤ infinityBits) :
    unsignedBits (ofNatBits bits) = bits := by
  have small := bounded
  rw [infinityBits_eq] at small
  rw [unsignedBits, toNat_toBits_ofNatBits bounded]
  exact Nat.mod_eq_of_lt (Nat.lt_of_le_of_lt small (by decide))

theorem isNegative_ofNatBits {bits : Nat} (bounded : bits ≤ infinityBits) :
    isNegative (ofNatBits bits) = false := by
  have small := bounded
  rw [infinityBits_eq] at small
  rw [isNegative, toNat_toBits_ofNatBits bounded, decide_eq_false_iff_not]
  exact Nat.not_le.mpr (Nat.lt_of_le_of_lt small (by decide))

theorem isInf_infinityBits : (ofNatBits infinityBits).isInf = true := rfl

/-- The number of a magnitude is a number, so it equals itself. -/
theorem ofNatBits_beq_self {bits : Nat} (bounded : bits ≤ infinityBits) :
    (ofNatBits bits == ofNatBits bits) = true := by
  rw [Float.beq_self_iff]
  intro isNan
  have sameBits := congrArg Float.toBits isNan
  rw [toBits_ofNatBits bounded] at sameBits
  have different := isNaNBits_ofNat bounded
  rw [sameBits] at different
  have nanBits : isNaNBits (packedNaN Format.binary64) = true :=
    isNaNBits_packedNaN
  exact Bool.noConfusion (nanBits.symm.trans different)

end Binary64

end LoxExpr
