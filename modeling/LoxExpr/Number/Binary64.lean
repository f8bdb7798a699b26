/-!
# Rounding to binary64

A finite binary64 number without its sign is a natural multiple of the unit
2 ^ -1074.  Its bits, read as a natural number, grow with its magnitude, and
the bits of infinity follow those of the largest finite number.  Rounding a
quotient therefore means finding a significand of at most 53 bits, to nearest
with ties to the even neighbour, and putting its scale in front of it.
-/

namespace LoxExpr

namespace Binary64

/-- The weight of the exponent field, and the leading bit that a normal
number does not store. -/
def leadingBit : Nat := Nat.pow 2 52

/-- The bits of infinity; those of the finite numbers lie below. -/
def infinityBits : Nat := 0x7FF * leadingBit

/-- The magnitude of a finite number with these bits, in units of
2 ^ -1074. -/
def magnitude (bits : Nat) : Nat :=
  if bits / leadingBit = 0 then bits % leadingBit
  else (leadingBit + bits % leadingBit) * Nat.pow 2 (bits / leadingBit - 1)

/-- The natural number nearest to a quotient, the even one of two. -/
def roundQuotient (numerator denominator : Nat) : Nat :=
  let floor := numerator / denominator
  let remainder := numerator % denominator
  if 2 * remainder < denominator then floor
  else if denominator < 2 * remainder then floor + 1
  else floor + floor % 2

/-- The bits of the binary64 number nearest to a quotient. -/
def bitsOfQuotient (numerator denominator : Nat) : Nat :=
  let units := numerator * Nat.pow 2 1074
  let shift := (units / denominator).log2 - 52
  let significand := roundQuotient units (denominator * Nat.pow 2 shift)
  min infinityBits (shift * leadingBit + significand)

/-- The number with the given bits. -/
def ofNatBits (bits : Nat) : Float :=
  Float.ofBits (UInt64.ofNat bits)

/-- Whether the sign bit of a number is set. -/
def isNegative (number : Float) : Bool :=
  Nat.pow 2 63 ≤ number.toBits.toNat

/-- The bits of a number without its sign.  They exceed those of infinity when
it is not-a-number. -/
def unsignedBits (number : Float) : Nat :=
  number.toBits.toNat % Nat.pow 2 63

end Binary64

end LoxExpr
