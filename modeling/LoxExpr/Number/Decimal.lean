import LoxExpr.Number.Binary64

/-!
# Decimal numbers

A decimal is a digit sequence, read as a natural number, times a power of ten.
A numeral of the language, digits with an optional fraction, denotes one, and
every decimal has a nearest binary64 number.
-/

namespace LoxExpr

/-- The number `digits * 10 ^ exponent`. -/
structure Decimal where
  digits : Nat
  exponent : Int
deriving DecidableEq, Repr

namespace Decimal

/-- The bits of the binary64 number nearest to a decimal. -/
def nearestBits (decimal : Decimal) : Nat :=
  match decimal.exponent with
  | .ofNat power =>
      Binary64.bitsOfQuotient (decimal.digits * Nat.pow 10 power) 1
  | .negSucc power =>
      Binary64.bitsOfQuotient decimal.digits (Nat.pow 10 (power + 1))

/-- The decimal that a numeral denotes: all its digits, scaled down by the
number of those behind the point. -/
def ofNumeral (numeral : List Char) : Decimal :=
  let whole := numeral.takeWhile (· != '.')
  let fraction := (numeral.dropWhile (· != '.')).drop 1
  { digits := Nat.ofDigitChars 10 (whole ++ fraction) 0
    exponent := -fraction.length }

def toFloat (decimal : Decimal) : Float :=
  Binary64.ofNatBits decimal.nearestBits

/-- The power of ten at which the leading digit stands. -/
def leadingExponent (decimal : Decimal) : Int :=
  decimal.exponent + (Nat.toDigits 10 decimal.digits).length - 1

/-- The same decimal without zeros at its end; `limit` bounds their number. -/
def stripZeros (limit : Nat) (decimal : Decimal) : Decimal :=
  match limit with
  | 0 => decimal
  | limit + 1 =>
      if decimal.digits % 10 = 0 then
        stripZeros limit ⟨decimal.digits / 10, decimal.exponent + 1⟩
      else decimal

end Decimal

end LoxExpr
