import LoxExpr.Number.Shortest

/-!
# Number layouts

A number is written by its shortest decimal.  A layout decides when the
digits stand positionally and when with an exponent, and whether a whole
number keeps a point and a zero.  Two layouts are in use: the plain one, for
what a user reads, and the inspected one, for log records.
-/

namespace LoxExpr

/-- The choices that are left when the digits of a number are fixed. -/
structure Layout where
  /-- Whether a decimal whose leading digit stands at this power of ten is
  written without an exponent. -/
  isPositional : Int → Bool
  /-- What follows a whole number in positional writing. -/
  wholeEnding : List Char

namespace Layout

/-- Always positional, and a whole number is its digits. -/
def plain : Layout :=
  { isPositional := fun _ => true
    wholeEnding := [] }

/-- Positional from one ten-thousandth up to, but not including, 10 ^ 16, and
with a fraction in any case. -/
def inspected : Layout :=
  { isPositional := fun power => -5 < power && power < 16
    wholeEnding := ['.', '0'] }

/-- Digits with the point in its place; zeros fill what is missing before or
behind them. -/
def positional (layout : Layout) (decimal : Decimal) : List Char :=
  let digits := Nat.toDigits 10 decimal.digits
  match decimal.exponent with
  | .ofNat power => digits ++ List.replicate power '0' ++ layout.wholeEnding
  | .negSucc power =>
      let padded := List.replicate (power + 2 - digits.length) '0' ++ digits
      let whole := padded.length - (power + 1)
      padded.take whole ++ ['.'] ++ padded.drop whole

/-- One digit, the others behind a point if there are any, and the power of
ten of the first. -/
def scientific (decimal : Decimal) : List Char :=
  let significand :=
    match Nat.toDigits 10 decimal.digits with
    | lead :: next :: rest => lead :: '.' :: next :: rest
    | digits => digits
  significand ++ ['e'] ++ (toString decimal.leadingExponent).toList

def writeDecimal (layout : Layout) (decimal : Decimal) : List Char :=
  if decimal.digits = 0 || layout.isPositional decimal.leadingExponent then
    layout.positional decimal
  else scientific decimal

/-- The text of a number.  Not-a-number has no sign, and a zero keeps its
own. -/
def write (layout : Layout) (number : Float) : String :=
  let bits := Binary64.unsignedBits number
  if Binary64.infinityBits < bits then "NaN"
  else
    let sign := if Binary64.isNegative number then ['-'] else []
    let magnitude :=
      if bits = Binary64.infinityBits then ['i', 'n', 'f']
      else layout.writeDecimal (Decimal.shortest bits)
    String.ofList (sign ++ magnitude)

end Layout

end LoxExpr
