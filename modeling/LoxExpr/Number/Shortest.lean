import LoxExpr.Number.Decimal

/-!
# The shortest decimal that reads back

Every finite binary64 number is an exact multiple of 10 ^ -1074, and it lies
between two neighbours on each coarser decimal grid.  The grids with 1, 2, …
17 significant digits are tried in this order; on the first one that has a
neighbour which reads back as the number, the nearer such neighbour is chosen,
and the larger one if both are equally near.
-/

namespace LoxExpr

namespace Decimal

/-- The greatest power of ten, not above `bound`, that a number reaches. -/
def greatestPower (number : Nat) : (bound : Nat) → Nat
  | 0 => 0
  | bound + 1 =>
      if Nat.pow 10 (bound + 1) ≤ number then bound + 1
      else greatestPower number bound

/-- The power of ten at which the leading digit of a number stands.  The
search begins close to it, because the logarithm of two to the base ten is
just below 0.30103. -/
def leadingPower (number : Nat) : Nat :=
  greatestPower number ((number.log2 + 1) * 30103 / 100000)

/-- The decimal equal to a number with the given bits. -/
def exactly (bits : Nat) : Decimal :=
  ⟨Binary64.magnitude bits * Nat.pow 5 1074, -1074⟩

/-- The neighbour of a number with the given bits that reads back as it, on
the decimal grid whose points are `unit` multiples of 10 ^ -1074 apart.  The
exponent of the grid is passed along with `unit`. -/
def neighbour? (bits : Nat) (exact unit : Nat) (exponent : Int) :
    Option Decimal :=
  let below : Decimal := ⟨exact / unit, exponent⟩
  let above : Decimal := ⟨exact / unit + 1, exponent⟩
  let nearBelow := 2 * (exact % unit) < unit
  match below.nearestBits == bits, above.nearestBits == bits with
  | true, true => some (if nearBelow then below else above)
  | true, false => some below
  | false, true => some above
  | false, false => none

/-- The chosen neighbour on the first of `count` grids, of which the first
drops `dropped` of the digits of `exact`. -/
def firstNeighbour? (bits exact : Nat) : (dropped count : Nat) → Option Decimal
  | _, 0 => none
  | dropped, count + 1 =>
      match neighbour? bits exact (Nat.pow 10 dropped) (dropped - 1074) with
      | some decimal => some decimal
      | none => firstNeighbour? bits exact (dropped - 1) count

/-- The decimal with the fewest digits that reads back as the finite number
with the given bits. -/
def shortest (bits : Nat) : Decimal :=
  let exact := (exactly bits).digits
  let power := leadingPower exact
  if exact = 0 then ⟨0, 0⟩
  else
    stripZeros (power + 1)
      ((firstNeighbour? bits exact power 17).getD (exactly bits))

end Decimal

end LoxExpr
