/-!
# Operators

The operators of the language with their binding strength.  Ten of them stand
between two operands, on four levels; `!` stands only before its operand.
-/

namespace LoxExpr

inductive Operator where
  | plus
  | minus
  | times
  | over
  | not
  | differs
  | equals
  | less
  | atMost
  | greater
  | atLeast
deriving DecidableEq, Repr

/-- On which side a chain of operators of one level is grouped.  Every level
of the language is grouped on the left. -/
inductive Associativity where
  | left
deriving DecidableEq, Repr

namespace Operator

/-- The binding strength between two operands, the loosest being 1. -/
def precedence? : Operator → Option Nat
  | .equals | .differs => some 1
  | .less | .atMost | .greater | .atLeast => some 2
  | .plus | .minus => some 3
  | .times | .over => some 4
  | .not => none

def associativity : Operator → Associativity
  | _ => .left

/-- How an operator binds between two operands, if it may stand there. -/
def binding? (operator : Operator) : Option (Nat × Associativity) :=
  operator.precedence?.map fun precedence =>
    (precedence, operator.associativity)

/-- The name of an operator in diagnostics about malformed trees. -/
def name : Operator → String
  | .plus => "Plus"
  | .minus => "Minus"
  | .times => "Mul"
  | .over => "Div"
  | .not => "Not"
  | .differs => "NotEq"
  | .equals => "EqEq"
  | .less => "Lt"
  | .atMost => "LtEq"
  | .greater => "Gt"
  | .atLeast => "GtEq"

def all : List Operator :=
  [.plus, .minus, .times, .over, .not, .differs, .equals, .less, .atMost,
    .greater, .atLeast]

theorem mem_all (operator : Operator) : operator ∈ all := by
  cases operator <;> decide

end Operator

end LoxExpr
