import LoxExpr.Token.Operator
import LoxExpr.Value

/-!
# Operations on values

Arithmetic and order ask for two numbers, addition also accepts two strings,
and equality accepts any two values.  Numbers follow the rules of binary64
arithmetic, so that no number is rejected for its value: a quotient by zero is
an infinity or not-a-number.
-/

namespace LoxExpr

/-- What an operation asked of its operands in vain. -/
inductive Objection where
  | number
  | twoNumbers
  | twoAlike
deriving DecidableEq, Repr

def Objection.detail : Objection → String
  | .number => "Operand must be a number."
  | .twoNumbers => "Operands must be numbers."
  | .twoAlike => "Operands must both be strings or numbers."

namespace Value

def negate : Value → Except Objection Value
  | .number real => .ok (.number (-real))
  | _ => .error .number

def add : Value → Value → Except Objection Value
  | .number left, .number right => .ok (.number (left + right))
  | .string left, .string right => .ok (.string (left ++ right))
  | _, _ => .error .twoAlike

/-- An operation that is defined on numbers only. -/
def onNumbers (operation : Float → Float → Value) :
    Value → Value → Except Objection Value
  | .number left, .number right => .ok (operation left right)
  | _, _ => .error .twoNumbers

end Value

/-- The operation of an operator that stands between two operands. -/
def Operator.operation? :
    Operator → Option (Value → Value → Except Objection Value)
  | .plus => some Value.add
  | .minus => some (Value.onNumbers fun left right => .number (left - right))
  | .times => some (Value.onNumbers fun left right => .number (left * right))
  | .over => some (Value.onNumbers fun left right => .number (left / right))
  | .greater =>
      some (Value.onNumbers fun left right => .boolean (decide (left > right)))
  | .atLeast =>
      some (Value.onNumbers fun left right => .boolean (decide (left ≥ right)))
  | .less =>
      some (Value.onNumbers fun left right => .boolean (decide (left < right)))
  | .atMost =>
      some (Value.onNumbers fun left right => .boolean (decide (left ≤ right)))
  | .equals => some fun left right => .ok (.boolean (left == right))
  | .differs => some fun left right => .ok (.boolean (left != right))
  | .not => none

/-- The operators with an operation are those that bind between operands. -/
theorem Operator.operation?_isSome (operator : Operator) :
    operator.operation?.isSome = operator.precedence?.isSome := by
  cases operator <;> rfl

end LoxExpr
