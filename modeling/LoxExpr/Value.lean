import LoxExpr.Number.Layout
import LoxExpr.Text.Quoted

/-!
# Values

An expression has one of four kinds of value.  Values of different kinds are
never equal; numbers are compared as binary64 numbers, so the two zeros are
equal and not-a-number differs from itself.
-/

namespace LoxExpr

inductive Value where
  | nil
  | boolean (truth : Bool)
  | number (real : Float)
  | string (content : String)

namespace Value

def isEqual : Value → Value → Bool
  | .nil, .nil => true
  | .boolean left, .boolean right => left == right
  | .number left, .number right => left == right
  | .string left, .string right => left == right
  | _, _ => false

instance : BEq Value := ⟨isEqual⟩

/-- Only nil and false count as false. -/
def isTruthy : Value → Bool
  | .nil => false
  | .boolean truth => truth
  | .number _ => true
  | .string _ => true

/-- The text that a user reads: a string is its content. -/
def display : Value → String
  | .nil => "nil"
  | .boolean truth => if truth then "true" else "false"
  | .number real => Layout.plain.write real
  | .string content => content

/-- The text in log records: the kind of the value, and its content in a form
that shows every character. -/
def inspect : Value → String
  | .nil => "Nil"
  | .boolean truth => if truth then "Boolean(true)" else "Boolean(false)"
  | .number real => "Number(" ++ Layout.inspected.write real ++ ")"
  | .string content => "String(" ++ Text.quoted content ++ ")"

end Value

end LoxExpr
