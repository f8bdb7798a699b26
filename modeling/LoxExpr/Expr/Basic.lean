import LoxExpr.Token

/-!
# Expressions

The trees that are read from tokens.  Operators and assigned names stay in the
tree as tokens, so that a diagnostic about a node can point at it.
-/

namespace LoxExpr

inductive Expr where
  | literal (value : Value)
  | group (inner : Expr)
  | unary (operator : Token) (operand : Expr)
  | binary (left : Expr) (operator : Token) (right : Expr)
  | assign (name : Token) (assigned : Expr)

namespace Expr

def isEqual : Expr → Expr → Bool
  | .literal left, .literal right => left == right
  | .group left, .group right => isEqual left right
  | .unary operator operand, .unary operator' operand' =>
      operator == operator' && isEqual operand operand'
  | .binary left operator right, .binary left' operator' right' =>
      isEqual left left' && operator == operator' && isEqual right right'
  | .assign name assigned, .assign name' assigned' =>
      name == name' && isEqual assigned assigned'
  | _, _ => false

instance : BEq Expr := ⟨isEqual⟩

/-- The text of a tree, with parentheses around every node that has an
operator, an assignment or a group of its own. -/
def render : Expr → String
  | .literal value => value.display
  | .group inner => "(" ++ inner.render ++ ")"
  | .unary operator operand =>
      "(" ++ operator.lexeme ++ " " ++ operand.render ++ ")"
  | .binary left operator right =>
      "(" ++ left.render ++ " " ++ operator.lexeme ++ " " ++ right.render ++ ")"
  | .assign name assigned =>
      "(" ++ name.lexeme ++ " = " ++ assigned.render ++ ")"

end Expr

end LoxExpr
