import LoxExpr.Expr.Basic
import LoxExpr.Fault
import LoxExpr.Value.Arithmetic

/-!
# Evaluation

A tree is evaluated from its leaves upwards, left operands before right ones,
and stops at the first node that has no value.  Assignments have none, and
what would be assigned is not looked at.  A node whose operator token cannot
stand there is a defect of the tree; trees that were read from tokens have no
such node.
-/

namespace LoxExpr

/-- A node that no reading of tokens builds. -/
inductive Defect where
  | unary (kind : Token.Kind)
  | binary (kind : Token.Kind)
  | notBinary
deriving DecidableEq, Repr

def Defect.message : Defect → String
  | .unary kind => "unary node with operator " ++ kind.name
  | .binary kind => "binary node with non-operator token " ++ kind.name
  | .notBinary => "binary node with operator `!`"

/-- Why a node has no value. -/
inductive Obstacle where
  | objection (objection : Objection)
  | assignment
  | defect (defect : Defect)
deriving DecidableEq, Repr

/-- The token of a node without a value, and the reason. -/
structure Stuck where
  token : Token
  obstacle : Obstacle

/-- What a user is told about a stuck evaluation, unless the tree itself is
defective. -/
def Stuck.report (stuck : Stuck) : Except Defect Fault :=
  match stuck.obstacle with
  | .objection objection => .ok (stuck.token.runtimeFault objection.detail)
  | .assignment => .ok (stuck.token.unsupportedFault "Assignment")
  | .defect defect => .error defect

namespace Token

/-- The outcome of an operation, with the token of its operator attached to an
objection. -/
def settle (token : Token) : Except Objection Value → Except Stuck Value
  | .ok value => .ok value
  | .error objection =>
      .error { token := token, obstacle := .objection objection }

def applyUnary (token : Token) (inner : Value) : Except Stuck Value :=
  match token.kind with
  | .operator .not => .ok (.boolean !inner.isTruthy)
  | .operator .minus => token.settle inner.negate
  | kind => .error { token := token, obstacle := .defect (.unary kind) }

def applyBinary (token : Token) (left right : Value) : Except Stuck Value :=
  match token.kind with
  | .operator symbol =>
      match symbol.operation? with
      | some operation => token.settle (operation left right)
      | none => .error { token := token, obstacle := .defect .notBinary }
  | kind => .error { token := token, obstacle := .defect (.binary kind) }

end Token

def Expr.evaluate : Expr → Except Stuck Value
  | .literal value => .ok value
  | .group inner => inner.evaluate
  | .unary operator operand =>
      match operand.evaluate with
      | .ok inner => operator.applyUnary inner
      | .error stuck => .error stuck
  | .binary left operator right =>
      match left.evaluate with
      | .ok leftValue =>
          match right.evaluate with
          | .ok rightValue => operator.applyBinary leftValue rightValue
          | .error stuck => .error stuck
      | .error stuck => .error stuck
  | .assign name _ => .error { token := name, obstacle := .assignment }

end LoxExpr
