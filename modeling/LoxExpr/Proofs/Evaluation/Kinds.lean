import LoxExpr.Expr.Evaluation

/-!
# Kinds of values

The kind of a tree is derived from the kinds of its literals, by one rule for
each construct.  An assignment has no rule.  A tree has a value exactly when it
has a kind, and this is the kind of the value, so the numbers in a tree do not
decide whether it has one.
-/

namespace LoxExpr

namespace Value

inductive Kind where
  | nil
  | boolean
  | number
  | string
deriving DecidableEq, Repr

def kind : Value → Kind
  | .nil => .nil
  | .boolean _ => .boolean
  | .number _ => .number
  | .string _ => .string

@[simp] theorem kind_nil : Value.nil.kind = .nil := rfl

@[simp] theorem kind_boolean (truth : Bool) :
    (Value.boolean truth).kind = .boolean := rfl

@[simp] theorem kind_number (real : Float) :
    (Value.number real).kind = .number := rfl

@[simp] theorem kind_string (content : String) :
    (Value.string content).kind = .string := rfl

theorem kind_eq_number_iff {value : Value} :
    value.kind = .number ↔ ∃ real, value = .number real := by
  cases value <;> simp

theorem kind_eq_string_iff {value : Value} :
    value.kind = .string ↔ ∃ content, value = .string content := by
  cases value <;> simp

theorem negate_eq_ok_iff {inner value : Value} :
    inner.negate = .ok value ↔
      ∃ real, inner = .number real ∧ value = .number (-real) := by
  cases inner <;> simp [negate, eq_comm]

theorem add_eq_ok_iff {left right value : Value} :
    add left right = .ok value ↔
      (∃ x y, left = .number x ∧ right = .number y ∧
          value = .number (x + y)) ∨
        ∃ x y, left = .string x ∧ right = .string y ∧
          value = .string (x ++ y) := by
  cases left <;> cases right <;> simp [add, eq_comm]

theorem onNumbers_eq_ok_iff {operation : Float → Float → Value}
    {left right value : Value} :
    onNumbers operation left right = .ok value ↔
      ∃ x y, left = .number x ∧ right = .number y ∧
        value = operation x y := by
  cases left <;> cases right <;> simp [onNumbers, eq_comm]

end Value

namespace Operator

open Value (Kind)

/-- The kinds of the operands that an operator joins, and of its outcome. -/
inductive Joins : Operator → Kind → Kind → Kind → Prop where
  | sum : Joins .plus .number .number .number
  | concatenation : Joins .plus .string .string .string
  | arithmetic {symbol : Operator} :
      symbol ∈ [.minus, .times, .over] →
      Joins symbol .number .number .number
  | order {symbol : Operator} :
      symbol ∈ [.greater, .atLeast, .less, .atMost] →
      Joins symbol .number .number .boolean
  | equality {symbol : Operator} {left right : Kind} :
      symbol ∈ [.equals, .differs] →
      Joins symbol left right .boolean

theorem Joins.outcome {symbol : Operator} {left right : Value} {kind : Kind}
    (joins : symbol.Joins left.kind right.kind kind) :
    ∃ operation value, symbol.operation? = some operation ∧
      operation left right = .ok value ∧ value.kind = kind := by
  generalize leftKind : left.kind = first at joins
  generalize rightKind : right.kind = second at joins
  cases joins with
  | sum =>
      obtain ⟨x, rfl⟩ := Value.kind_eq_number_iff.mp leftKind
      obtain ⟨y, rfl⟩ := Value.kind_eq_number_iff.mp rightKind
      exact ⟨_, _, rfl, rfl, rfl⟩
  | concatenation =>
      obtain ⟨x, rfl⟩ := Value.kind_eq_string_iff.mp leftKind
      obtain ⟨y, rfl⟩ := Value.kind_eq_string_iff.mp rightKind
      exact ⟨_, _, rfl, rfl, rfl⟩
  | arithmetic member =>
      obtain ⟨x, rfl⟩ := Value.kind_eq_number_iff.mp leftKind
      obtain ⟨y, rfl⟩ := Value.kind_eq_number_iff.mp rightKind
      simp only [List.mem_cons, List.not_mem_nil, or_false] at member
      rcases member with rfl | rfl | rfl <;> exact ⟨_, _, rfl, rfl, rfl⟩
  | order member =>
      obtain ⟨x, rfl⟩ := Value.kind_eq_number_iff.mp leftKind
      obtain ⟨y, rfl⟩ := Value.kind_eq_number_iff.mp rightKind
      simp only [List.mem_cons, List.not_mem_nil, or_false] at member
      rcases member with rfl | rfl | rfl | rfl <;>
        exact ⟨_, _, rfl, rfl, rfl⟩
  | equality member =>
      simp only [List.mem_cons, List.not_mem_nil, or_false] at member
      rcases member with rfl | rfl <;> exact ⟨_, _, rfl, rfl, rfl⟩

theorem joins_of_outcome {symbol : Operator}
    {operation : Value → Value → Except Objection Value}
    {left right value : Value} (found : symbol.operation? = some operation)
    (outcome : operation left right = .ok value) :
    symbol.Joins left.kind right.kind value.kind := by
  cases symbol <;> cases found
  case plus =>
    rcases Value.add_eq_ok_iff.mp outcome with
      ⟨x, y, rfl, rfl, rfl⟩ | ⟨x, y, rfl, rfl, rfl⟩
    · exact .sum
    · exact .concatenation
  case minus | times | «over» =>
    obtain ⟨x, y, rfl, rfl, rfl⟩ := Value.onNumbers_eq_ok_iff.mp outcome
    exact .arithmetic (by decide)
  case greater | atLeast | less | atMost =>
    obtain ⟨x, y, rfl, rfl, rfl⟩ := Value.onNumbers_eq_ok_iff.mp outcome
    exact .order (by decide)
  case equals | differs =>
    cases outcome
    exact .equality (by decide)

end Operator

namespace Token

theorem settle_eq_ok_iff {token : Token} {outcome : Except Objection Value}
    {value : Value} : token.settle outcome = .ok value ↔
      outcome = .ok value := by
  cases outcome <;> simp [settle]

theorem applyUnary_eq_ok_iff {token : Token} {inner value : Value} :
    token.applyUnary inner = .ok value ↔
      (token.kind = .operator .not ∧ value = .boolean !inner.isTruthy) ∨
        (token.kind = .operator .minus ∧ inner.negate = .ok value) := by
  unfold applyUnary
  split
  · next isNot => simp [isNot, eq_comm]
  · next isMinus => simp [isMinus, settle_eq_ok_iff]
  · next notNot notMinus =>
      constructor
      · intro result
        cases result
      · rintro (⟨isNot, _⟩ | ⟨isMinus, _⟩)
        · exact absurd isNot notNot
        · exact absurd isMinus notMinus

theorem applyBinary_eq_ok_iff {token : Token} {left right value : Value} :
    token.applyBinary left right = .ok value ↔
      ∃ symbol operation, token.kind = .operator symbol ∧
        symbol.operation? = some operation ∧
        operation left right = .ok value := by
  unfold applyBinary
  split
  · next symbol isSymbol =>
      cases found : symbol.operation? with
      | some operation => simp [isSymbol, found, settle_eq_ok_iff]
      | none => simp [isSymbol, found]
  · next notOperator =>
      constructor
      · intro result
        cases result
      · rintro ⟨symbol, _, isSymbol, _⟩
        exact absurd isSymbol (notOperator symbol)

end Token

namespace Expr

open Value (Kind)

theorem evaluate_unary_eq_ok_iff {operator : Token} {operand : Expr}
    {value : Value} :
    (Expr.unary operator operand).evaluate = .ok value ↔
      ∃ inner, operand.evaluate = .ok inner ∧
        operator.applyUnary inner = .ok value := by
  rw [evaluate]
  cases operand.evaluate <;> simp

theorem evaluate_binary_eq_ok_iff {operator : Token} {left right : Expr}
    {value : Value} :
    (Expr.binary left operator right).evaluate = .ok value ↔
      ∃ leftValue rightValue, left.evaluate = .ok leftValue ∧
        right.evaluate = .ok rightValue ∧
        operator.applyBinary leftValue rightValue = .ok value := by
  rw [evaluate]
  cases left.evaluate <;> cases right.evaluate <;> simp

/-- The kind of a tree. -/
inductive HasKind : Expr → Kind → Prop where
  | literal (value : Value) : HasKind (.literal value) value.kind
  | group {inner : Expr} {kind : Kind} :
      HasKind inner kind → HasKind (.group inner) kind
  | not {operator : Token} {operand : Expr} {kind : Kind} :
      operator.kind = .operator .not → HasKind operand kind →
      HasKind (.unary operator operand) .boolean
  | negation {operator : Token} {operand : Expr} :
      operator.kind = .operator .minus → HasKind operand .number →
      HasKind (.unary operator operand) .number
  | binary {operator : Token} {symbol : Operator} {left right : Expr}
      {leftKind rightKind kind : Kind} :
      operator.kind = .operator symbol →
      HasKind left leftKind → HasKind right rightKind →
      symbol.Joins leftKind rightKind kind →
      HasKind (.binary left operator right) kind

/-- A tree with a kind has a value of this kind. -/
theorem HasKind.evaluates {tree : Expr} {kind : Kind}
    (hasKind : tree.HasKind kind) :
    ∃ value, tree.evaluate = .ok value ∧ value.kind = kind := by
  induction hasKind with
  | literal value => exact ⟨value, rfl, rfl⟩
  | group _ induction => exact induction
  | not isNot _ induction =>
      obtain ⟨inner, result, _⟩ := induction
      exact ⟨_, evaluate_unary_eq_ok_iff.mpr ⟨inner, result,
        Token.applyUnary_eq_ok_iff.mpr (.inl ⟨isNot, rfl⟩)⟩, rfl⟩
  | negation isMinus _ induction =>
      obtain ⟨inner, result, isNumber⟩ := induction
      obtain ⟨real, rfl⟩ := Value.kind_eq_number_iff.mp isNumber
      exact ⟨_, evaluate_unary_eq_ok_iff.mpr ⟨_, result,
        Token.applyUnary_eq_ok_iff.mpr (.inr ⟨isMinus, rfl⟩)⟩, rfl⟩
  | binary isSymbol _ _ joins leftInduction rightInduction =>
      obtain ⟨left, leftResult, rfl⟩ := leftInduction
      obtain ⟨right, rightResult, rfl⟩ := rightInduction
      obtain ⟨operation, value, found, outcome, isKind⟩ := joins.outcome
      exact ⟨value, evaluate_binary_eq_ok_iff.mpr ⟨left, right, leftResult,
        rightResult, Token.applyBinary_eq_ok_iff.mpr
          ⟨_, operation, isSymbol, found, outcome⟩⟩, isKind⟩

/-- A tree with a value has the kind of the value. -/
theorem hasKind_of_evaluate {tree : Expr} {value : Value}
    (result : tree.evaluate = .ok value) : tree.HasKind value.kind := by
  induction tree generalizing value with
  | literal content =>
      cases result
      exact .literal content
  | group inner induction => exact .group (induction result)
  | unary operator operand induction =>
      obtain ⟨inner, operandResult, applied⟩ :=
        evaluate_unary_eq_ok_iff.mp result
      have operandKind := induction operandResult
      rcases Token.applyUnary_eq_ok_iff.mp applied with
        ⟨isNot, rfl⟩ | ⟨isMinus, negated⟩
      · exact .not isNot operandKind
      · obtain ⟨real, rfl, rfl⟩ := Value.negate_eq_ok_iff.mp negated
        exact .negation isMinus operandKind
  | binary left operator right leftInduction rightInduction =>
      obtain ⟨leftValue, rightValue, leftResult, rightResult, applied⟩ :=
        evaluate_binary_eq_ok_iff.mp result
      obtain ⟨symbol, operation, isSymbol, found, outcome⟩ :=
        Token.applyBinary_eq_ok_iff.mp applied
      exact .binary isSymbol (leftInduction leftResult)
        (rightInduction rightResult) (Operator.joins_of_outcome found outcome)
  | assign name assigned => cases result

/-- No node of the tree is an assignment. -/
def AssignFree : Expr → Prop
  | .literal _ => True
  | .group inner => inner.AssignFree
  | .unary _ operand => operand.AssignFree
  | .binary left _ right => left.AssignFree ∧ right.AssignFree
  | .assign _ _ => False

theorem HasKind.assignFree {tree : Expr} {kind : Kind}
    (hasKind : tree.HasKind kind) : tree.AssignFree := by
  induction hasKind with
  | literal _ => exact trivial
  | group _ induction => exact induction
  | not _ _ induction => exact induction
  | negation _ _ induction => exact induction
  | binary _ _ _ _ left right => exact ⟨left, right⟩

/-- Trees that differ only in their literals, and not in the kinds of these. -/
inductive Alike : Expr → Expr → Prop where
  | literal {value value' : Value} :
      value.kind = value'.kind → Alike (.literal value) (.literal value')
  | group {inner inner' : Expr} :
      Alike inner inner' → Alike (.group inner) (.group inner')
  | unary {operator : Token} {operand operand' : Expr} :
      Alike operand operand' →
      Alike (.unary operator operand) (.unary operator operand')
  | binary {operator : Token} {left left' right right' : Expr} :
      Alike left left' → Alike right right' →
      Alike (.binary left operator right) (.binary left' operator right')
  | assign {name : Token} {assigned assigned' : Expr} :
      Alike assigned assigned' →
      Alike (.assign name assigned) (.assign name assigned')

theorem Alike.symm {tree tree' : Expr} (alike : tree.Alike tree') :
    tree'.Alike tree := by
  induction alike with
  | literal same => exact .literal same.symm
  | group _ induction => exact .group induction
  | unary _ induction => exact .unary induction
  | binary _ _ left right => exact .binary left right
  | assign _ induction => exact .assign induction

theorem HasKind.alike {tree tree' : Expr} {kind : Kind}
    (hasKind : tree.HasKind kind) (alike : tree.Alike tree') :
    tree'.HasKind kind := by
  induction hasKind generalizing tree' with
  | literal value =>
      cases alike with
      | literal same => exact same ▸ .literal _
  | group _ induction =>
      cases alike with
      | group inner => exact .group (induction inner)
  | not isNot _ induction =>
      cases alike with
      | unary operand => exact .not isNot (induction operand)
  | negation isMinus _ induction =>
      cases alike with
      | unary operand => exact .negation isMinus (induction operand)
  | binary isSymbol _ _ joins leftInduction rightInduction =>
      cases alike with
      | binary left right =>
          exact .binary isSymbol (leftInduction left) (rightInduction right)
            joins

theorem evaluates_of_alike {tree tree' : Expr} (alike : tree.Alike tree')
    (evaluates : ∃ value, tree.evaluate = .ok value) :
    ∃ value, tree'.evaluate = .ok value := by
  obtain ⟨value, result⟩ := evaluates
  have hasKind := (hasKind_of_evaluate result).alike alike
  obtain ⟨value', result', _⟩ := hasKind.evaluates
  exact ⟨value', result'⟩

end Expr

end LoxExpr
