import LoxExpr.Expr.Evaluation
import LoxExpr.Proofs.Grammar.Recognition

/-!
# Regular trees

A tree is regular when every operator token in it can stand where it stands.
Trees that are read from tokens are regular, because the grammar derives no
others, and a regular tree has a value or a fault that can be reported.
-/

namespace LoxExpr

/-- Every operator token of the tree can stand where it stands. -/
def Expr.Regular : Expr → Prop
  | .literal _ => True
  | .group inner => inner.Regular
  | .unary operator operand =>
      (operator.kind = .operator .not ∨ operator.kind = .operator .minus) ∧
        operand.Regular
  | .binary left operator right =>
      left.Regular ∧
        (∃ symbol, operator.kind = .operator symbol ∧
          symbol.precedence?.isSome = true) ∧
        right.Regular
  | .assign _ assigned => assigned.Regular

namespace Grammar

/-- The tree that a phrase starts from is regular. -/
def Phrase.StartsRegular : Phrase → Prop
  | .links _ left => left.Regular
  | _ => True

theorem Phrase.startsRegular_operand (level : Level) :
    level.operand.StartsRegular := by
  cases level <;> trivial

/-- The grammar derives regular trees, as far as it starts from them. -/
theorem Derives.regular {phrase : Phrase} {tokens : List Token}
    {tree : Expr} (derives : Derives phrase tokens tree) :
    phrase.StartsRegular → tree.Regular := by
  induction derives with
  | assignment _ _ _ assigned => exact fun _ => assigned trivial
  | equality _ chain => exact fun _ => chain trivial
  | chain _ _ operand links =>
      intro _
      exact links (operand (Phrase.startsRegular_operand _))
  | noLink => exact id
  | link isSymbol member _ _ operand links =>
      intro leftRegular
      have rightRegular := operand (Phrase.startsRegular_operand _)
      have binds := Level.mem_symbols_iff.mp member
      exact links ⟨leftRegular, ⟨_, isSymbol, by simp [binds]⟩, rightRegular⟩
  | signed isSign _ operand => exact fun _ => ⟨isSign, operand trivial⟩
  | primary _ primary => exact fun _ => primary trivial
  | trueWord => exact fun _ => trivial
  | falseWord => exact fun _ => trivial
  | nilWord => exact fun _ => trivial
  | number => exact fun _ => trivial
  | string => exact fun _ => trivial
  | group _ _ _ inner => exact fun _ => inner trivial

end Grammar

theorem Expr.regular_of_ofTokens {tokens : List Token} {tree : Expr}
    (result : ofTokens tokens = .ok tree) : tree.Regular := by
  obtain ⟨rest, answer, _⟩ := ofTokens_eq_ok_iff.mp result
  obtain ⟨used, _, derives⟩ :=
    Grammar.derives_of_answer .expression _ tree rest answer
  exact derives.regular trivial

/-- The outcome of an evaluation is a value or a fault. -/
def Reportable : Except Stuck Value → Prop
  | .ok _ => True
  | .error stuck => ∃ fault, stuck.report = .ok fault

namespace Token

theorem reportable_settle (token : Token)
    (outcome : Except Objection Value) :
    Reportable (token.settle outcome) := by
  cases outcome with
  | ok value => exact trivial
  | error objection => exact ⟨_, rfl⟩

theorem reportable_applyUnary {token : Token} (inner : Value)
    (isSign : token.kind = .operator .not ∨ token.kind = .operator .minus) :
    Reportable (token.applyUnary inner) := by
  rw [applyUnary]
  rcases isSign with isNot | isMinus
  · rw [isNot]
    exact trivial
  · rw [isMinus]
    exact reportable_settle token _

theorem reportable_applyBinary {token : Token} {symbol : Operator}
    (left right : Value) (isSymbol : token.kind = .operator symbol)
    (binds : symbol.precedence?.isSome = true) :
    Reportable (token.applyBinary left right) := by
  rw [← symbol.operation?_isSome] at binds
  obtain ⟨operation, isOperation⟩ := Option.isSome_iff_exists.mp binds
  simp only [applyBinary, isSymbol, isOperation]
  exact reportable_settle token _

end Token

theorem Expr.Regular.reportable_evaluate {tree : Expr}
    (regular : tree.Regular) : Reportable tree.evaluate := by
  induction tree with
  | literal value => exact trivial
  | group inner induction => exact induction regular
  | unary operator operand induction =>
      obtain ⟨isSign, operandRegular⟩ := regular
      have operandReportable := induction operandRegular
      rw [evaluate]
      cases result : operand.evaluate with
      | ok inner => exact operator.reportable_applyUnary inner isSign
      | error stuck =>
          rw [result] at operandReportable
          exact operandReportable
  | binary left operator right leftInduction rightInduction =>
      obtain ⟨leftRegular, ⟨symbol, isSymbol, binds⟩, rightRegular⟩ := regular
      have leftReportable := leftInduction leftRegular
      have rightReportable := rightInduction rightRegular
      rw [evaluate]
      cases leftResult : left.evaluate with
      | ok leftValue =>
          cases rightResult : right.evaluate with
          | ok rightValue =>
              exact Token.reportable_applyBinary leftValue rightValue isSymbol
                binds
          | error stuck =>
              rw [rightResult] at rightReportable
              exact rightReportable
      | error stuck =>
          rw [leftResult] at leftReportable
          exact leftReportable
  | assign name assigned => exact ⟨_, rfl⟩

end LoxExpr
