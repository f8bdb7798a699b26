import LoxExpr.Proofs.Evaluation.Kinds
import LoxExpr.Proofs.Evaluation.Regular
import LoxExpr.Proofs.Grammar.Relabelling

/-!
# Failures of evaluation

The failure of a tree is the fault of the node at which its evaluation stops.
It is found from left to right and from the leaves upwards, and it is the only
part of an outcome in which the lexemes and lines of tokens show.
-/

namespace LoxExpr

/-- The fault that a user is told about instead of a value. -/
def Expr.failure? (tree : Expr) : Option Fault :=
  match tree.evaluate with
  | .ok _ => none
  | .error stuck => stuck.report.toOption

namespace Expr

theorem failure?_of_value {tree : Expr} {value : Value}
    (result : tree.evaluate = .ok value) : tree.failure? = none := by
  simp only [failure?, result]

theorem failure?_eq_some_iff {tree : Expr} {fault : Fault} :
    tree.failure? = some fault ↔
      ∃ stuck, tree.evaluate = .error stuck ∧ stuck.report = .ok fault := by
  rw [failure?]
  cases tree.evaluate with
  | ok value => simp
  | error stuck =>
      cases reported : stuck.report <;> simp [Except.toOption, reported]

/-- A regular tree without a value has a failure. -/
theorem Regular.value_or_failure {tree : Expr} (regular : tree.Regular) :
    (∃ value, tree.evaluate = .ok value) ∨
      ∃ fault, tree.failure? = some fault := by
  have reportable := regular.reportable_evaluate
  cases result : tree.evaluate with
  | ok value => exact .inl ⟨value, rfl⟩
  | error stuck =>
      rw [result] at reportable
      obtain ⟨fault, reported⟩ := reportable
      exact .inr ⟨fault, failure?_eq_some_iff.mpr ⟨stuck, result, reported⟩⟩

/-- The failure of a binary node is that of its left operand, or else that of
its right one, or else its own. -/
theorem failure?_binary {left right : Expr} {operator : Token} {fault : Fault}
    (fails : (Expr.binary left operator right).failure? = some fault) :
    left.failure? = some fault ∨
      (∃ x, left.evaluate = .ok x ∧ right.failure? = some fault) ∨
      ∃ x y stuck, left.evaluate = .ok x ∧ right.evaluate = .ok y ∧
        operator.applyBinary x y = .error stuck ∧
        stuck.report = .ok fault := by
  obtain ⟨stuck, result, reported⟩ := failure?_eq_some_iff.mp fails
  rw [evaluate] at result
  cases leftResult : left.evaluate with
  | error leftStuck =>
      rw [leftResult] at result
      cases result
      exact .inl (failure?_eq_some_iff.mpr ⟨_, leftResult, reported⟩)
  | ok x =>
      cases rightResult : right.evaluate with
      | error rightStuck =>
          rw [leftResult, rightResult] at result
          cases result
          exact .inr (.inl ⟨x, rfl,
            failure?_eq_some_iff.mpr ⟨_, rightResult, reported⟩⟩)
      | ok y =>
          rw [leftResult, rightResult] at result
          exact .inr (.inr ⟨x, y, stuck, rfl, rfl, result, reported⟩)

end Expr

/-- The same obstacle at another token. -/
def Stuck.mapToken (f : Token → Token) (stuck : Stuck) : Stuck :=
  { stuck with token := f stuck.token }

section Relabelling

variable {f : Token → Token} (relabels : Token.Relabels f)

theorem Token.settle_relabel (token : Token)
    (outcome : Except Objection Value) :
    (f token).settle outcome =
      (token.settle outcome).mapError (Stuck.mapToken f) := by
  cases outcome <;> rfl

include relabels

theorem Token.applyUnary_relabel (token : Token) (inner : Value) :
    (f token).applyUnary inner =
      (token.applyUnary inner).mapError (Stuck.mapToken f) := by
  simp only [applyUnary, relabels.kind]
  split
  · rfl
  · exact settle_relabel token _
  · rfl

theorem Token.applyBinary_relabel (token : Token) (left right : Value) :
    (f token).applyBinary left right =
      (token.applyBinary left right).mapError (Stuck.mapToken f) := by
  simp only [applyBinary, relabels.kind]
  split
  · split
    · exact settle_relabel token _
    · rfl
  · rfl

/-- The outcome of a tree with other tokens is its old one, at the other
token if it is stuck. -/
theorem Expr.evaluate_mapTokens (tree : Expr) :
    (tree.mapTokens f).evaluate =
      tree.evaluate.mapError (Stuck.mapToken f) := by
  induction tree with
  | literal value => rfl
  | group inner induction => exact induction
  | unary operator operand induction =>
      rw [mapTokens, evaluate, evaluate, induction]
      cases operand.evaluate with
      | ok inner => exact Token.applyUnary_relabel relabels operator inner
      | error stuck => rfl
  | binary left operator right leftInduction rightInduction =>
      rw [mapTokens, evaluate, evaluate, leftInduction, rightInduction]
      cases left.evaluate with
      | error stuck => rfl
      | ok x =>
          cases right.evaluate with
          | error stuck => rfl
          | ok y => exact Token.applyBinary_relabel relabels operator x y
  | assign name assigned => rfl

theorem Expr.evaluate_mapTokens_eq_ok_iff {tree : Expr} {value : Value} :
    (tree.mapTokens f).evaluate = .ok value ↔ tree.evaluate = .ok value := by
  rw [evaluate_mapTokens relabels]
  cases tree.evaluate with
  | ok other => exact Iff.rfl
  | error stuck =>
      constructor
      · intro result
        cases result
      · intro result
        cases result

/-- If a report follows the exchange of tokens, so does the failure. -/
theorem Expr.failure?_mapTokens {g : Fault → Fault}
    (reports : ∀ stuck : Stuck,
      (stuck.mapToken f).report = stuck.report.map g) (tree : Expr) :
    (tree.mapTokens f).failure? = tree.failure?.map g := by
  rw [failure?, failure?, evaluate_mapTokens relabels]
  cases tree.evaluate with
  | ok value => rfl
  | error stuck =>
      have reported : (stuck.mapToken f).report.toOption =
          stuck.report.toOption.map g := by
        rw [reports]
        cases stuck.report <;> rfl
      exact reported

end Relabelling

end LoxExpr
