import LoxExpr.Proofs.Evaluation.Order

/-!
# Alike trees

Every operator branches on the kinds of its operands only.  So two trees that
differ in their literals, but not in the kinds of these, are evaluated alike:
both have values of one kind, or both are stuck at the same token for the same
reason.
-/

namespace LoxExpr

/-- Two outcomes are alike: values of one kind, or the same reason against a
value. -/
inductive AlikeOutcomes {Reason : Type} :
    Except Reason Value → Except Reason Value → Prop where
  | values {value value' : Value} :
      value.kind = value'.kind → AlikeOutcomes (.ok value) (.ok value')
  | reasons (reason : Reason) :
      AlikeOutcomes (.error reason) (.error reason)

theorem Value.negate_alike {inner inner' : Value}
    (same : inner.kind = inner'.kind) :
    AlikeOutcomes inner.negate inner'.negate := by
  cases negated : inner.negate with
  | ok value =>
      obtain ⟨real, rfl, rfl⟩ := negate_eq_ok_iff.mp negated
      obtain ⟨real', rfl⟩ := kind_eq_number_iff.mp same.symm
      exact .values rfl
  | error objection =>
      rw [negate_eq_error_iff, same, ← negate_eq_error_iff] at negated
      rw [negated]
      exact .reasons objection

/-- The kinds of the operands decide whether they are joined. -/
theorem Operator.operation?_alike {symbol : Operator}
    {operation : Value → Value → Except Objection Value}
    (found : symbol.operation? = some operation)
    {left left' right right' : Value} (leftSame : left.kind = left'.kind)
    (rightSame : right.kind = right'.kind) :
    AlikeOutcomes (operation left right) (operation left' right') := by
  cases outcome : operation left right with
  | ok value =>
      have joins := joins_of_outcome found outcome
      rw [leftSame, rightSame] at joins
      obtain ⟨_, value', same, outcome', kind⟩ := joins.outcome
      rw [found] at same
      cases same
      rw [outcome']
      exact .values kind.symm
  | error objection =>
      rw [operation?_eq_error_iff found, leftSame, rightSame,
        ← operation?_eq_error_iff found] at outcome
      rw [outcome]
      exact .reasons objection

namespace Token

theorem settle_alike (token : Token)
    {outcome outcome' : Except Objection Value}
    (alike : AlikeOutcomes outcome outcome') :
    AlikeOutcomes (token.settle outcome) (token.settle outcome') := by
  cases alike with
  | values same => exact .values same
  | reasons objection => exact .reasons _

theorem applyUnary_alike (token : Token) {inner inner' : Value}
    (same : inner.kind = inner'.kind) :
    AlikeOutcomes (token.applyUnary inner) (token.applyUnary inner') := by
  unfold applyUnary
  split
  · exact .values rfl
  · exact token.settle_alike (Value.negate_alike same)
  · exact .reasons _

theorem applyBinary_alike (token : Token) {left left' right right' : Value}
    (leftSame : left.kind = left'.kind)
    (rightSame : right.kind = right'.kind) :
    AlikeOutcomes (token.applyBinary left right)
      (token.applyBinary left' right') := by
  unfold applyBinary
  split
  · split
    · next found =>
        apply token.settle_alike
        exact Operator.operation?_alike found leftSame rightSame
    · exact .reasons _
  · exact .reasons _

end Token

namespace Expr

/-- Alike trees have alike outcomes. -/
theorem Alike.evaluate {tree tree' : Expr} (alike : tree.Alike tree') :
    AlikeOutcomes tree.evaluate tree'.evaluate := by
  induction alike with
  | literal same => exact .values same
  | group _ induction => exact induction
  | @unary operator operand operand' _ induction =>
      rw [Expr.evaluate, Expr.evaluate]
      generalize operand.evaluate = outcome at induction
      generalize operand'.evaluate = outcome' at induction
      cases induction with
      | values same => exact operator.applyUnary_alike same
      | reasons stuck => exact .reasons stuck
  | @binary operator left left' right right' _ _ leftInduction
      rightInduction =>
      rw [Expr.evaluate, Expr.evaluate]
      generalize left.evaluate = leftOutcome at leftInduction
      generalize left'.evaluate = leftOutcome' at leftInduction
      cases leftInduction with
      | reasons stuck => exact .reasons stuck
      | values leftSame =>
          generalize right.evaluate = rightOutcome at rightInduction
          generalize right'.evaluate = rightOutcome' at rightInduction
          cases rightInduction with
          | reasons stuck => exact .reasons stuck
          | values rightSame =>
              exact operator.applyBinary_alike leftSame rightSame
  | assign _ _ => exact .reasons _

/-- Of alike trees, either both have a value, and these are of one kind, or
both report the same fault, or both break off with the same defect. -/
theorem interpret_alike {tree tree' : Expr} (alike : tree.Alike tree') :
    (∃ value value', tree.evaluate = .ok value ∧
        tree'.evaluate = .ok value' ∧ value.kind = value'.kind ∧
        tree.interpret.result = some value ∧
        tree'.interpret.result = some value') ∨
      (∃ fault, tree.interpret =
          { records := [.error fault], ending := .reported } ∧
        tree'.interpret =
          { records := [.error fault], ending := .reported }) ∨
      ∃ defect, tree.interpret =
          { records := [], ending := .defective defect } ∧
        tree'.interpret =
          { records := [], ending := .defective defect } := by
  have outcomes := alike.evaluate
  rw [interpret, interpret]
  generalize tree.evaluate = outcome at outcomes
  generalize tree'.evaluate = outcome' at outcomes
  cases outcomes with
  | @values value value' same =>
      left
      exact ⟨value, value', rfl, rfl, same, rfl, rfl⟩
  | reasons stuck =>
      right
      cases reported : stuck.report with
      | ok fault =>
          left
          refine ⟨fault, ?_, ?_⟩ <;> simp only [reported]
      | error defect =>
          right
          refine ⟨defect, ?_, ?_⟩ <;> simp only [reported]

/-- A quotient is compared with a string, and the outcome is negated. -/
def negatedComparison (left right : Float) (content : String) : Expr :=
  .unary ⟨.operator .minus, "-", none, 2⟩
    (.binary
      (.binary (.literal (.number left)) ⟨.operator .over, "/", none, 1⟩
        (.literal (.number right)))
      ⟨.operator .equals, "==", none, 1⟩ (.literal (.string content)))

theorem negatedComparison_alike (left right left' right' : Float)
    (content content' : String) :
    (negatedComparison left right content).Alike
      (negatedComparison left' right' content') :=
  .unary (.binary (.binary (.literal rfl) (.literal rfl)) (.literal rfl))

/-- Neither not-a-number nor an empty string makes a difference. -/
theorem interpret_alike_negatedComparison :
    (negatedComparison 1 2 "half").Alike (negatedComparison 0 0 "") ∧
      ∃ fault,
        (negatedComparison 1 2 "half").interpret =
          { records := [.error fault], ending := .reported } ∧
        (negatedComparison 0 0 "").interpret =
          { records := [.error fault], ending := .reported } ∧
        fault.message = "Line 2: Operand must be a number. at '-'" := by
  have alike := negatedComparison_alike 1 2 0 0 "half" ""
  have told : (negatedComparison 1 2 "half").interpret.events =
      [.error "Line 2: Operand must be a number. at '-'"] := by
    decide +kernel
  refine ⟨alike, ?_⟩
  rcases interpret_alike alike with ⟨value, _, result, _⟩ |
    ⟨fault, fails, failsAlike⟩ | ⟨defect, breaks, _⟩
  · cases result
  · refine ⟨fault, fails, failsAlike, ?_⟩
    rw [fails] at told
    simpa [Run.events, Record.error, Record.event?] using told
  · rw [breaks] at told
    cases told

end Expr

end LoxExpr
