import LoxExpr.Proofs.Evaluation.Kinds
import LoxExpr.Run

/-!
# The order of evaluation

Evaluation comes by the nodes of a tree in a fixed order, operands before their
operator and left ones before right ones.  Whether a node is stuck is said by
the rules for kinds, without evaluating anything.  A tree has a value when no
node on the way is stuck; otherwise the first stuck node alone decides how its
evaluation ends, and what comes behind it does not show.
-/

namespace LoxExpr

namespace Expr

/-- The nodes that evaluation comes by, in this order.  A group is passed
over, and what would be assigned is not looked at. -/
def visits : Expr → List Expr
  | .literal value => [.literal value]
  | .group inner => inner.visits
  | .unary operator operand =>
      operand.visits ++ [.unary operator operand]
  | .binary left operator right =>
      left.visits ++ right.visits ++ [.binary left operator right]
  | .assign name assigned => [.assign name assigned]

end Expr

/-- What an operator with two operands objects to when it rejects them. -/
def Operator.objection : Operator → Objection
  | .plus => .twoAlike
  | _ => .twoNumbers

namespace Expr

open Value (Kind)

/-- Why a node is stuck: it assigns, its operator cannot stand there, or its
operator rejects the kinds of its operands. -/
inductive GetsStuck : Expr → Stuck → Prop where
  | assignment {name : Token} {assigned : Expr} :
      GetsStuck (.assign name assigned) ⟨name, .assignment⟩
  | notUnary {operator : Token} {operand : Expr} :
      operator.kind ≠ .operator .not → operator.kind ≠ .operator .minus →
      GetsStuck (.unary operator operand)
        ⟨operator, .defect (.unary operator.kind)⟩
  | notOperator {left right : Expr} {operator : Token} :
      (∀ symbol, operator.kind ≠ .operator symbol) →
      GetsStuck (.binary left operator right)
        ⟨operator, .defect (.binary operator.kind)⟩
  | notBinary {left right : Expr} {operator : Token} :
      operator.kind = .operator .not →
      GetsStuck (.binary left operator right)
        ⟨operator, .defect .notBinary⟩
  | operand {operator : Token} {operand : Expr} {kind : Kind} :
      operator.kind = .operator .minus →
      operand.HasKind kind → kind ≠ .number →
      GetsStuck (.unary operator operand) ⟨operator, .objection .number⟩
  | operands {left right : Expr} {operator : Token} {symbol : Operator}
      {leftKind rightKind : Kind} :
      operator.kind = .operator symbol → symbol ≠ .not →
      left.HasKind leftKind → right.HasKind rightKind →
      (∀ kind, ¬ symbol.Joins leftKind rightKind kind) →
      GetsStuck (.binary left operator right)
        ⟨operator, .objection symbol.objection⟩

def IsStuck (node : Expr) : Prop :=
  ∃ stuck, node.GetsStuck stuck

end Expr

/-- How the evaluation of a tree ends at this node.  A defect breaks it off;
anything else is reported once. -/
def Stuck.outcome (stuck : Stuck) : Run :=
  let token := stuck.token
  match stuck.obstacle with
  | .objection objection =>
      { records :=
          [.error (.runtime token.line token.place objection.detail)]
        ending := .reported }
  | .assignment =>
      { records :=
          [.error (.unsupported token.line token.place "Assignment")]
        ending := .reported }
  | .defect defect =>
      { records := [], ending := .defective defect }

namespace Value

theorem negate_eq_error_iff {inner : Value} {objection : Objection} :
    inner.negate = .error objection ↔
      objection = .number ∧ inner.kind ≠ .number := by
  cases inner <;> simp [negate, eq_comm]

end Value

/-- An operation is rejected exactly when the kinds of its operands are not
joined. -/
theorem Operator.operation?_eq_error_iff {symbol : Operator}
    {operation : Value → Value → Except Objection Value}
    {left right : Value} {objection : Objection}
    (found : symbol.operation? = some operation) :
    operation left right = .error objection ↔
      objection = symbol.objection ∧
        ∀ kind, ¬ symbol.Joins left.kind right.kind kind := by
  constructor
  · intro rejected
    constructor
    · cases symbol <;> cases found <;> cases left <;> cases right <;>
        cases rejected <;> rfl
    · intro kind joins
      obtain ⟨_, value, same, outcome, _⟩ := joins.outcome
      rw [found] at same
      cases same
      rw [rejected] at outcome
      cases outcome
  · rintro ⟨rfl, notJoined⟩
    cases outcome : operation left right with
    | ok value =>
        have joins := joins_of_outcome found outcome
        exact absurd joins (notJoined value.kind)
    | error objection =>
        cases symbol <;> cases found <;> cases left <;> cases right <;>
          cases outcome <;> rfl

namespace Expr

open Value (Kind)

/-- A tree has one kind at most, that of its value. -/
theorem HasKind.eq_kind {tree : Expr} {kind : Kind} {value : Value}
    (hasKind : tree.HasKind kind) (result : tree.evaluate = .ok value) :
    kind = value.kind := by
  obtain ⟨other, sameResult, rfl⟩ := hasKind.evaluates
  rw [result] at sameResult
  cases sameResult
  rfl

/-- Above an operand with a value, the operator decides. -/
theorem applyUnary_eq_error_iff {operator : Token} {operand : Expr}
    {inner : Value} {stuck : Stuck}
    (result : operand.evaluate = .ok inner) :
    operator.applyUnary inner = .error stuck ↔
      (Expr.unary operator operand).GetsStuck stuck := by
  constructor
  · intro applied
    unfold Token.applyUnary at applied
    split at applied
    · cases applied
    · next isMinus =>
        cases negated : inner.negate with
        | ok value =>
            rw [negated] at applied
            cases applied
        | error objection =>
            rw [negated] at applied
            cases applied
            obtain ⟨rfl, notNumber⟩ := Value.negate_eq_error_iff.mp negated
            exact .operand isMinus (hasKind_of_evaluate result) notNumber
    · next notNot notMinus =>
        cases applied
        exact .notUnary notNot notMinus
  · intro getsStuck
    cases getsStuck with
    | notUnary notNot notMinus =>
        unfold Token.applyUnary
        split
        · next isNot => exact absurd isNot notNot
        · next isMinus => exact absurd isMinus notMinus
        · rfl
    | operand isMinus hasKind notNumber =>
        rw [hasKind.eq_kind result] at notNumber
        have negated := Value.negate_eq_error_iff.mpr ⟨rfl, notNumber⟩
        simp only [Token.applyUnary, isMinus, negated, Token.settle]

theorem applyBinary_eq_error_iff {left right : Expr} {operator : Token}
    {leftValue rightValue : Value} {stuck : Stuck}
    (leftResult : left.evaluate = .ok leftValue)
    (rightResult : right.evaluate = .ok rightValue) :
    operator.applyBinary leftValue rightValue = .error stuck ↔
      (Expr.binary left operator right).GetsStuck stuck := by
  constructor
  · intro applied
    unfold Token.applyBinary at applied
    split at applied
    · next symbol isSymbol =>
        split at applied
        · next operation found =>
            cases outcome : operation leftValue rightValue with
            | ok value =>
                rw [outcome] at applied
                cases applied
            | error objection =>
                rw [outcome] at applied
                cases applied
                obtain ⟨rfl, notJoined⟩ :=
                  (Operator.operation?_eq_error_iff found).mp outcome
                have isBinary : symbol ≠ .not := by
                  rintro rfl
                  cases found
                exact .operands isSymbol isBinary
                  (hasKind_of_evaluate leftResult)
                  (hasKind_of_evaluate rightResult) notJoined
        · next noOperation =>
            cases applied
            have isNot : symbol = .not := by
              cases symbol <;> first | rfl | cases noOperation
            exact .notBinary (isNot ▸ isSymbol)
    · next notOperator =>
        cases applied
        exact .notOperator notOperator
  · intro getsStuck
    cases getsStuck with
    | notOperator notOperator =>
        unfold Token.applyBinary
        split
        · next symbol isSymbol => exact absurd isSymbol (notOperator symbol)
        · rfl
    | notBinary isNot =>
        simp only [Token.applyBinary, isNot, Operator.operation?]
    | @operands _ _ _ symbol _ _ isSymbol isBinary leftKind rightKind
        notJoined =>
        rw [leftKind.eq_kind leftResult, rightKind.eq_kind rightResult]
          at notJoined
        cases found : symbol.operation? with
        | some operation =>
            have outcome :=
              (Operator.operation?_eq_error_iff found).mpr ⟨rfl, notJoined⟩
            simp only [Token.applyBinary, isSymbol, found, outcome,
              Token.settle]
        | none =>
            have isNot : symbol = .not := by
              cases symbol <;> first | rfl | cases found
            exact absurd isNot isBinary

end Expr

/-- The first stuck node of a list is stuck for this reason. -/
def FirstStuck (nodes : List Expr) (stuck : Stuck) : Prop :=
  ∃ before node behind, nodes = before ++ node :: behind ∧
    (∀ earlier ∈ before, ¬ earlier.IsStuck) ∧ node.GetsStuck stuck

namespace FirstStuck

variable {nodes later : List Expr} {stuck : Stuck}

theorem inFront (first : FirstStuck nodes stuck) (later : List Expr) :
    FirstStuck (nodes ++ later) stuck := by
  obtain ⟨before, node, behind, rfl, free, getsStuck⟩ := first
  refine ⟨before, node, behind ++ later, ?_, free, getsStuck⟩
  rw [List.append_assoc, List.cons_append]

theorem behind (free : ∀ node ∈ nodes, ¬ node.IsStuck)
    (first : FirstStuck later stuck) :
    FirstStuck (nodes ++ later) stuck := by
  obtain ⟨before, node, behind, rfl, laterFree, getsStuck⟩ := first
  refine ⟨nodes ++ before, node, behind, ?_, ?_, getsStuck⟩
  · rw [List.append_assoc]
  · exact List.forall_mem_append.mpr ⟨free, laterFree⟩

theorem single {node : Expr} (getsStuck : node.GetsStuck stuck) :
    FirstStuck [node] stuck := by
  refine ⟨[], node, [], rfl, ?_, getsStuck⟩
  simp

end FirstStuck

namespace Expr

open Value (Kind)

section Decisions

variable {left right operand : Expr} {operator : Token}

/-- A node is not stuck if its operator has an outcome. -/
theorem not_isStuck_unary {inner value : Value}
    (result : operand.evaluate = .ok inner)
    (applied : operator.applyUnary inner = .ok value) :
    ¬ (Expr.unary operator operand).IsStuck := by
  rintro ⟨stuck, getsStuck⟩
  rw [(applyUnary_eq_error_iff result).mpr getsStuck] at applied
  cases applied

theorem not_isStuck_binary {leftValue rightValue value : Value}
    (leftResult : left.evaluate = .ok leftValue)
    (rightResult : right.evaluate = .ok rightValue)
    (applied : operator.applyBinary leftValue rightValue = .ok value) :
    ¬ (Expr.binary left operator right).IsStuck := by
  rintro ⟨stuck, getsStuck⟩
  rw [(applyBinary_eq_error_iff leftResult rightResult).mpr getsStuck]
    at applied
  cases applied

end Decisions

/-- Evaluation that ends with a value came by no stuck node. -/
theorem not_isStuck_of_evaluate {tree : Expr} {value : Value}
    (result : tree.evaluate = .ok value) :
    ∀ node ∈ tree.visits, ¬ node.IsStuck := by
  induction tree generalizing value with
  | literal content =>
      rintro node member ⟨stuck, getsStuck⟩
      obtain rfl := List.mem_singleton.mp member
      cases getsStuck
  | group inner induction => exact induction result
  | unary operator operand induction =>
      obtain ⟨inner, operandResult, applied⟩ :=
        evaluate_unary_eq_ok_iff.mp result
      rw [visits, List.forall_mem_append, List.forall_mem_singleton]
      constructor
      · exact induction operandResult
      · exact not_isStuck_unary operandResult applied
  | binary left operator right leftInduction rightInduction =>
      obtain ⟨leftValue, rightValue, leftResult, rightResult, applied⟩ :=
        evaluate_binary_eq_ok_iff.mp result
      rw [visits, List.forall_mem_append, List.forall_mem_append,
        List.forall_mem_singleton]
      refine ⟨⟨?_, ?_⟩, ?_⟩
      · exact leftInduction leftResult
      · exact rightInduction rightResult
      · exact not_isStuck_binary leftResult rightResult applied
  | assign name assigned => cases result

/-- Evaluation that is stuck is stuck at the first stuck node. -/
theorem firstStuck_of_evaluate {tree : Expr} {stuck : Stuck}
    (result : tree.evaluate = .error stuck) :
    FirstStuck tree.visits stuck := by
  induction tree with
  | literal content => cases result
  | group inner induction => exact induction result
  | unary operator operand induction =>
      rw [evaluate] at result
      cases operandResult : operand.evaluate with
      | error inner =>
          rw [operandResult] at result
          cases result
          exact (induction operandResult).inFront _
      | ok inner =>
          rw [operandResult] at result
          apply FirstStuck.behind (not_isStuck_of_evaluate operandResult)
          apply FirstStuck.single
          exact (applyUnary_eq_error_iff operandResult).mp result
  | binary left operator right leftInduction rightInduction =>
      rw [evaluate] at result
      cases leftResult : left.evaluate with
      | error leftStuck =>
          rw [leftResult] at result
          cases result
          exact ((leftInduction leftResult).inFront _).inFront _
      | ok leftValue =>
          have leftFree := not_isStuck_of_evaluate leftResult
          cases rightResult : right.evaluate with
          | error rightStuck =>
              rw [leftResult, rightResult] at result
              cases result
              exact ((rightInduction rightResult).behind leftFree).inFront _
          | ok rightValue =>
              rw [leftResult, rightResult] at result
              have rightFree := not_isStuck_of_evaluate rightResult
              apply FirstStuck.behind
              · exact List.forall_mem_append.mpr ⟨leftFree, rightFree⟩
              · apply FirstStuck.single
                exact (applyBinary_eq_error_iff leftResult rightResult).mp
                  result
  | assign name assigned =>
      cases result
      exact .single .assignment

theorem HasKind.unique {tree : Expr} {kind other : Kind}
    (hasKind : tree.HasKind kind) (hasOther : tree.HasKind other) :
    kind = other := by
  obtain ⟨value, result, rfl⟩ := hasKind.evaluates
  exact (hasOther.eq_kind result).symm

/-- A stuck node is stuck for one reason. -/
theorem GetsStuck.unique {node : Expr} {stuck other : Stuck}
    (getsStuck : node.GetsStuck stuck) (getsOther : node.GetsStuck other) :
    stuck = other := by
  cases getsStuck with
  | assignment =>
      cases getsOther
      rfl
  | notUnary notNot notMinus =>
      cases getsOther with
      | notUnary => rfl
      | operand isMinus => exact absurd isMinus notMinus
  | notOperator notOperator =>
      cases getsOther with
      | notOperator => rfl
      | notBinary isNot => exact absurd isNot (notOperator _)
      | operands isSymbol => exact absurd isSymbol (notOperator _)
  | notBinary isNot =>
      cases getsOther with
      | notOperator notOperator => exact absurd isNot (notOperator _)
      | notBinary => rfl
      | operands isSymbol isBinary =>
          rw [isNot] at isSymbol
          cases isSymbol
          exact absurd rfl isBinary
  | operand isMinus =>
      cases getsOther with
      | notUnary _ notMinus => exact absurd isMinus notMinus
      | operand => rfl
  | operands isSymbol isBinary =>
      cases getsOther with
      | notOperator notOperator => exact absurd isSymbol (notOperator _)
      | notBinary isNot =>
          rw [isNot] at isSymbol
          cases isSymbol
          exact absurd rfl isBinary
      | operands isOther =>
          rw [isSymbol] at isOther
          cases isOther
          rfl

theorem interpret_of_stuck {tree : Expr} {stuck : Stuck}
    (result : tree.evaluate = .error stuck) :
    tree.interpret = stuck.outcome := by
  obtain ⟨token, obstacle⟩ := stuck
  rw [interpret, result]
  cases obstacle <;> rfl

/-- The evaluation of any tree ends with a value exactly when no node that is
visited is stuck.  Otherwise the first stuck node, whatever comes behind it,
decides how it ends, and this has one reason only. -/
theorem interpret_stops_at_first_stuck (tree : Expr) :
    ((∃ value, tree.interpret.result = some value) ↔
        ∀ node ∈ tree.visits, ¬ node.IsStuck) ∧
      ((∃ node ∈ tree.visits, node.IsStuck) →
        ∃ before node behind stuck,
          tree.visits = before ++ node :: behind ∧
            (∀ earlier ∈ before, ¬ earlier.IsStuck) ∧
            node.GetsStuck stuck ∧
            (∀ other, node.GetsStuck other → other = stuck) ∧
            tree.interpret = stuck.outcome) := by
  cases result : tree.evaluate with
  | ok value =>
      have free := not_isStuck_of_evaluate result
      constructor
      · constructor
        · intro _
          exact free
        · intro _
          exact ⟨value, by rw [interpret, result]; rfl⟩
      · rintro ⟨node, member, isStuck⟩
        exact absurd isStuck (free node member)
  | error stuck =>
      have first := firstStuck_of_evaluate result
      have ends := interpret_of_stuck result
      obtain ⟨before, node, behind, visits, free, getsStuck⟩ := first
      constructor
      · constructor
        · rintro ⟨value, finished⟩
          rw [ends] at finished
          obtain ⟨token, obstacle⟩ := stuck
          cases obstacle <;> cases finished
        · intro allFree
          have member : node ∈ tree.visits := by simp [visits]
          exact absurd ⟨stuck, getsStuck⟩ (allFree node member)
      · intro _
        refine ⟨before, node, behind, stuck, visits, free, getsStuck, ?_,
          ends⟩
        intro other getsOther
        exact getsOther.unique getsStuck

/-- An assignment on the left comes before a comma between operands. -/
example (name comma : Token) (assigned right : Expr) :
    (Expr.binary (.assign name assigned) comma right).interpret =
      Stuck.outcome ⟨name, .assignment⟩ := rfl

end Expr

end LoxExpr
