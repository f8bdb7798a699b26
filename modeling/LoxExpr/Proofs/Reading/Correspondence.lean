import LoxExpr.Proofs.Reading.Answer

/-!
# Corresponding readings

A reading decides by the kinds of tokens, and its tree is made of tokens and of
the constants that they stand for.  Suppose that two token lists correspond,
and that they still do behind their current tokens.  If the current tokens are
related, and related tokens have one kind and related constants, then the two
readings go the same way, and what they answer corresponds.
-/

namespace LoxExpr

/-- Trees of one shape, with related tokens and related literals. -/
inductive Expr.Corresponds (related : Token → Token → Prop)
    (literals : Value → Value → Prop) : Expr → Expr → Prop where
  | literal {value value' : Value} :
      literals value value' →
      Corresponds related literals (.literal value) (.literal value')
  | group {inner inner' : Expr} :
      Corresponds related literals inner inner' →
      Corresponds related literals (.group inner) (.group inner')
  | unary {operator operator' : Token} {operand operand' : Expr} :
      related operator operator' →
      Corresponds related literals operand operand' →
      Corresponds related literals (.unary operator operand)
        (.unary operator' operand')
  | binary {operator operator' : Token} {left left' right right' : Expr} :
      Corresponds related literals left left' → related operator operator' →
      Corresponds related literals right right' →
      Corresponds related literals (.binary left operator right)
        (.binary left' operator' right')
  | assign {name name' : Token} {assigned assigned' : Expr} :
      related name name' →
      Corresponds related literals assigned assigned' →
      Corresponds related literals (.assign name assigned)
        (.assign name' assigned')

namespace Reading

/-- Places correspond when their current tokens are related and the places
behind these correspond again. -/
structure Correspondence (related : Token → Token → Prop)
    (literals : Value → Value → Prop)
    (places : List Token → List Token → Prop) : Prop where
  kind : ∀ {token token'}, related token token' → token'.kind = token.kind
  constant : ∀ {token token'}, related token token' →
    Option.Rel literals (constant? token) (constant? token')
  peek : ∀ {tokens tokens'}, places tokens tokens' →
    related (peek tokens) (peek tokens')
  advance : ∀ {tokens tokens'}, places tokens tokens' →
    places (advance tokens) (advance tokens')

theorem rel_eq_of_constant {token token' : Token}
    (same : constant? token' = constant? token) :
    Option.Rel Eq (constant? token) (constant? token') := by
  rw [same]
  cases constant? token with
  | none => exact .none
  | some value => exact .some rfl

section Correspondence

variable (related : Token → Token → Prop)
  (literals : Value → Value → Prop) (places : List Token → List Token → Prop)

/-- Replies with corresponding trees, or with the same expectation at related
tokens. -/
inductive Reply.Corresponds : Reply → Reply → Prop where
  | read {tree tree' : Expr} {rest rest' : List Token} :
      tree.Corresponds related literals tree' → places rest rest' →
      Corresponds (.read tree rest) (.read tree' rest')
  | refused (expected : Expectation) {found found' : Token}
      {rest rest' : List Token} :
      related found found' → places rest rest' →
      Corresponds (.refused ⟨expected, found⟩ rest)
        (.refused ⟨expected, found'⟩ rest')
  | exhausted : Corresponds .exhausted .exhausted

/-- The same task, with corresponding trees on the left. -/
inductive Task.Corresponds : Task → Task → Prop where
  | expression : Corresponds .expression .expression
  | climb (least : Nat) : Corresponds (.climb least) (.climb least)
  | extend (least : Nat) {left left' : Expr} :
      left.Corresponds related literals left' →
      Corresponds (.extend least left) (.extend least left')
  | operand : Corresponds .operand .operand
  | group : Corresponds .group .group
  | signed : Corresponds .signed .signed

variable {related literals places}

namespace Correspondence

variable (corresponds : Correspondence related literals places)
  {tokens tokens' : List Token}
include corresponds

theorem kind_peek (same : places tokens tokens') :
    (Reading.peek tokens').kind = (Reading.peek tokens).kind :=
  corresponds.kind (corresponds.peek same)

theorem startsAssignment (same : places tokens tokens') :
    startsAssignment tokens' = startsAssignment tokens := by
  rw [Bool.eq_iff_iff, startsAssignment_iff, startsAssignment_iff,
    corresponds.kind_peek same,
    corresponds.kind_peek (corresponds.advance same)]

theorem binding? (same : places tokens tokens') :
    binding? tokens' = binding? tokens := by
  rw [Reading.binding?, Reading.binding?, Token.operator?, Token.operator?,
    corresponds.kind_peek same]

theorem refuse (expected : Expectation) (same : places tokens tokens') :
    Reply.Corresponds related literals places (refuse expected tokens)
      (refuse expected tokens') :=
  .refused expected (corresponds.peek same) same

theorem expect {kind : Token.Kind} {expected : Expectation}
    {next next' : List Token → Reply} (same : places tokens tokens')
    (continues : ∀ rest rest', places rest rest' →
      Reply.Corresponds related literals places (next rest) (next' rest')) :
    Reply.Corresponds related literals places
      (expect kind expected tokens next)
      (expect kind expected tokens' next') := by
  rw [Reading.expect, Reading.expect, corresponds.kind_peek same]
  split
  · exact continues _ _ (corresponds.advance same)
  · exact corresponds.refuse expected same

end Correspondence

theorem Reply.Corresponds.andThen {reply reply' : Reply}
    {next next' : Expr → List Token → Reply}
    (replies : Reply.Corresponds related literals places reply reply')
    (continues : ∀ {tree tree' rest rest'},
      tree.Corresponds related literals tree' → places rest rest' →
      Reply.Corresponds related literals places (next tree rest)
        (next' tree' rest')) :
    Reply.Corresponds related literals places (reply.andThen next)
      (reply'.andThen next') := by
  cases replies with
  | read trees same => exact continues trees same
  | refused expected found same => exact .refused expected found same
  | exhausted => exact .exhausted

namespace Correspondence

variable (corresponds : Correspondence related literals places)
  {tokens tokens' : List Token}
include corresponds

/-- One step looks at the current token and the next one, and leaves all else
to its calls. -/
theorem step {call call' : Task → List Token → Reply}
    (calls : ∀ {later later' rest rest'},
      Task.Corresponds related literals later later' → places rest rest' →
      Reply.Corresponds related literals places (call later rest)
        (call' later' rest'))
    {task task' : Task}
    (tasks : Task.Corresponds related literals task task')
    (same : places tokens tokens') :
    Reply.Corresponds related literals places (task.step call tokens)
      (task'.step call' tokens') := by
  have here := corresponds.peek same
  have behind := corresponds.advance same
  cases tasks with
  | expression =>
      simp only [Task.step, corresponds.startsAssignment same]
      split
      · apply (calls .expression (corresponds.advance behind)).andThen
        intro assigned assigned' rest rest' trees sameRest
        exact .read (.assign here trees) sameRest
      · exact calls (.climb 1) same
  | climb least =>
      apply (calls .operand same).andThen
      intro left left' rest rest' trees sameRest
      exact calls (.extend least trees) sameRest
  | extend least trees =>
      simp only [Task.step, corresponds.binding? same]
      split
      · exact .read trees same
      · next precedence associativity bound =>
          split
          · exact .read trees same
          · apply (calls (.climb (rightStrength precedence associativity))
              behind).andThen
            intro right right' rest rest' rightTrees sameRest
            exact calls (.extend least (.binary trees here rightTrees))
              sameRest
  | operand =>
      have constants := corresponds.constant here
      simp only [Task.step, corresponds.kind_peek same]
      generalize constant? (Reading.peek tokens) = value at constants
      generalize constant? (Reading.peek tokens') = value' at constants
      cases constants with
      | some values => exact .read (.literal values) behind
      | none =>
          simp only
          split
          · exact calls .signed same
          · exact calls .signed same
          · exact calls .group same
          · exact corresponds.refuse .expression same
  | group =>
      simp only [Task.step]
      apply corresponds.expect same
      intro inside inside' sameInside
      apply (calls .expression sameInside).andThen
      intro inner inner' rest rest' trees sameRest
      apply corresponds.expect sameRest
      intro behind behind' sameBehind
      exact .read (.group trees) sameBehind
  | signed =>
      simp only [Task.step]
      apply (calls .operand behind).andThen
      intro inner inner' rest rest' trees sameRest
      exact .read (.unary here trees) sameRest

theorem reply (budget : Nat) {task task' : Task}
    (tasks : Task.Corresponds related literals task task')
    (same : places tokens tokens') :
    Reply.Corresponds related literals places (task.reply budget tokens)
      (task'.reply budget tokens') := by
  -- Every call has one less of the budget, on both sides.
  induction budget generalizing task task' tokens tokens' with
  | zero => cases tasks <;> exact .exhausted
  | succ budget induction =>
      rw [Task.reply_succ, Task.reply_succ]
      apply corresponds.step _ tasks same
      intro later later' rest rest' laterTasks sameRest
      exact induction laterTasks sameRest

theorem whole (budget : Nat) (same : places tokens tokens') :
    Reply.Corresponds related literals places (whole budget tokens)
      (whole budget tokens') := by
  apply (corresponds.reply budget .expression same).andThen
  intro tree tree' rest rest' trees sameRest
  have sameEnd : isAtEnd rest' = isAtEnd rest := by
    rw [isAtEnd, isAtEnd, corresponds.kind_peek sameRest]
  rw [sameEnd]
  split
  · exact .read trees sameRest
  · exact corresponds.refuse .endOfInput sameRest

/-- Corresponding lists of one length are both read, as corresponding trees, or
both refused, with the same expectation at related tokens. -/
theorem ofTokens (same : places (Reader.close tokens) (Reader.close tokens'))
    (sameLength : (Reader.close tokens').length =
      (Reader.close tokens).length) :
    (∃ tree tree', Expr.ofTokens tokens = .ok tree ∧
        Expr.ofTokens tokens' = .ok tree' ∧
        tree.Corresponds related literals tree') ∨
      ∃ expected found found',
        Expr.ofTokens tokens = .error ⟨expected, found⟩ ∧
          Expr.ofTokens tokens' = .error ⟨expected, found'⟩ ∧
          related found found' := by
  have replies := corresponds.whole (budgetFor (Reader.close tokens)) same
  have enough := whole_ne_exhausted (Reader.close tokens)
  have sameBudget : budgetFor (Reader.close tokens') =
      budgetFor (Reader.close tokens) := by
    rw [budgetFor, budgetFor, sameLength]
  simp only [Expr.ofTokens, Reader.read, Reader.ofTokens, Reader.rest,
    List.drop_zero, Reader.reply, sameBudget]
  generalize Reading.whole (budgetFor (Reader.close tokens))
    (Reader.close tokens) = reply at replies enough
  generalize Reading.whole (budgetFor (Reader.close tokens))
    (Reader.close tokens') = reply' at replies
  cases replies with
  | read trees _ => exact .inl ⟨_, _, rfl, rfl, trees⟩
  | refused expected found _ =>
      exact .inr ⟨expected, _, _, rfl, rfl, found⟩
  | exhausted => exact absurd rfl enough

end Correspondence

end Correspondence

end Reading

end LoxExpr
