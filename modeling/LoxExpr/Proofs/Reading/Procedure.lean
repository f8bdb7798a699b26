import LoxExpr.Proofs.Reading.Passage

/-!
# Reading procedures

A procedure answers requests for a tree at a place in a token list.  One step
of it answers a request by means of further calls; they are a parameter of the
step.  When every call costs less than the request that makes it, a budget
above the cost is enough, and the answer does not depend on it.
-/

namespace LoxExpr

namespace Reading

/-- All calls that are cheaper than a request are settled. -/
def CallsSettled {Request : Type} (cost : Request → List Token → Nat)
    (gain : Request → Nat) (call call' : Request → List Token → Reply)
    (request : Request) (tokens : List Token) : Prop :=
  ∀ later rest, cost later rest < cost request tokens →
    Reply.Settled (gain later) rest (call later rest) (call' later rest)

structure Procedure (Request : Type) where
  /-- The answer to a request, from the answers to the calls it makes. -/
  step : (Request → List Token → Reply) → Request → List Token → Reply
  cost : Request → List Token → Nat
  /-- How many tokens a successful answer leaves behind at least. -/
  gain : Request → Nat
  /-- The answer depends only on settled answers to cheaper calls. -/
  step_settled : ∀ {call call' : Request → List Token → Reply}
    (request : Request) (tokens : List Token),
    CallsSettled cost gain call call' request tokens →
    Reply.Settled (gain request) tokens
      (step call request tokens) (step call' request tokens)

namespace Procedure

variable {Request : Type} (procedure : Procedure Request)

/-- The reply to a request within a budget, of which every call takes one. -/
def reply : Nat → Request → List Token → Reply
  | 0, _, _ => .exhausted
  | budget + 1, request, tokens => procedure.step (reply budget) request tokens

/-- Two budgets above the cost lead to the same reply. -/
theorem reply_settled {budget budget' : Nat} {request : Request}
    {tokens : List Token} (enough : procedure.cost request tokens < budget)
    (enough' : procedure.cost request tokens < budget') :
    Reply.Settled (procedure.gain request) tokens
      (procedure.reply budget request tokens)
      (procedure.reply budget' request tokens) := by
  induction budget generalizing budget' request tokens with
  | zero => exact absurd enough (Nat.not_lt_zero _)
  | succ budget induction =>
      cases budget' with
      | zero => exact absurd enough' (Nat.not_lt_zero _)
      | succ budget' =>
          apply procedure.step_settled
          intro later rest cheaper
          exact induction (by omega) (by omega)

/-- The reply within any budget that is enough. -/
def answer (request : Request) (tokens : List Token) : Reply :=
  procedure.reply (procedure.cost request tokens + 1) request tokens

theorem reply_eq_answer {budget : Nat} {request : Request}
    {tokens : List Token} (enough : procedure.cost request tokens < budget) :
    procedure.reply budget request tokens =
      procedure.answer request tokens :=
  (procedure.reply_settled enough (Nat.lt_succ_self _)).1

theorem answer_proceeds (request : Request) (tokens : List Token) :
    (procedure.answer request tokens).Proceeds
      (procedure.gain request) tokens :=
  (procedure.reply_settled (Nat.lt_succ_self _) (Nat.lt_succ_self _)).2

/-- Answers satisfy the equation of a step, without a budget. -/
theorem answer_eq_step (request : Request) (tokens : List Token) :
    procedure.answer request tokens =
      procedure.step procedure.answer request tokens := by
  refine (procedure.step_settled request tokens ?_).1
  intro later rest cheaper
  exact procedure.reply_settled cheaper (Nat.lt_succ_self _)

/-- What holds of a request when it holds of all cheaper ones holds always. -/
theorem cost_induction {motive : Request → List Token → Prop}
    (step : ∀ request tokens,
      (∀ later rest,
        procedure.cost later rest < procedure.cost request tokens →
          motive later rest) →
      motive request tokens) (request : Request) (tokens : List Token) :
    motive request tokens := by
  generalize bound : procedure.cost request tokens = cost
  induction cost using Nat.strongRecOn generalizing request tokens with
  | ind cost induction =>
      apply step
      intro later rest cheaper
      exact induction _ (bound ▸ cheaper) later rest rfl

end Procedure

end Reading

end LoxExpr
