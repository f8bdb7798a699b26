import LoxExpr.Proofs.Grammar.Derivation
import LoxExpr.Proofs.Reading.Answer

/-!
# Descent through the levels

The textbook reader of the grammar: every phrase has a function of its own,
and a level reads its operands with the function of the next tighter level.
Its replies have the same form as those of the readings that climb by binding
strength.
-/

namespace LoxExpr

namespace Grammar

open Reading

namespace Phrase

/-- The reply to a phrase, from the replies to the phrases it calls for. -/
def step (call : Phrase → List Token → Reply) : Phrase → List Token → Reply
  | .expression, tokens =>
      if (peek tokens).kind = .identifier ∧
          (peek (advance tokens)).kind = .equalSign then
        (call .expression (advance (advance tokens))).andThen
          fun assigned rest => .read (.assign (peek tokens) assigned) rest
      else call (.chain .equality) tokens
  | .chain level, tokens =>
      (call level.operand tokens).andThen
        fun left rest => call (.links level left) rest
  | .links level left, tokens =>
      match (peek tokens).operator? with
      | none => .read left tokens
      | some symbol =>
          if symbol ∈ level.symbols then
            (call level.operand (advance tokens)).andThen
              fun right rest =>
                call (.links level (.binary left (peek tokens) right)) rest
          else .read left tokens
  | .unary, tokens =>
      if (peek tokens).kind = .operator .not ∨
          (peek tokens).kind = .operator .minus then
        (call .unary (advance tokens)).andThen
          fun operand rest => .read (.unary (peek tokens) operand) rest
      else call .primary tokens
  | .primary, tokens =>
      match (peek tokens).kind with
      | .keyword .trueWord => .read (.literal (.boolean true)) (advance tokens)
      | .keyword .falseWord =>
          .read (.literal (.boolean false)) (advance tokens)
      | .keyword .nilWord => .read (.literal .nil) (advance tokens)
      | .number =>
          .read (.literal ((peek tokens).literal.getD .nil)) (advance tokens)
      | .string =>
          .read (.literal ((peek tokens).literal.getD .nil)) (advance tokens)
      | .leftParen =>
          (call .expression (advance tokens)).andThen fun inner behind =>
            expect .rightParen .rightParen behind fun rest =>
              .read (.group inner) rest
      | _ => refuse .expression tokens

/-- How many phrases can be called for, one after the other, without a token
being consumed. -/
def rank : Phrase → Nat
  | .expression => 6
  | .chain .equality => 5
  | .chain .comparison => 4
  | .chain .term => 3
  | .chain .factor => 2
  | .unary => 1
  | .primary => 0
  | .links _ _ => 0

def cost (phrase : Phrase) (tokens : List Token) : Nat :=
  7 * pending tokens + phrase.rank

/-- Links may be missing; every other phrase needs a token. -/
def gain : Phrase → Nat
  | .links _ _ => 0
  | _ => 1

theorem rank_le (phrase : Phrase) : phrase.rank ≤ 6 := by
  cases phrase with
  | chain level => cases level <;> simp [rank]
  | _ => simp [rank]

theorem rank_operand_lt (level : Level) :
    level.operand.rank < (Phrase.chain level).rank := by
  cases level <;> decide

theorem gain_operand (level : Level) : level.operand.gain = 1 := by
  cases level <;> rfl

theorem cost_lt_of_pending_lt {phrase phrase' : Phrase}
    {tokens rest : List Token} (fewer : pending rest < pending tokens) :
    phrase.cost rest < phrase'.cost tokens := by
  have bounded := phrase.rank_le
  simp only [cost]
  omega

theorem cost_lt_of_rank_lt {phrase phrase' : Phrase} {tokens : List Token}
    (lower : phrase.rank < phrase'.rank) :
    phrase.cost tokens < phrase'.cost tokens := by
  simp only [cost]
  omega

variable {call call' : Phrase → List Token → Reply} {tokens : List Token}

theorem expression_settled
    (settled : CallsSettled cost gain call call' .expression tokens) :
    Reply.Settled 1 tokens (step call .expression tokens)
      (step call' .expression tokens) := by
  simp only [step]
  split
  · next starts =>
      have passes := passes_assignment (startsAssignment_iff.mpr starts)
      have fewer := passes.pending_le
      have assigned := settled .expression (advance (advance tokens))
        (cost_lt_of_pending_lt (by omega))
      refine ((assigned.andThen ?_).behind passes).weaken (by omega)
      intro tree rest _
      exact .read _ (Passes.refl rest)
  · exact settled (.chain .equality) tokens (cost_lt_of_rank_lt (by decide))

theorem chain_settled {level : Level}
    (settled : CallsSettled cost gain call call' (.chain level) tokens) :
    Reply.Settled 1 tokens (step call (.chain level) tokens)
      (step call' (.chain level) tokens) := by
  have left := settled level.operand tokens
    (cost_lt_of_rank_lt (rank_operand_lt level))
  rw [gain_operand] at left
  apply left.andThen
  intro tree rest passes
  exact settled (.links level tree) rest
    (cost_lt_of_pending_lt passes.pending_le)

theorem links_settled {level : Level} {left : Expr}
    (settled : CallsSettled cost gain call call' (.links level left) tokens) :
    Reply.Settled 0 tokens (step call (.links level left) tokens)
      (step call' (.links level left) tokens) := by
  simp only [step]
  split
  · exact .read left (Passes.refl tokens)
  · next symbol isSymbol =>
      split
      · have behind := passes_advance (not_end_of_operator? isSymbol)
        have right := settled level.operand (advance tokens)
          (cost_lt_of_pending_lt behind.pending_le)
        refine ((right.andThen ?_).behind behind).weaken (Nat.zero_le _)
        intro tree rest passes
        have fewer := passes.pending_le
        have fewerBehind := behind.pending_le
        exact settled (.links level (.binary left (peek tokens) tree)) rest
          (cost_lt_of_pending_lt (by omega))
      · exact .read left (Passes.refl tokens)

theorem unary_settled
    (settled : CallsSettled cost gain call call' .unary tokens) :
    Reply.Settled 1 tokens (step call .unary tokens)
      (step call' .unary tokens) := by
  simp only [step]
  split
  · next isSign =>
      have behind := passes_advance (ne_endOfInput_of_sign isSign)
      have operand := settled .unary (advance tokens)
        (cost_lt_of_pending_lt behind.pending_le)
      refine ((operand.andThen ?_).behind behind).weaken (by omega)
      intro tree rest _
      exact .read _ (Passes.refl rest)
  · exact settled .primary tokens (cost_lt_of_rank_lt (by decide))

theorem primary_settled
    (settled : CallsSettled cost gain call call' .primary tokens) :
    Reply.Settled 1 tokens (step call .primary tokens)
      (step call' .primary tokens) := by
  have constant (tree : Expr) {kind : Token.Kind}
      (isKind : (peek tokens).kind = kind) (inner : kind ≠ .endOfInput) :
      Reply.Settled 1 tokens (.read tree (advance tokens))
        (.read tree (advance tokens)) :=
    .read tree (passes_advance (isKind ▸ inner))
  simp only [step]
  split
  · next isWord => exact constant _ isWord (by simp)
  · next isWord => exact constant _ isWord (by simp)
  · next isWord => exact constant _ isWord (by simp)
  · next isNumber => exact constant _ isNumber (by simp)
  · next isString => exact constant _ isString (by simp)
  · next isOpening =>
      have behind : Passes 1 tokens (advance tokens) :=
        passes_advance (by simp [isOpening])
      have inner := settled .expression (advance tokens)
        (cost_lt_of_pending_lt behind.pending_le)
      refine ((inner.andThen ?_).behind behind).weaken (by omega)
      intro tree rest _
      refine Reply.Settled.weaken (Reply.Settled.expect ?_ ?_) (Nat.zero_le 1)
      · simp
      · intro _
        exact .read _ (Passes.refl _)
  · exact .refuse 1 .expression tokens

end Phrase

/-- The functions of all phrases, as one procedure. -/
def descent : Procedure Phrase where
  step := Phrase.step
  cost := Phrase.cost
  gain := Phrase.gain
  step_settled := by
    intro call call' phrase tokens settled
    cases phrase with
    | expression => exact Phrase.expression_settled settled
    | chain level => exact Phrase.chain_settled settled
    | links level left => exact Phrase.links_settled settled
    | unary => exact Phrase.unary_settled settled
    | primary => exact Phrase.primary_settled settled

theorem answer_eq_step (phrase : Phrase) (tokens : List Token) :
    descent.answer phrase tokens =
      Phrase.step descent.answer phrase tokens :=
  descent.answer_eq_step phrase tokens

end Grammar

end LoxExpr
