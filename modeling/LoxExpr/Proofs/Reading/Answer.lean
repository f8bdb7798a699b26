import LoxExpr.Expr.Reader
import LoxExpr.Proofs.Reading.Procedure

/-!
# Answers without a budget

The functions that read expressions are the steps of one procedure, whose
requests are `Task`s.  Every call costs less than its caller: it is made behind
a consumed token or has a lower rank.  The exception is a signed operand at the
end of input, which stays where it is, but its call is refused at once.  So the
budget that a reader grants is enough, and the readings satisfy equations
without a budget.
-/

namespace LoxExpr

namespace Reading

/-- What a reading function is called for. -/
inductive Task where
  | expression
  | climb (least : Nat)
  | extend (least : Nat) (left : Expr)
  | operand
  | group
  | signed

namespace Task

/-- The reply to a task within a budget. -/
def reply (budget : Nat) : Task → List Token → Reply
  | .expression => Reading.expression budget
  | .climb least => Reading.climb budget least
  | .extend least left => Reading.extend budget least left
  | .operand => Reading.operand budget
  | .group => Reading.group budget
  | .signed => Reading.signed budget

/-- The reply to a task, from the replies to the calls it makes. -/
def step (call : Task → List Token → Reply) : Task → List Token → Reply
  | .expression, tokens =>
      if startsAssignment tokens then
        (call .expression (advance (advance tokens))).andThen
          fun assigned rest => .read (.assign (peek tokens) assigned) rest
      else call (.climb 1) tokens
  | .climb least, tokens =>
      (call .operand tokens).andThen
        fun left rest => call (.extend least left) rest
  | .extend least left, tokens =>
      match binding? tokens with
      | none => .read left tokens
      | some (precedence, associativity) =>
          if precedence < least then .read left tokens
          else
            (call (.climb (rightStrength precedence associativity))
              (advance tokens)).andThen
              fun right rest =>
                call (.extend least (.binary left (peek tokens) right)) rest
  | .operand, tokens =>
      match constant? (peek tokens) with
      | some value => .read (.literal value) (advance tokens)
      | none =>
          match (peek tokens).kind with
          | .operator .not => call .signed tokens
          | .operator .minus => call .signed tokens
          | .leftParen => call .group tokens
          | _ => refuse .expression tokens
  | .group, tokens =>
      expect .leftParen .leftParen tokens fun inside =>
        (call .expression inside).andThen fun inner behind =>
          expect .rightParen .rightParen behind fun rest =>
            .read (.group inner) rest
  | .signed, tokens =>
      (call .operand (advance tokens)).andThen
        fun inner rest => .read (.unary (peek tokens) inner) rest

theorem reply_succ (budget : Nat) (task : Task) (tokens : List Token) :
    task.reply (budget + 1) tokens =
      step (fun later => later.reply budget) task tokens := by
  cases task <;> rfl

/-- A bound for the depth of the calls: four for each pending token, and the
rank of the function. -/
def cost : Task → List Token → Nat
  | .expression, tokens => 4 * pending tokens + 3
  | .climb _, tokens => 4 * pending tokens + 2
  | .operand, tokens => 4 * pending tokens + 1
  | .extend _ _, tokens => 4 * pending tokens
  | .group, tokens => 4 * pending tokens
  | .signed, tokens => if pending tokens = 0 then 2 else 4 * pending tokens

/-- An extension may stop where it begins; every other task needs a token. -/
def gain : Task → Nat
  | .extend _ _ => 0
  | _ => 1

theorem cost_lt_budgetFor (task : Task) (tokens : List Token) :
    task.cost tokens < budgetFor tokens := by
  have short := pending_le_length tokens
  cases task <;> simp only [cost, budgetFor] <;> try omega
  split <;> omega

end Task

theorem startsAssignment_iff {tokens : List Token} :
    startsAssignment tokens ↔
      (peek tokens).kind = .identifier ∧
        (peek (advance tokens)).kind = .equalSign := by
  rcases tokens with _ | ⟨name, _ | ⟨sign, rest⟩⟩
  · simp [startsAssignment, peek, Token.endOfInput]
  · by_cases isName : name.kind = .identifier
    · simp [startsAssignment, advance, peek, isName, Token.endOfInput]
    · simp [startsAssignment, peek, isName]
  · by_cases isName : name.kind = .identifier
    · simp [startsAssignment, advance, peek, isName]
    · simp [startsAssignment, peek, isName]

theorem passes_assignment {tokens : List Token}
    (starts : startsAssignment tokens) :
    Passes 2 tokens (advance (advance tokens)) := by
  obtain ⟨isName, isSign⟩ := startsAssignment_iff.mp starts
  exact (passes_advance (by simp [isName])).trans
    (passes_advance (by simp [isSign]))

theorem binding?_eq_some_iff {tokens : List Token}
    {binding : Nat × Associativity} :
    binding? tokens = some binding ↔
      ∃ symbol, (peek tokens).kind = .operator symbol ∧
        symbol.binding? = some binding := by
  unfold binding? Token.operator?
  cases (peek tokens).kind <;> simp

theorem operator?_eq_some_iff {token : Token} {symbol : Operator} :
    token.operator? = some symbol ↔ token.kind = .operator symbol := by
  unfold Token.operator?
  cases token.kind <;> simp

theorem not_end_of_operator? {token : Token} {symbol : Operator}
    (isSymbol : token.operator? = some symbol) :
    token.kind ≠ .endOfInput := by
  simp [operator?_eq_some_iff.mp isSymbol]

theorem not_end_of_binding? {tokens : List Token}
    {binding : Nat × Associativity} (bound : binding? tokens = some binding) :
    (peek tokens).kind ≠ .endOfInput := by
  obtain ⟨symbol, isSymbol, _⟩ := binding?_eq_some_iff.mp bound
  simp [isSymbol]

theorem not_end_of_constant? {token : Token} {value : Value}
    (constant : constant? token = some value) :
    token.kind ≠ .endOfInput := by
  intro isEnd
  simp [constant?, isEnd] at constant

namespace Task

variable {call call' : Task → List Token → Reply} {tokens : List Token}

theorem expression_settled
    (settled : CallsSettled cost gain call call' .expression tokens) :
    Reply.Settled 1 tokens (step call .expression tokens)
      (step call' .expression tokens) := by
  simp only [step]
  split
  · next starts =>
      have passes := passes_assignment starts
      have fewer := passes.pending_le
      have assigned := settled .expression (advance (advance tokens))
        (by simp only [cost]; omega)
      refine ((assigned.andThen ?_).behind passes).weaken (by omega)
      intro tree rest _
      exact .read _ (Passes.refl rest)
  · exact settled (.climb 1) tokens (by simp only [cost]; omega)

theorem climb_settled {least : Nat}
    (settled : CallsSettled cost gain call call' (.climb least) tokens) :
    Reply.Settled 1 tokens (step call (.climb least) tokens)
      (step call' (.climb least) tokens) := by
  have left := settled .operand tokens (by simp only [cost]; omega)
  apply left.andThen
  intro tree rest passes
  have fewer : pending rest + 1 ≤ pending tokens := passes.pending_le
  exact settled (.extend least tree) rest (by simp only [cost]; omega)

theorem extend_settled {least : Nat} {left : Expr}
    (settled : CallsSettled cost gain call call' (.extend least left) tokens) :
    Reply.Settled 0 tokens (step call (.extend least left) tokens)
      (step call' (.extend least left) tokens) := by
  simp only [step]
  split
  · exact .read left (Passes.refl tokens)
  · next precedence associativity bound =>
      split
      · exact .read left (Passes.refl tokens)
      · have behind := passes_advance (not_end_of_binding? bound)
        have fewer := behind.pending_le
        have right := settled
          (.climb (rightStrength precedence associativity)) (advance tokens)
          (by simp only [cost]; omega)
        refine ((right.andThen ?_).behind behind).weaken (Nat.zero_le _)
        intro tree rest passes
        have evenFewer : pending rest + 1 ≤ pending (advance tokens) :=
          passes.pending_le
        exact settled (.extend least (.binary left (peek tokens) tree)) rest
          (by simp only [cost]; omega)

theorem operand_settled
    (settled : CallsSettled cost gain call call' .operand tokens) :
    Reply.Settled 1 tokens (step call .operand tokens)
      (step call' .operand tokens) := by
  have signed (isSign : (peek tokens).kind ≠ .endOfInput) :
      Reply.Settled 1 tokens (call .signed tokens) (call' .signed tokens) := by
    have inside := mt pending_eq_zero_iff.mp isSign
    exact settled .signed tokens
      (by simp only [cost, if_neg inside]; omega)
  simp only [step]
  split
  · next value constant =>
      exact .read _ (passes_advance (not_end_of_constant? constant))
  · split
    · next isNot => exact signed (by simp [isNot])
    · next isMinus => exact signed (by simp [isMinus])
    · exact settled .group tokens (by simp only [cost]; omega)
    · exact .refuse 1 .expression tokens

theorem group_settled
    (settled : CallsSettled cost gain call call' .group tokens) :
    Reply.Settled 1 tokens (step call .group tokens)
      (step call' .group tokens) := by
  simp only [step]
  apply Reply.Settled.expect
  · simp
  · intro behind
    have fewer := behind.pending_le
    have inner := settled .expression (advance tokens)
      (by simp only [cost]; omega)
    refine (inner.andThen ?_).weaken (Nat.zero_le _)
    intro tree rest _
    refine Reply.Settled.weaken (Reply.Settled.expect ?_ ?_) (Nat.zero_le 1)
    · simp
    · intro _
      exact .read _ (Passes.refl _)

theorem signed_settled
    (settled : CallsSettled cost gain call call' .signed tokens) :
    Reply.Settled 1 tokens (step call .signed tokens)
      (step call' .signed tokens) := by
  have cheaper : cost .operand (advance tokens) < cost .signed tokens := by
    by_cases isEnd : (peek tokens).kind = .endOfInput
    · have nothing := pending_eq_zero_iff.mpr isEnd
      simp only [cost, advance_of_end isEnd, nothing]
      decide
    · have inside := mt pending_eq_zero_iff.mp isEnd
      have fewer := pending_advance isEnd
      simp only [cost, if_neg inside]
      omega
  have operand := settled .operand (advance tokens) cheaper
  refine ((operand.andThen ?_).behind (passes_advance_zero tokens)).weaken
    (by simp [gain])
  intro tree rest _
  exact .read _ (Passes.refl rest)

end Task

/-- The functions that read expressions, as one procedure. -/
def climbing : Procedure Task where
  step := Task.step
  cost := Task.cost
  gain := Task.gain
  step_settled := by
    intro call call' task tokens settled
    cases task with
    | expression => exact Task.expression_settled settled
    | climb least => exact Task.climb_settled settled
    | extend least left => exact Task.extend_settled settled
    | operand => exact Task.operand_settled settled
    | group => exact Task.group_settled settled
    | signed => exact Task.signed_settled settled

theorem answer_eq_step (task : Task) (tokens : List Token) :
    climbing.answer task tokens = Task.step climbing.answer task tokens :=
  climbing.answer_eq_step task tokens

theorem reply_eq_climbing_reply (budget : Nat) (task : Task)
    (tokens : List Token) :
    task.reply budget tokens = climbing.reply budget task tokens := by
  induction budget generalizing task tokens with
  | zero => cases task <;> rfl
  | succ budget induction =>
      have same : (fun later : Task => later.reply budget) =
          climbing.reply budget := by
        funext later rest
        exact induction later rest
      rw [Task.reply_succ, same]
      rfl

/-- The budget of a reader is enough for every task. -/
theorem reply_eq_answer {budget : Nat} {tokens : List Token}
    (enough : budgetFor tokens ≤ budget) (task : Task) :
    task.reply budget tokens = climbing.answer task tokens := by
  rw [reply_eq_climbing_reply]
  exact climbing.reply_eq_answer
    (Nat.lt_of_lt_of_le (task.cost_lt_budgetFor tokens) enough)

theorem whole_ne_exhausted (tokens : List Token) :
    whole (budgetFor tokens) tokens ≠ .exhausted := by
  have replied : expression (budgetFor tokens) tokens =
      climbing.answer .expression tokens :=
    reply_eq_answer (Nat.le_refl _) .expression
  have proceeds := climbing.answer_proceeds .expression tokens
  rw [whole, replied]
  cases result : climbing.answer .expression tokens with
  | read tree rest =>
      by_cases isEnd : isAtEnd rest = true <;>
        simp [Reply.andThen, isEnd, refuse]
  | refused mismatch rest => simp [Reply.andThen]
  | exhausted => exact absurd result proceeds.ne_exhausted

end Reading

theorem Reader.moveTo_eq {reader : Reader} {used rest : List Token}
    (split : reader.tokens = used ++ rest) :
    reader.moveTo rest = { reader with position := used.length } := by
  simp [moveTo, split]

end LoxExpr
