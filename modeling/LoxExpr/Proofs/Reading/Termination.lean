import LoxExpr.Proofs.Reading.History

/-!
# Termination of the readings

The functions that read expressions call each other.  A call is made behind a
consumed token, or at the same place for a function of a lower rank.  There is
one exception, a signed operand at the end of input, whose call is refused at
once.  So the calls cannot go on for ever, and their depth is bounded by the
number of tokens before the end.
-/

namespace LoxExpr

namespace Reading

namespace Reply

theorem andThen_eq_exhausted_iff {reply : Reply}
    {next : Expr → List Token → Reply} :
    reply.andThen next = .exhausted ↔
      reply = .exhausted ∨
        ∃ tree rest, reply = .read tree rest ∧
          next tree rest = .exhausted := by
  cases reply with
  | read tree rest =>
      constructor
      · intro out
        exact .inr ⟨tree, rest, rfl, out⟩
      · intro either
        rcases either with absurd | ⟨_, _, same, out⟩
        · cases absurd
        · cases same
          exact out
  | refused mismatch rest => simp [andThen]
  | exhausted => simp [andThen]

end Reply

theorem expect_eq_exhausted_iff {kind : Token.Kind} {expected : Expectation}
    {tokens : List Token} {next : List Token → Reply} :
    expect kind expected tokens next = .exhausted ↔
      (peek tokens).kind = kind ∧ next (advance tokens) = .exhausted := by
  by_cases isKind : (peek tokens).kind = kind <;>
    simp [expect, isKind, refuse]

namespace Task

/-- A task at a place makes the call of a later task at a later place, if its
calls are answered in this way. -/
inductive Calls (call : Task → List Token → Reply) :
    Task → List Token → Task → List Token → Prop where
  | assigned {tokens : List Token} :
      startsAssignment tokens →
      Calls call .expression tokens .expression (advance (advance tokens))
  | operators {tokens : List Token} :
      ¬ startsAssignment tokens →
      Calls call .expression tokens (.climb 1) tokens
  | left {least : Nat} {tokens : List Token} :
      Calls call (.climb least) tokens .operand tokens
  | loop {least : Nat} {left : Expr} {tokens rest : List Token} :
      call .operand tokens = .read left rest →
      Calls call (.climb least) tokens (.extend least left) rest
  | right {least precedence : Nat} {associativity : Associativity}
      {left : Expr} {tokens : List Token} :
      binding? tokens = some (precedence, associativity) →
      ¬ precedence < least →
      Calls call (.extend least left) tokens
        (.climb (rightStrength precedence associativity)) (advance tokens)
  | turn {least precedence : Nat} {associativity : Associativity}
      {left right : Expr} {tokens rest : List Token} :
      binding? tokens = some (precedence, associativity) →
      ¬ precedence < least →
      call (.climb (rightStrength precedence associativity))
        (advance tokens) = .read right rest →
      Calls call (.extend least left) tokens
        (.extend least (.binary left (peek tokens) right)) rest
  | sign {symbol : Operator} {tokens : List Token} :
      (peek tokens).kind = .operator symbol →
      symbol = .not ∨ symbol = .minus →
      Calls call .operand tokens .signed tokens
  | parenthesis {tokens : List Token} :
      (peek tokens).kind = .leftParen →
      Calls call .operand tokens .group tokens
  | inside {tokens : List Token} :
      (peek tokens).kind = .leftParen →
      Calls call .group tokens .expression (advance tokens)
  | behindSign {tokens : List Token} :
      Calls call .signed tokens .operand (advance tokens)

section Step

variable {call call' : Task → List Token → Reply} {task : Task}
  {tokens : List Token}

/-- A step depends on the calls that it makes, and on nothing else. -/
theorem step_congr
    (agree : ∀ later rest, Calls call task tokens later rest →
      call later rest = call' later rest) :
    step call task tokens = step call' task tokens := by
  cases task with
  | expression =>
      simp only [step]
      split
      · next starts => rw [agree _ _ (.assigned starts)]
      · next other => exact agree _ _ (.operators other)
  | climb least =>
      simp only [step]
      rw [← agree _ _ .left]
      cases result : call .operand tokens with
      | read left rest => exact agree _ _ (.loop result)
      | refused mismatch rest => rfl
      | exhausted => rfl
  | extend least left =>
      simp only [step]
      split
      · rfl
      · next precedence associativity bound =>
          split
          · rfl
          · next strong =>
              rw [← agree _ _ (.right bound strong)]
              cases result : call
                  (.climb (rightStrength precedence associativity))
                  (advance tokens) with
              | read right rest => exact agree _ _ (.turn bound strong result)
              | refused mismatch rest => rfl
              | exhausted => rfl
  | operand =>
      simp only [step]
      split
      · rfl
      · split
        · next isNot => exact agree _ _ (.sign isNot (.inl rfl))
        · next isMinus => exact agree _ _ (.sign isMinus (.inr rfl))
        · next isParen => exact agree _ _ (.parenthesis isParen)
        · rfl
  | group =>
      by_cases isParen : (peek tokens).kind = .leftParen
      · simp only [step, expect, if_pos isParen]
        rw [agree _ _ (.inside isParen)]
      · simp only [step, expect, if_neg isParen]
  | signed =>
      simp only [step]
      rw [agree _ _ .behindSign]

theorem exists_call_of_exhausted (result : step call task tokens = .exhausted) :
    ∃ later rest, Calls call task tokens later rest ∧
      call later rest = .exhausted := by
  cases task with
  | expression =>
      simp only [step] at result
      split at result
      · next starts =>
          rcases Reply.andThen_eq_exhausted_iff.mp result with
            out | ⟨_, _, _, absurd⟩
          · exact ⟨_, _, .assigned starts, out⟩
          · cases absurd
      · next other => exact ⟨_, _, .operators other, result⟩
  | climb least =>
      rcases Reply.andThen_eq_exhausted_iff.mp result with
        out | ⟨left, rest, read, out⟩
      · exact ⟨_, _, .left, out⟩
      · exact ⟨_, _, .loop read, out⟩
  | extend least left =>
      simp only [step] at result
      split at result
      · cases result
      · next precedence associativity bound =>
          split at result
          · cases result
          · next strong =>
              rcases Reply.andThen_eq_exhausted_iff.mp result with
                out | ⟨right, rest, read, out⟩
              · exact ⟨_, _, .right bound strong, out⟩
              · exact ⟨_, _, .turn bound strong read, out⟩
  | operand =>
      simp only [step] at result
      split at result
      · cases result
      · split at result
        · next isNot => exact ⟨_, _, .sign isNot (.inl rfl), result⟩
        · next isMinus => exact ⟨_, _, .sign isMinus (.inr rfl), result⟩
        · next isParen => exact ⟨_, _, .parenthesis isParen, result⟩
        · cases result
  | group =>
      rw [step] at result
      obtain ⟨isParen, inner⟩ := expect_eq_exhausted_iff.mp result
      rcases Reply.andThen_eq_exhausted_iff.mp inner with
        out | ⟨_, _, _, absurd⟩
      · exact ⟨_, _, .inside isParen, out⟩
      · cases (expect_eq_exhausted_iff.mp absurd).2
  | signed =>
      rcases Reply.andThen_eq_exhausted_iff.mp result with
        out | ⟨_, _, _, absurd⟩
      · exact ⟨_, _, .behindSign, out⟩
      · cases absurd

/-- Every call is made, so none of them may use up the budget. -/
theorem exhausted_of_call {later : Task} {rest : List Token}
    (calls : Calls call task tokens later rest)
    (out : call later rest = .exhausted) :
    step call task tokens = .exhausted := by
  cases calls with
  | assigned starts => simp [step, starts, out, Reply.andThen]
  | operators other => simp [step, other, out]
  | left => simp [step, out, Reply.andThen]
  | loop read => simp [step, read, out, Reply.andThen]
  | right bound strong => simp [step, bound, strong, out, Reply.andThen]
  | turn bound strong read =>
      simp [step, bound, strong, read, out, Reply.andThen]
  | sign isSign either =>
      rcases either with rfl | rfl
      · simp [step, constant?, isSign, out]
      · simp [step, constant?, isSign, out]
  | parenthesis isParen => simp [step, constant?, isParen, out]
  | inside isParen => simp [step, expect, isParen, out, Reply.andThen]
  | behindSign => simp [step, out, Reply.andThen]

/-- A budget is used up exactly if it is used up in one of the calls. -/
theorem step_eq_exhausted_iff :
    step call task tokens = .exhausted ↔
      ∃ later rest, Calls call task tokens later rest ∧
        call later rest = .exhausted := by
  constructor
  · exact exists_call_of_exhausted
  · intro ⟨later, rest, calls, out⟩
    exact exhausted_of_call calls out

end Step

/-- A larger budget does not change a reply that came. -/
theorem reply_add {budget : Nat} {task : Task} {tokens : List Token}
    (came : task.reply budget tokens ≠ .exhausted) (more : Nat) :
    task.reply (budget + more) tokens = task.reply budget tokens := by
  induction budget generalizing task tokens with
  | zero =>
      have none : task.reply 0 tokens = .exhausted := by cases task <;> rfl
      exact absurd none came
  | succ budget induction =>
      rw [reply_succ] at came
      rw [Nat.succ_add, reply_succ, reply_succ]
      refine (step_congr ?_).symm
      intro later rest calls
      refine (induction ?_).symm
      intro out
      exact came (exhausted_of_call calls out)

theorem passes_of_read {budget : Nat} {task : Task} {tokens rest : List Token}
    {tree : Expr} (read : task.reply budget tokens = .read tree rest) :
    Passes task.gain tokens rest := by
  have came : task.reply budget tokens ≠ .exhausted := by
    rw [read]
    exact Reply.noConfusion
  have larger := reply_add came (budgetFor tokens)
  rw [reply_eq_answer (Nat.le_add_left _ _), read] at larger
  have proceeds := climbing.answer_proceeds task tokens
  rw [larger] at proceeds
  exact proceeds

/-- The rank of a function among those that stay at one place. -/
def rank : Task → Nat
  | .expression => 3
  | .climb _ => 2
  | .operand => 1
  | .extend _ _ => 0
  | .group => 0
  | .signed => 0

theorem rank_le (task : Task) : task.rank ≤ 3 := by
  cases task <;> simp [rank]

/-- How a call comes closer to the end of the recursion. -/
inductive Descent : Task → List Token → Task → List Token → Prop where
  | consumed {task later : Task} {tokens rest : List Token} :
      pending rest < pending tokens → Descent task tokens later rest
  | lowered {task later : Task} {tokens : List Token} :
      later.rank < task.rank → Descent task tokens later tokens
  | signedEnd {tokens : List Token} :
      (peek tokens).kind = .endOfInput →
      Descent .signed tokens .operand tokens

theorem Calls.descent {budget : Nat} {task later : Task}
    {tokens rest : List Token}
    (calls : Calls (reply budget) task tokens later rest) :
    Descent task tokens later rest := by
  cases calls with
  | assigned starts =>
      have fewer := (passes_assignment starts).pending_le
      exact .consumed (by omega)
  | operators _ => exact .lowered (Nat.lt_succ_self 2)
  | left => exact .lowered (Nat.lt_succ_self 1)
  | loop read => exact .consumed (passes_of_read read).pending_le
  | right bound _ =>
      exact .consumed (pending_advance (not_end_of_binding? bound))
  | turn bound _ read =>
      have fewer := pending_advance (not_end_of_binding? bound)
      have evenFewer := (passes_of_read read).pending_le
      exact .consumed (by omega)
  | sign _ _ => exact .lowered Nat.one_pos
  | parenthesis _ => exact .lowered Nat.one_pos
  | inside isParen =>
      exact .consumed (pending_advance (by simp [isParen]))
  | behindSign =>
      by_cases isEnd : (peek tokens).kind = .endOfInput
      · rw [advance_of_end isEnd]
        exact .signedEnd isEnd
      · exact .consumed (pending_advance isEnd)

/-- One turn of the loop over the operators consumes an operator and its right
operand. -/
theorem Calls.pending_of_turn {budget least least' : Nat} {left left' : Expr}
    {tokens rest : List Token}
    (calls : Calls (reply budget) (.extend least left) tokens
      (.extend least' left') rest) :
    pending rest + 2 ≤ pending tokens := by
  cases calls with
  | turn bound _ read =>
      have fewer := pending_advance (not_end_of_binding? bound)
      have evenFewer : pending rest + 1 ≤ pending (advance tokens) :=
        (passes_of_read read).pending_le
      omega

/-- At the end of input an operand is refused without any call. -/
theorem operand_at_end {tokens : List Token}
    (isEnd : (peek tokens).kind = .endOfInput) (budget : Nat) :
    Reading.operand (budget + 1) tokens = refuse .expression tokens ∧
      ∀ later rest, ¬ Calls (reply budget) .operand tokens later rest := by
  constructor
  · simp [Reading.operand, constant?, isEnd]
  · intro later rest calls
    cases calls <;> simp_all

/-- A later task at a later place is called by a task at its place, within some
budget. -/
def CalledBy (later task : Task × List Token) : Prop :=
  ∃ budget, Calls (reply budget) task.1 task.2 later.1 later.2

/-- No task has an infinite chain of calls.  The tokens before the end decide
first, and then the rank. -/
theorem wellFounded_calledBy : WellFounded CalledBy := by
  constructor
  intro ⟨task, tokens⟩
  generalize bound : 4 * pending tokens + task.rank = height
  induction height using Nat.strongRecOn generalizing task tokens with
  | ind height induction =>
      constructor
      intro ⟨later, rest⟩ ⟨budget, calls⟩
      have descent : Descent task tokens later rest := calls.descent
      have low := later.rank_le
      cases descent with
      | consumed fewer => exact induction _ (by omega) later rest rfl
      | lowered lower => exact induction _ (by omega) later tokens rfl
      | signedEnd isEnd =>
          -- This call does not lower the height, but it makes no other call.
          constructor
          intro ⟨last, behind⟩ ⟨within, further⟩
          exact absurd further ((operand_at_end isEnd within).2 last behind)

theorem cost_lt (task : Task) (tokens : List Token) :
    task.cost tokens < 4 * pending tokens + 4 := by
  cases task <;> simp only [cost] <;> try omega
  split <;> omega

end Task

theorem pending_drop {tokens : List Token} {position : Nat}
    (before : position ≤ pending tokens) :
    pending (tokens.drop position) = pending tokens - position := by
  induction tokens generalizing position with
  | nil => simp [pending]
  | cons token rest induction =>
      cases position with
      | zero => rfl
      | succ position =>
          by_cases isEnd : token.kind = .endOfInput
          · simp [pending, isEnd] at before
          · simp only [pending, if_neg isEnd] at before ⊢
            rw [List.drop_succ_cons, induction (by omega)]
            omega

end Reading

namespace Reader

open Reading

theorem reply_add {budget : Nat} {tokens : List Token} {entry : Entry}
    (came : reply budget tokens entry ≠ .exhausted) (more : Nat) :
    reply (budget + more) tokens entry = reply budget tokens entry := by
  rcases eq_whole_or_task entry with rfl | ⟨task, _, serves⟩
  · have inner : Task.reply budget .expression tokens ≠ .exhausted := by
      intro out
      exact came (Reply.andThen_eq_exhausted_iff.mpr (.inl out))
    have same : Reading.expression (budget + more) tokens =
        Reading.expression budget tokens := Task.reply_add inner more
    rw [reply, reply, whole, whole, same]
  · rw [serves] at came
    rw [serves, serves]
    exact Task.reply_add came more

/-- Any two budgets within which a reply comes lead to the same one. -/
theorem reply_agrees {budget budget' : Nat} {tokens : List Token}
    {entry : Entry} (came : reply budget tokens entry ≠ .exhausted)
    (came' : reply budget' tokens entry ≠ .exhausted) :
    reply budget tokens entry = reply budget' tokens entry := by
  rcases Nat.le_total budget budget' with less | less
  · obtain ⟨more, rfl⟩ := Nat.exists_eq_add_of_le less
    exact (reply_add came more).symm
  · obtain ⟨more, rfl⟩ := Nat.exists_eq_add_of_le less
    exact reply_add came' more

/-- Four calls for each token before the end, and four more, are enough. -/
theorem reply_ne_exhausted {budget : Nat} {tokens : List Token}
    (enough : 4 * pending tokens + 4 ≤ budget) (entry : Entry) :
    reply budget tokens entry ≠ .exhausted := by
  have came (task : Task) : task.reply budget tokens ≠ .exhausted := by
    have cheap : climbing.cost task tokens < budget :=
      Nat.lt_of_lt_of_le (task.cost_lt tokens) enough
    rw [reply_eq_climbing_reply, climbing.reply_eq_answer cheap]
    exact (climbing.answer_proceeds task tokens).ne_exhausted
  rcases eq_whole_or_task entry with rfl | ⟨task, _, serves⟩
  · intro out
    rcases Reply.andThen_eq_exhausted_iff.mp out with
      inner | ⟨tree, rest, _, ended⟩
    · exact came .expression inner
    · split at ended <;> cases ended
  · rw [serves]
    exact came task

/-- The readings terminate.  Every call consumes a token or lowers the rank, but
for the one of a signed operand at the end, behind which no call is made.  No
chain of calls is infinite, and each turn of the loop over the operators leaves
fewer tokens.  A budget is used up exactly when a call uses it up.  So a budget
of four for each token between the position of a reader and the first end, and
four more, is enough, and no larger budget changes a reply. -/
theorem recursion_terminates :
    (∀ budget task tokens later rest,
      Task.Calls (Task.reply budget) task tokens later rest →
        Task.Descent task tokens later rest) ∧
      (∀ budget tokens, (peek tokens).kind = .endOfInput →
        Reading.operand (budget + 1) tokens = refuse .expression tokens ∧
          ∀ later rest,
            ¬ Task.Calls (Task.reply budget) .operand tokens later rest) ∧
      WellFounded Task.CalledBy ∧
      (∀ budget least left tokens least' left' rest,
        Task.Calls (Task.reply budget) (.extend least left) tokens
          (.extend least' left') rest →
        pending rest + 2 ≤ pending tokens) ∧
      (∀ budget (task : Task) tokens,
        task.reply (budget + 1) tokens = .exhausted ↔
          ∃ later rest,
            Task.Calls (Task.reply budget) task tokens later rest ∧
              later.reply budget rest = .exhausted) ∧
      (∀ tokens position, position ≤ pending (close tokens) →
        let reader : Reader := { tokens := close tokens, position := position }
        ∀ entry budget,
          4 * (pending (close tokens) - position) + 4 ≤ budget →
          reply budget reader.rest entry ≠ .exhausted ∧
            reply budget reader.rest entry =
              reply (budgetFor reader.rest) reader.rest entry) ∧
      ∀ tokens entry budget more, reply budget tokens entry ≠ .exhausted →
        reply (budget + more) tokens entry = reply budget tokens entry := by
  refine ⟨?_, ?_, Task.wellFounded_calledBy, ?_, ?_, ?_, ?_⟩
  · intro _ _ _ _ _ calls
    exact calls.descent
  · intro budget tokens isEnd
    exact Task.operand_at_end isEnd budget
  · intro _ _ _ _ _ _ _ calls
    exact calls.pending_of_turn
  · intro budget task tokens
    rw [Task.reply_succ]
    exact Task.step_eq_exhausted_iff
  · intro tokens position before reader entry budget enough
    have left : pending reader.rest = pending (close tokens) - position :=
      pending_drop before
    have granted : reply (budgetFor reader.rest) reader.rest entry ≠
        .exhausted :=
      (reply_proceeds reader.rest entry).ne_exhausted
    rw [← left] at enough
    have came := reply_ne_exhausted enough entry
    exact ⟨came, reply_agrees came granted⟩
  · intro tokens entry budget more came
    exact reply_add came more

/-- An operator and an operand behind it. -/
def linkTokens : List Token :=
  [{ kind := .operator .minus, lexeme := "-", literal := none, line := 1 },
    { kind := .keyword .nilWord, lexeme := "nil", literal := none, line := 1 }]

/-- A turn of the loop goes from the operator to the end.  There a signed
operand makes its one call, and four calls are enough. -/
theorem recursion_terminates_linkTokens :
    let tokens := close linkTokens
    let ended := tokens.drop 2
    let nilTree : Expr := .literal .nil
    let longer : Expr := .binary nilTree (peek tokens) nilTree
    (Task.Calls (Task.reply 5) (.extend 1 nilTree) tokens (.extend 1 longer)
          ended ∧
        pending ended + 2 ≤ pending tokens) ∧
      (Task.Calls (Task.reply 5) .signed ended .operand ended ∧
        Task.Descent .signed ended .operand ended) ∧
      2 ≤ pending tokens ∧
      reply 4 ended .signed ≠ .exhausted ∧
      reply 400 ended .signed = reply 4 ended .signed := by
  obtain ⟨descends, _, _, turns, _, enough, larger⟩ := recursion_terminates
  have turn : Task.Calls (Task.reply 5) (.extend 1 (.literal .nil))
      (close linkTokens)
      (.extend 1 (.binary (.literal .nil) (peek (close linkTokens))
        (.literal .nil)))
      ((close linkTokens).drop 2) :=
    .turn rfl (by decide) rfl
  have sign : Task.Calls (Task.reply 5) .signed ((close linkTokens).drop 2)
      .operand ((close linkTokens).drop 2) :=
    .behindSign
  have before : 2 ≤ pending (close linkTokens) := by decide
  obtain ⟨came, _⟩ := enough linkTokens 2 before .signed 4 (by decide)
  exact ⟨⟨turn, turns _ _ _ _ _ _ _ turn⟩, ⟨sign, descends _ _ _ _ _ sign⟩,
    before, came, larger _ _ _ 396 came⟩

end Reader

end LoxExpr
