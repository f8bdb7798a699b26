import LoxExpr.Proofs.Reading.Answer

/-!
# Strict readings

A strict reading fails when it looks at a token behind the last one; a reading
counts such a place as the end of input.  In a token list that holds the end of
input the two are the same: no step goes past the end, so every token that is
looked at is there.
-/

namespace LoxExpr

namespace Reading

namespace Strict

/-- The current token, and the tokens behind it. -/
def take : List Token → Option (Token × List Token)
  | [] => none
  | token :: rest =>
      some (token,
        if token.kind = .endOfInput then token :: rest else rest)

def refuse (expected : Expectation) (tokens : List Token) : Option Reply := do
  let token ← tokens.head?
  return .refused { expected := expected, found := token } tokens

def expect (kind : Token.Kind) (expected : Expectation) (tokens : List Token)
    (next : List Token → Option Reply) : Option Reply := do
  let token ← tokens.head?
  if token.kind = kind then
    let (_, rest) ← take tokens
    next rest
  else refuse expected tokens

/-- Goes on with the tree and the rest of a reading that succeeded. -/
def andThen (reply : Option Reply)
    (next : Expr → List Token → Option Reply) : Option Reply := do
  match ← reply with
  | .read tree rest => next tree rest
  | .refused mismatch rest => return .refused mismatch rest
  | .exhausted => return .exhausted

def step (call : Task → List Token → Option Reply) :
    Task → List Token → Option Reply
  | .expression, tokens => do
      let token ← tokens.head?
      if token.kind = .identifier ∧
          tokens.tail.head?.map Token.kind = some .equalSign then
        let (name, behind) ← take tokens
        let (_, rest) ← take behind
        andThen (call .expression rest) fun assigned rest =>
          return .read (.assign name assigned) rest
      else call (.climb 1) tokens
  | .climb least, tokens =>
      andThen (call .operand tokens) fun left rest =>
        call (.extend least left) rest
  | .extend least left, tokens => do
      let token ← tokens.head?
      match token.operator?.bind Operator.binding? with
      | none => return .read left tokens
      | some (precedence, associativity) =>
          if precedence < least then return .read left tokens
          else
            let (operator, behind) ← take tokens
            andThen
              (call (.climb (rightStrength precedence associativity)) behind)
              fun right rest =>
                call (.extend least (.binary left operator right)) rest
  | .operand, tokens => do
      let token ← tokens.head?
      match constant? token with
      | some value =>
          let (_, rest) ← take tokens
          return .read (.literal value) rest
      | none =>
          match token.kind with
          | .operator .not => call .signed tokens
          | .operator .minus => call .signed tokens
          | .leftParen => call .group tokens
          | _ => refuse .expression tokens
  | .group, tokens =>
      expect .leftParen .leftParen tokens fun inside =>
        andThen (call .expression inside) fun inner behind =>
          expect .rightParen .rightParen behind fun rest =>
            return .read (.group inner) rest
  | .signed, tokens => do
      let (operator, behind) ← take tokens
      andThen (call .operand behind) fun inner rest =>
        return .read (.unary operator inner) rest

/-- The strict reply to a task within a budget. -/
def reply : Nat → Task → List Token → Option Reply
  | 0, _, _ => some .exhausted
  | budget + 1, task, tokens => step (reply budget) task tokens

def whole (budget : Nat) (tokens : List Token) : Option Reply :=
  andThen (reply budget .expression tokens) fun tree rest => do
    let token ← rest.head?
    if token.kind = .endOfInput then return .read tree rest
    else refuse .endOfInput rest

/-- The strict reading of a whole token list.  It fails when it looks at a
place without a token, and also when its budget is used up. -/
def ofTokens (tokens : List Token) : Option (Except Mismatch Expr) :=
  let closed := Reader.close tokens
  match whole (budgetFor closed) closed with
  | some (.read tree _) => some (.ok tree)
  | some (.refused mismatch _) => some (.error mismatch)
  | some .exhausted => none
  | none => none

end Strict

/-- The token list goes on up to a token that ends the input. -/
def HasEnd (tokens : List Token) : Prop :=
  ∃ token ∈ tokens, token.kind = .endOfInput

namespace HasEnd

variable {tokens : List Token}

theorem head? (hasEnd : HasEnd tokens) :
    tokens.head? = some (peek tokens) := by
  cases tokens with
  | nil => simp [HasEnd] at hasEnd
  | cons token rest => rfl

theorem take (hasEnd : HasEnd tokens) :
    Strict.take tokens = some (peek tokens, Reading.advance tokens) := by
  cases tokens with
  | nil => simp [HasEnd] at hasEnd
  | cons token rest => simp [Strict.take, Reading.advance, peek]

theorem advance (hasEnd : HasEnd tokens) : HasEnd (advance tokens) := by
  by_cases isEnd : (peek tokens).kind = .endOfInput
  · rw [advance_of_end isEnd]
    exact hasEnd
  · obtain ⟨last, member, lastIsEnd⟩ := hasEnd
    rw [← cons_advance isEnd] at member
    cases member with
    | head => exact absurd lastIsEnd isEnd
    | tail _ behind => exact ⟨last, behind, lastIsEnd⟩

end HasEnd

/-- A strict reply that came is the reply, and it leaves the end in place. -/
def Found (strict : Option Reply) (reply : Reply) : Prop :=
  strict = some reply ∧ ∀ tree rest, reply = .read tree rest → HasEnd rest

namespace Found

variable {tokens : List Token}

theorem read (tree : Expr) (hasEnd : HasEnd tokens) :
    Found (some (.read tree tokens)) (.read tree tokens) := by
  refine ⟨rfl, ?_⟩
  intro _ rest same
  cases same
  exact hasEnd

theorem refuse (expected : Expectation) (hasEnd : HasEnd tokens) :
    Found (Strict.refuse expected tokens) (refuse expected tokens) := by
  constructor
  · simp [Strict.refuse, hasEnd.head?, Reading.refuse]
  · intro tree rest same
    cases same

theorem expect {kind : Token.Kind} {expected : Expectation}
    {strict : List Token → Option Reply} {next : List Token → Reply}
    (hasEnd : HasEnd tokens)
    (continues : Found (strict (advance tokens)) (next (advance tokens))) :
    Found (Strict.expect kind expected tokens strict)
      (expect kind expected tokens next) := by
  simp only [Strict.expect, hasEnd.head?, hasEnd.take, Reading.expect,
    Option.bind_eq_bind, Option.bind_some]
  split
  · exact continues
  · exact refuse expected hasEnd

theorem andThen {strict : Option Reply} {reply : Reply}
    {strictNext : Expr → List Token → Option Reply}
    {next : Expr → List Token → Reply} (found : Found strict reply)
    (continues : ∀ tree rest, HasEnd rest →
      Found (strictNext tree rest) (next tree rest)) :
    Found (Strict.andThen strict strictNext) (reply.andThen next) := by
  obtain ⟨rfl, keeps⟩ := found
  cases reply with
  | read tree rest => exact continues tree rest (keeps tree rest rfl)
  | refused mismatch rest => exact ⟨rfl, by simp [Reply.andThen]⟩
  | exhausted => exact ⟨rfl, by simp [Reply.andThen]⟩

end Found

namespace Strict

variable {strictCall : Task → List Token → Option Reply}
  {call : Task → List Token → Reply} {tokens : List Token}

/-- One step of a strict reading looks only at tokens that are there. -/
theorem step_found
    (found : ∀ later rest, HasEnd rest →
      Found (strictCall later rest) (call later rest))
    (task : Task) (hasEnd : HasEnd tokens) :
    Found (step strictCall task tokens) (task.step call tokens) := by
  cases task with
  | expression =>
      have sameStart : ((peek tokens).kind = .identifier ∧
          tokens.tail.head?.map Token.kind = some .equalSign) ↔
          startsAssignment tokens = true := by
        rcases tokens with _ | ⟨name, _ | ⟨sign, rest⟩⟩ <;>
          simp [startsAssignment, peek, Token.endOfInput]
      simp only [step, Task.step, hasEnd.head?, hasEnd.take,
        hasEnd.advance.take, Option.bind_eq_bind, Option.bind_some, sameStart]
      split
      · apply (found .expression _ hasEnd.advance.advance).andThen
        intro assigned rest restHasEnd
        exact .read _ restHasEnd
      · exact found (.climb 1) tokens hasEnd
  | climb least =>
      apply (found .operand tokens hasEnd).andThen
      intro left rest restHasEnd
      exact found (.extend least left) rest restHasEnd
  | extend least left =>
      simp only [step, Task.step, hasEnd.head?, hasEnd.take,
        Option.bind_eq_bind, Option.bind_some, binding?]
      rcases (peek tokens).operator?.bind Operator.binding? with
        _ | ⟨precedence, associativity⟩
      · exact .read left hasEnd
      · by_cases loose : precedence < least
        · simp only [loose, if_true]
          exact .read left hasEnd
        · simp only [loose, if_false]
          apply (found (.climb (rightStrength precedence associativity))
            _ hasEnd.advance).andThen
          intro right rest restHasEnd
          exact found _ rest restHasEnd
  | operand =>
      simp only [step, Task.step, hasEnd.head?, hasEnd.take,
        Option.bind_eq_bind, Option.bind_some]
      cases constant? (peek tokens) with
      | some value => exact .read _ hasEnd.advance
      | none =>
          cases (peek tokens).kind with
          | operator symbol =>
              cases symbol with
              | not => exact found .signed tokens hasEnd
              | minus => exact found .signed tokens hasEnd
              | _ => exact .refuse .expression hasEnd
          | leftParen => exact found .group tokens hasEnd
          | _ => exact .refuse .expression hasEnd
  | group =>
      simp only [step, Task.step]
      apply Found.expect hasEnd
      apply (found .expression _ hasEnd.advance).andThen
      intro inner behind behindHasEnd
      apply Found.expect behindHasEnd
      exact .read _ behindHasEnd.advance
  | signed =>
      simp only [step, Task.step, hasEnd.take, Option.bind_eq_bind,
        Option.bind_some]
      apply (found .operand _ hasEnd.advance).andThen
      intro inner rest restHasEnd
      exact .read _ restHasEnd

theorem reply_found (budget : Nat) (task : Task) (hasEnd : HasEnd tokens) :
    Found (reply budget task tokens) (task.reply budget tokens) := by
  induction budget generalizing task tokens with
  | zero =>
      have exhausted : task.reply 0 tokens = .exhausted := by
        cases task <;> rfl
      rw [exhausted]
      exact ⟨rfl, by simp⟩
  | succ budget induction =>
      rw [Task.reply_succ]
      apply step_found
      · intro later rest restHasEnd
        exact induction later restHasEnd
      · exact hasEnd

theorem whole_eq_some (budget : Nat) (hasEnd : HasEnd tokens) :
    whole budget tokens = some (Reading.whole budget tokens) := by
  refine (Found.andThen (reply_found budget .expression hasEnd) ?_).1
  intro tree rest restHasEnd
  simp only [restHasEnd.head?, Option.bind_eq_bind, Option.bind_some, isAtEnd,
    decide_eq_true_eq]
  split
  · exact .read tree restHasEnd
  · exact .refuse .endOfInput restHasEnd

theorem hasEnd_close (tokens : List Token) :
    HasEnd (Reader.close tokens) := by
  obtain ⟨last, isLast, isEnd⟩ := Reader.getLast?_close tokens
  exact ⟨last, List.mem_of_getLast? isLast, isEnd⟩

/-- Every token that the reading of a token list looks at is there. -/
theorem ofTokens_eq_some (tokens : List Token) :
    ofTokens tokens = some (Expr.ofTokens tokens) := by
  have enough := whole_ne_exhausted (Reader.close tokens)
  simp only [ofTokens, whole_eq_some _ (hasEnd_close tokens), Expr.ofTokens,
    Reader.read, Reader.ofTokens, Reader.rest, List.drop_zero, Reader.reply]
  cases result : Reading.whole (budgetFor (Reader.close tokens))
      (Reader.close tokens) with
  | read tree rest => rfl
  | refused mismatch rest => rfl
  | exhausted => exact absurd result enough

end Strict

end Reading

end LoxExpr
