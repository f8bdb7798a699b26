import LoxExpr.Expr.Basic
import LoxExpr.Fault

/-!
# Reading expressions

An expression is read from the front of a token list.  Operators between
operands are collected by their binding strength: `climb` reads an operand and
extends it to the right as long as an operator binds at least as strongly as
required, and an operator's right operand is read with a stronger
requirement.

No step goes past the token for the end of input, and an empty list counts as
one that holds only this token.  The functions call each other, so each takes
a budget that every call lowers by one; a reply says whether the budget
sufficed.  `budgetFor` is linear in the number of tokens.
-/

namespace LoxExpr

/-- What the grammar asks for at the place where reading stops. -/
inductive Expectation where
  | expression
  | leftParen
  | rightParen
  | endOfInput
deriving DecidableEq, Repr

def Expectation.detail : Expectation → String
  | .expression => "Expected expression."
  | .leftParen => "Expected '(' before expression."
  | .rightParen => "Expected ')' after expression."
  | .endOfInput => "Expected end of input."

/-- A token list does not go on as the grammar asks. -/
structure Mismatch where
  expected : Expectation
  found : Token

def Mismatch.fault (mismatch : Mismatch) : Fault :=
  mismatch.found.grammaticalFault mismatch.expected.detail

namespace Reading

/-- The current token. -/
def peek (tokens : List Token) : Token :=
  tokens.headD (Token.endOfInput 1)

/-- The tokens behind the current one, which stays if it is the end. -/
def advance (tokens : List Token) : List Token :=
  if (peek tokens).kind = .endOfInput then tokens else tokens.tail

theorem length_advance_le (tokens : List Token) :
    (advance tokens).length ≤ tokens.length := by
  unfold advance
  split
  · exact Nat.le_refl _
  · simp

/-- Behind a token that is not the end there is one token less. -/
theorem length_advance_lt {tokens : List Token}
    (different : (peek tokens).kind ≠ .endOfInput) :
    (advance tokens).length < tokens.length := by
  cases tokens with
  | nil => exact absurd rfl different
  | cons head tail => simp [advance, different]

def isAtEnd (tokens : List Token) : Bool :=
  (peek tokens).kind = .endOfInput

/-- An assignment begins with a name and an equal sign. -/
def startsAssignment : List Token → Bool
  | name :: sign :: _ => name.kind = .identifier && sign.kind = .equalSign
  | _ => false

/-- The binding of the current token, if it may stand between operands. -/
def binding? (tokens : List Token) : Option (Nat × Associativity) :=
  (peek tokens).operator?.bind Operator.binding?

/-- The strength that the right operand of an operator asks for.  An operator
of the same level must not join it when the level is grouped on the left. -/
def rightStrength (precedence : Nat) : Associativity → Nat
  | .left => precedence + 1

inductive Reply where
  | read (tree : Expr) (rest : List Token)
  | refused (mismatch : Mismatch) (rest : List Token)
  | exhausted

namespace Reply

/-- Goes on with the tree and the rest of a reading that succeeded. -/
def andThen (reply : Reply) (next : Expr → List Token → Reply) : Reply :=
  match reply with
  | .read tree rest => next tree rest
  | .refused mismatch rest => .refused mismatch rest
  | .exhausted => .exhausted

end Reply

def refuse (expected : Expectation) (tokens : List Token) : Reply :=
  .refused { expected := expected, found := peek tokens } tokens

/-- Goes on behind the current token if it has the expected kind. -/
def expect (kind : Token.Kind) (expected : Expectation) (tokens : List Token)
    (next : List Token → Reply) : Reply :=
  if (peek tokens).kind = kind then next (advance tokens)
  else refuse expected tokens

/-- The value of an operand that is a single token.  A number or string
without a literal counts as nil. -/
def constant? (token : Token) : Option Value :=
  match token.kind with
  | .keyword .trueWord => some (.boolean true)
  | .keyword .falseWord => some (.boolean false)
  | .keyword .nilWord => some .nil
  | .number => some (token.literal.getD .nil)
  | .string => some (token.literal.getD .nil)
  | _ => none

mutual

/-- An assignment, or operands with operators of any strength. -/
def expression : Nat → List Token → Reply
  | 0, _ => .exhausted
  | budget + 1, tokens =>
      if startsAssignment tokens then
        (expression budget (advance (advance tokens))).andThen
          fun assigned rest => .read (.assign (peek tokens) assigned) rest
      else climb budget 1 tokens

/-- An operand, extended by the operators that bind at least this strongly. -/
def climb : Nat → Nat → List Token → Reply
  | 0, _, _ => .exhausted
  | budget + 1, least, tokens =>
      (operand budget tokens).andThen
        fun left rest => extend budget least left rest

/-- The tree `left`, extended to the right. -/
def extend : Nat → Nat → Expr → List Token → Reply
  | 0, _, _, _ => .exhausted
  | budget + 1, least, left, tokens =>
      match binding? tokens with
      | none => .read left tokens
      | some (precedence, associativity) =>
          if precedence < least then .read left tokens
          else
            (climb budget (rightStrength precedence associativity)
              (advance tokens)).andThen
              fun right rest =>
                extend budget least (.binary left (peek tokens) right) rest

/-- A constant, a group, or an operand behind a unary operator. -/
def operand : Nat → List Token → Reply
  | 0, _ => .exhausted
  | budget + 1, tokens =>
      match constant? (peek tokens) with
      | some value => .read (.literal value) (advance tokens)
      | none =>
          match (peek tokens).kind with
          | .operator .not => signed budget tokens
          | .operator .minus => signed budget tokens
          | .leftParen => group budget tokens
          | _ => refuse .expression tokens

/-- An expression between parentheses. -/
def group : Nat → List Token → Reply
  | 0, _ => .exhausted
  | budget + 1, tokens =>
      expect .leftParen .leftParen tokens fun inside =>
        (expression budget inside).andThen fun inner behind =>
          expect .rightParen .rightParen behind fun rest =>
            .read (.group inner) rest

/-- An operand behind the current token, which is taken as its operator
whatever it is. -/
def signed : Nat → List Token → Reply
  | 0, _ => .exhausted
  | budget + 1, tokens =>
      (operand budget (advance tokens)).andThen
        fun inner rest => .read (.unary (peek tokens) inner) rest

end

/-- An expression behind which the input ends. -/
def whole (budget : Nat) (tokens : List Token) : Reply :=
  (expression budget tokens).andThen fun tree rest =>
    if isAtEnd rest then .read tree rest else refuse .endOfInput rest

/-- Enough for every way of reading these tokens: between two tokens that are
consumed at most four calls are made. -/
def budgetFor (tokens : List Token) : Nat :=
  4 * tokens.length + 4

end Reading

end LoxExpr
