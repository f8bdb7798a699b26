import LoxExpr.Expr.Reading

/-!
# Readers

A reader holds a token list, closed by the token for the end of input, and a
position in it.  It can be asked for an expression in several ways; the
position moves with every answer, also with a refusal.
-/

namespace LoxExpr

/-- What a reader is asked for. -/
inductive Reader.Entry where
  | whole
  | expression
  | operand
  | group
  | signed
  | climb (least : Nat)
deriving DecidableEq, Repr

structure Reader where
  tokens : List Token
  position : Nat

namespace Reader

/-- The token list with an end.  A list without one ends on the line of its
last token. -/
def close (tokens : List Token) : List Token :=
  match tokens.getLast? with
  | none => [Token.endOfInput 1]
  | some last =>
      if last.kind = .endOfInput then tokens
      else tokens ++ [Token.endOfInput last.line]

/-- A closed token list ends with a token for the end of input. -/
theorem getLast?_close (tokens : List Token) :
    ∃ last, (close tokens).getLast? = some last ∧
      last.kind = .endOfInput := by
  unfold close
  split
  · exact ⟨_, rfl, rfl⟩
  · next last found =>
      split
      · next isEnd => exact ⟨last, found, isEnd⟩
      · exact ⟨_, List.getLast?_concat, rfl⟩

def ofTokens (tokens : List Token) : Reader :=
  { tokens := close tokens, position := 0 }

/-- The tokens from the position on. -/
def rest (reader : Reader) : List Token :=
  reader.tokens.drop reader.position

/-- The reader at the place where `rest` is left of its tokens. -/
def moveTo (reader : Reader) (rest : List Token) : Reader :=
  { reader with position := reader.tokens.length - rest.length }

def reply (budget : Nat) (tokens : List Token) : Entry → Reading.Reply
  | .whole => Reading.whole budget tokens
  | .expression => Reading.expression budget tokens
  | .operand => Reading.operand budget tokens
  | .group => Reading.group budget tokens
  | .signed => Reading.signed budget tokens
  | .climb least => Reading.climb budget least tokens

/-- The answer to one request.  The budget suffices, so the last case does not
arise. -/
def read (reader : Reader) (entry : Entry) :
    Except Mismatch Expr × Reader :=
  match reply (Reading.budgetFor reader.rest) reader.rest entry with
  | .read tree rest => (.ok tree, reader.moveTo rest)
  | .refused mismatch rest => (.error mismatch, reader.moveTo rest)
  | .exhausted =>
      (.error { expected := .expression, found := Reading.peek reader.rest },
        reader)

/-- The answers to consecutive requests, and the reader behind them. -/
def readEach (reader : Reader) :
    List Entry → List (Except Mismatch Expr) × Reader
  | [] => ([], reader)
  | entry :: later =>
      let (answer, moved) := reader.read entry
      let (answers, last) := moved.readEach later
      (answer :: answers, last)

end Reader

/-- The expression that makes up a whole token list. -/
def Expr.ofTokens (tokens : List Token) : Except Mismatch Expr :=
  ((Reader.ofTokens tokens).read .whole).1

end LoxExpr
