import LoxExpr.Token.Keyword
import LoxExpr.Token.Operator
import LoxExpr.Value

/-!
# Tokens

A token is a lexeme with its kind, the line it ends on, and, for numbers and
strings, the value it denotes.  A token sequence ends with a token for the end
of input, whose lexeme is empty.
-/

namespace LoxExpr

namespace Token

inductive Kind where
  | number
  | string
  | identifier
  | operator (symbol : Operator)
  | keyword (word : Keyword)
  | leftParen
  | rightParen
  | leftBrace
  | rightBrace
  | equalSign
  | comma
  | dot
  | semicolon
  | endOfInput
deriving DecidableEq, Repr

namespace Kind

/-- The name of a kind in diagnostics about malformed trees. -/
def name : Kind → String
  | .number => "Number"
  | .string => "Str"
  | .identifier => "Id"
  | .operator symbol => "Op(" ++ symbol.name ++ ")"
  | .keyword word => "Kw(" ++ word.name ++ ")"
  | .leftParen => "LParen"
  | .rightParen => "RParen"
  | .leftBrace => "LCurly"
  | .rightBrace => "RCurly"
  | .equalSign => "Eq"
  | .comma => "Comma"
  | .dot => "Dot"
  | .semicolon => "Semicolon"
  | .endOfInput => "Eof"

def all : List Kind :=
  [.number, .string, .identifier, .leftParen, .rightParen, .leftBrace,
    .rightBrace, .equalSign, .comma, .dot, .semicolon, .endOfInput] ++
    Operator.all.map .operator ++ Keyword.all.map .keyword

theorem mem_all (kind : Kind) : kind ∈ all := by
  cases kind with
  | operator symbol => simp [all, Operator.mem_all]
  | keyword word => simp [all, Keyword.mem_all]
  | _ => simp [all]

end Kind

end Token

structure Token where
  kind : Token.Kind
  lexeme : String
  literal : Option Value
  line : Nat

namespace Token

def isEqual (left right : Token) : Bool :=
  left.kind == right.kind && left.lexeme == right.lexeme &&
    left.literal == right.literal && left.line == right.line

instance : BEq Token := ⟨isEqual⟩

/-- The token that ends an input with this many lines. -/
def endOfInput (line : Nat) : Token :=
  { kind := .endOfInput, lexeme := "", literal := none, line := line }

/-- Where a diagnostic about a token points. -/
def place (token : Token) : String :=
  if token.kind = .endOfInput then "end" else "'" ++ token.lexeme ++ "'"

/-- The operator of a token, if it is one. -/
def operator? (token : Token) : Option Operator :=
  match token.kind with
  | .operator symbol => some symbol
  | _ => none

end Token

end LoxExpr
