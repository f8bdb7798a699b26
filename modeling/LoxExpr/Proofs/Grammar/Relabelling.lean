import LoxExpr.Proofs.Grammar.Derivation

/-!
# Relabelling of tokens

The grammar looks at the kinds of tokens and at their literals.  If all tokens
are exchanged for others of the same kinds and literals, the same phrase is
derived, and its tree is the old one with the new tokens.
-/

namespace LoxExpr

/-- The tree with other tokens for its operators and names. -/
def Expr.mapTokens (f : Token → Token) : Expr → Expr
  | .literal value => .literal value
  | .group inner => .group (inner.mapTokens f)
  | .unary operator operand => .unary (f operator) (operand.mapTokens f)
  | .binary left operator right =>
      .binary (left.mapTokens f) (f operator) (right.mapTokens f)
  | .assign name assigned => .assign (f name) (assigned.mapTokens f)

/-- An exchange of tokens that changes lexemes and lines at most. -/
structure Token.Relabels (f : Token → Token) : Prop where
  kind : ∀ token, (f token).kind = token.kind
  literal : ∀ token, (f token).literal = token.literal

namespace Grammar

/-- The phrase whose tree on the left has other tokens. -/
def Phrase.mapTokens (f : Token → Token) : Phrase → Phrase
  | .links level left => .links level (left.mapTokens f)
  | phrase => phrase

theorem Phrase.mapTokens_operand (f : Token → Token) (level : Level) :
    level.operand.mapTokens f = level.operand := by
  cases level <;> rfl

theorem Derives.mapTokens {f : Token → Token} (relabels : Token.Relabels f)
    {phrase : Phrase} {tokens : List Token} {tree : Expr}
    (derives : Derives phrase tokens tree) :
    Derives (phrase.mapTokens f) (tokens.map f) (tree.mapTokens f) := by
  have ofKind {token : Token} {kind : Token.Kind}
      (isKind : token.kind = kind) : (f token).kind = kind :=
    (relabels.kind token).trans isKind
  induction derives with
  | assignment isName isSign _ induction =>
      exact .assignment (ofKind isName) (ofKind isSign) induction
  | equality _ induction => exact .equality induction
  | @chain level _ _ _ _ _ _ operand links =>
      rw [Phrase.mapTokens_operand] at operand
      rw [List.map_append]
      exact .chain operand links
  | noLink => exact .noLink
  | @link level _ _ _ _ _ _ _ isSymbol member _ _ operand links =>
      rw [Phrase.mapTokens_operand] at operand
      rw [List.map_cons, List.map_append]
      exact .link (ofKind isSymbol) member operand links
  | signed isSign _ induction =>
      exact .signed (isSign.imp ofKind ofKind) induction
  | primary _ induction => exact .primary induction
  | trueWord isWord => exact .trueWord (ofKind isWord)
  | falseWord isWord => exact .falseWord (ofKind isWord)
  | nilWord isWord => exact .nilWord (ofKind isWord)
  | @number token isNumber =>
      have number := Derives.number (ofKind isNumber)
      rwa [relabels.literal] at number
  | @string token isString =>
      have string := Derives.string (ofKind isString)
      rwa [relabels.literal] at string
  | group isOpening _ isClosing induction =>
      rw [List.map_cons, List.map_append]
      exact .group (ofKind isOpening) induction (ofKind isClosing)

end Grammar

end LoxExpr
