import LoxExpr.Proofs.Grammar.Derivation

/-!
# Embedding of phrases

A phrase without operators of its own level is also a phrase of every looser
level.  In particular whatever is derived stands for an operand once it is put
between parentheses.
-/

namespace LoxExpr

namespace Grammar

namespace Derives

variable {tokens : List Token} {tree : Expr}

theorem chain_of_operand (level : Level)
    (derives : Derives level.operand tokens tree) :
    Derives (.chain level) tokens tree := by
  have alone := Derives.chain derives .noLink
  rwa [List.append_nil] at alone

/-- What is derived by the tightest phrase is an operand of every level. -/
theorem operand (derives : Derives .unary tokens tree) (level : Level) :
    Derives level.operand tokens tree := by
  have factor : Derives (.chain .factor) tokens tree :=
    chain_of_operand .factor derives
  have term : Derives (.chain .term) tokens tree :=
    chain_of_operand .term factor
  have comparison : Derives (.chain .comparison) tokens tree :=
    chain_of_operand .comparison term
  cases level with
  | equality => exact comparison
  | comparison => exact term
  | term => exact factor
  | factor => exact derives

/-- A chain of any level is an expression. -/
theorem expression {level : Level}
    (derives : Derives (.chain level) tokens tree) :
    Derives .expression tokens tree := by
  have ofComparison (comparison : Derives (.chain .comparison) tokens tree) :
      Derives .expression tokens tree :=
    .equality (chain_of_operand .equality comparison)
  have ofTerm (term : Derives (.chain .term) tokens tree) :
      Derives .expression tokens tree :=
    ofComparison (chain_of_operand .comparison term)
  cases level with
  | equality => exact .equality derives
  | comparison => exact ofComparison derives
  | term => exact ofTerm derives
  | factor => exact ofTerm (chain_of_operand .term derives)

theorem expression_of_unary (derives : Derives .unary tokens tree) :
    Derives .expression tokens tree :=
  (chain_of_operand .factor derives).expression

/-- Two operands of the tightest kind are joined by any operator that binds
between operands. -/
theorem joined {left right : List Token} {leftTree rightTree : Expr}
    {operator : Token} {symbol : Operator}
    (isSymbol : operator.kind = .operator symbol)
    (binds : symbol.precedence?.isSome = true)
    (leftDerives : Derives .unary left leftTree)
    (rightDerives : Derives .unary right rightTree) :
    Derives .expression (left ++ operator :: right)
      (.binary leftTree operator rightTree) := by
  obtain ⟨precedence, strength⟩ := Option.isSome_iff_exists.mp binds
  obtain ⟨level, rfl⟩ := exists_level_of_precedence? strength
  have member := Level.mem_symbols_iff.mpr strength
  have links : Derives (.links level leftTree) (operator :: (right ++ []))
      (.binary leftTree operator rightTree) :=
    .link isSymbol member (rightDerives.operand level) .noLink
  rw [List.append_nil] at links
  exact (Derives.chain (leftDerives.operand level) links).expression

end Derives

end Grammar

end LoxExpr
