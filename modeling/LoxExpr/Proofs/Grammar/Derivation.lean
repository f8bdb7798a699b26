import LoxExpr.Expr.Basic

/-!
# The grammar of expressions

Every level of binding strength has a phrase of its own, whose operands are
phrases of the next tighter level.

    expression  =  identifier "=" expression  |  equality
    equality    =  comparison  (("!=" | "==") comparison)*
    comparison  =  term  ((">" | ">=" | "<" | "<=") term)*
    term        =  factor  (("-" | "+") factor)*
    factor      =  unary  (("/" | "*") unary)*
    unary       =  ("!" | "-") unary  |  primary
    primary     =  "true" | "false" | "nil" | number | string
                |  "(" expression ")"

`Derives` relates a phrase to the token lists that it derives and their trees.
The repetitions are folded to the left while they are derived: a phrase
`links` carries the tree of what stands before it.
-/

namespace LoxExpr

namespace Grammar

/-- The levels with operators between operands, the loosest first. -/
inductive Level where
  | equality
  | comparison
  | term
  | factor
deriving DecidableEq, Repr

inductive Phrase where
  | expression
  | chain (level : Level)
  | links (level : Level) (left : Expr)
  | unary
  | primary

namespace Level

/-- The operators that stand between the operands of a level. -/
def symbols : Level → List Operator
  | .equality => [.differs, .equals]
  | .comparison => [.greater, .atLeast, .less, .atMost]
  | .term => [.minus, .plus]
  | .factor => [.over, .times]

/-- What the operators of a level join. -/
def operand : Level → Phrase
  | .equality => .chain .comparison
  | .comparison => .chain .term
  | .term => .chain .factor
  | .factor => .unary

def strength : Level → Nat
  | .equality => 1
  | .comparison => 2
  | .term => 3
  | .factor => 4

theorem mem_symbols_iff {level : Level} {symbol : Operator} :
    symbol ∈ level.symbols ↔ symbol.precedence? = some level.strength := by
  cases level <;> cases symbol <;> decide

end Level

theorem exists_level_of_precedence? {symbol : Operator} {precedence : Nat}
    (binds : symbol.precedence? = some precedence) :
    ∃ level : Level, precedence = level.strength := by
  cases symbol <;> simp only [Operator.precedence?, Option.some.injEq,
    reduceCtorEq] at binds <;> subst precedence
  · exact ⟨.term, rfl⟩
  · exact ⟨.term, rfl⟩
  · exact ⟨.factor, rfl⟩
  · exact ⟨.factor, rfl⟩
  · exact ⟨.equality, rfl⟩
  · exact ⟨.equality, rfl⟩
  · exact ⟨.comparison, rfl⟩
  · exact ⟨.comparison, rfl⟩
  · exact ⟨.comparison, rfl⟩
  · exact ⟨.comparison, rfl⟩

inductive Derives : Phrase → List Token → Expr → Prop where
  | assignment {name sign : Token} {tokens : List Token} {assigned : Expr} :
      name.kind = .identifier → sign.kind = .equalSign →
      Derives .expression tokens assigned →
      Derives .expression (name :: sign :: tokens) (.assign name assigned)
  | equality {tokens : List Token} {tree : Expr} :
      Derives (.chain .equality) tokens tree →
      Derives .expression tokens tree
  | chain {level : Level} {first others : List Token} {left tree : Expr} :
      Derives level.operand first left →
      Derives (.links level left) others tree →
      Derives (.chain level) (first ++ others) tree
  | noLink {level : Level} {left : Expr} :
      Derives (.links level left) [] left
  | link {level : Level} {left right tree : Expr} {operator : Token}
      {symbol : Operator} {operand others : List Token} :
      operator.kind = .operator symbol → symbol ∈ level.symbols →
      Derives level.operand operand right →
      Derives (.links level (.binary left operator right)) others tree →
      Derives (.links level left) (operator :: (operand ++ others)) tree
  | signed {operator : Token} {tokens : List Token} {operand : Expr} :
      operator.kind = .operator .not ∨ operator.kind = .operator .minus →
      Derives .unary tokens operand →
      Derives .unary (operator :: tokens) (.unary operator operand)
  | primary {tokens : List Token} {tree : Expr} :
      Derives .primary tokens tree →
      Derives .unary tokens tree
  | trueWord {token : Token} :
      token.kind = .keyword .trueWord →
      Derives .primary [token] (.literal (.boolean true))
  | falseWord {token : Token} :
      token.kind = .keyword .falseWord →
      Derives .primary [token] (.literal (.boolean false))
  | nilWord {token : Token} :
      token.kind = .keyword .nilWord →
      Derives .primary [token] (.literal .nil)
  | number {token : Token} :
      token.kind = .number →
      Derives .primary [token] (.literal (token.literal.getD .nil))
  | string {token : Token} :
      token.kind = .string →
      Derives .primary [token] (.literal (token.literal.getD .nil))
  | group {opening closing : Token} {tokens : List Token} {inner : Expr} :
      opening.kind = .leftParen →
      Derives .expression tokens inner →
      closing.kind = .rightParen →
      Derives .primary (opening :: (tokens ++ [closing])) (.group inner)

theorem ne_endOfInput_of_sign {kind : Token.Kind}
    (isSign : kind = .operator .not ∨ kind = .operator .minus) :
    kind ≠ .endOfInput := by
  rintro rfl
  simp at isSign

theorem Derives.kind_ne_endOfInput {phrase : Phrase} {tokens : List Token}
    {tree : Expr} (derives : Derives phrase tokens tree) :
    ∀ token ∈ tokens, token.kind ≠ .endOfInput := by
  induction derives with
  | assignment isName isSign _ induction =>
      intro token member
      simp only [List.mem_cons] at member
      rcases member with rfl | rfl | member
      · simp [isName]
      · simp [isSign]
      · exact induction token member
  | equality _ induction => exact induction
  | chain _ _ first others =>
      intro token member
      rcases List.mem_append.mp member with before | after
      · exact first token before
      · exact others token after
  | noLink => simp
  | link isSymbol _ _ _ operand others =>
      intro token member
      simp only [List.mem_cons, List.mem_append] at member
      rcases member with rfl | inOperand | after
      · simp [isSymbol]
      · exact operand token inOperand
      · exact others token after
  | signed isSign _ induction =>
      intro token member
      rcases List.mem_cons.mp member with rfl | member
      · exact ne_endOfInput_of_sign isSign
      · exact induction token member
  | primary _ induction => exact induction
  | trueWord isWord => simp [isWord]
  | falseWord isWord => simp [isWord]
  | nilWord isWord => simp [isWord]
  | number isNumber => simp [isNumber]
  | string isString => simp [isString]
  | group isOpening _ isClosing induction =>
      intro token member
      simp only [List.mem_cons, List.mem_append, List.not_mem_nil,
        or_false] at member
      rcases member with rfl | inner | rfl
      · simp [isOpening]
      · exact induction token inner
      · simp [isClosing]

namespace Phrase

def primaryKinds : List Token.Kind :=
  [.keyword .trueWord, .keyword .falseWord, .keyword .nilWord, .number,
    .string, .leftParen]

def unaryKinds : List Token.Kind :=
  .operator .not :: .operator .minus :: primaryKinds

/-- The kinds of token with which a phrase can begin. -/
def firstKinds : Phrase → List Token.Kind
  | .expression => .identifier :: unaryKinds
  | .chain _ => unaryKinds
  | .links level _ => level.symbols.map .operator
  | .unary => unaryKinds
  | .primary => primaryKinds

theorem firstKinds_operand (level : Level) :
    level.operand.firstKinds = unaryKinds := by
  cases level <;> rfl

end Phrase

/-- Only the links of a chain can be missing; all other phrases have a first
token, of one of their kinds. -/
theorem Derives.first {phrase : Phrase} {tokens : List Token} {tree : Expr}
    (derives : Derives phrase tokens tree) :
    (∃ token rest, tokens = token :: rest ∧
        token.kind ∈ phrase.firstKinds) ∨
      (tokens = [] ∧ ∃ level, phrase = .links level tree) := by
  induction derives with
  | assignment isName =>
      left
      exact ⟨_, _, rfl, by simp [Phrase.firstKinds, isName]⟩
  | equality _ induction =>
      rcases induction with ⟨token, rest, split, kind⟩ | ⟨_, level, same⟩
      · left
        exact ⟨token, rest, split, List.mem_cons_of_mem _ kind⟩
      · cases same
  | @chain level _ others _ _ _ _ operand =>
      rcases operand with ⟨token, rest, split, kind⟩ | ⟨_, deeper, same⟩
      · left
        rw [Phrase.firstKinds_operand] at kind
        exact ⟨token, rest ++ others, by simp [split], kind⟩
      · cases level <;> cases same
  | noLink =>
      right
      exact ⟨rfl, _, rfl⟩
  | link isSymbol member =>
      left
      refine ⟨_, _, rfl, ?_⟩
      rw [isSymbol]
      exact List.mem_map_of_mem member
  | signed isSign =>
      left
      refine ⟨_, _, rfl, ?_⟩
      rcases isSign with isNot | isMinus
      · simp [Phrase.firstKinds, Phrase.unaryKinds, isNot]
      · simp [Phrase.firstKinds, Phrase.unaryKinds, isMinus]
  | primary _ induction =>
      rcases induction with ⟨token, rest, split, kind⟩ | ⟨_, level, same⟩
      · left
        exact ⟨token, rest, split,
          List.mem_cons_of_mem _ (List.mem_cons_of_mem _ kind)⟩
      · cases same
  | trueWord isWord | falseWord isWord | nilWord isWord | number isWord
  | string isWord =>
      left
      exact ⟨_, _, rfl, by
        simp [Phrase.firstKinds, Phrase.primaryKinds, isWord]⟩
  | group isOpening =>
      left
      exact ⟨_, _, rfl, by
        simp [Phrase.firstKinds, Phrase.primaryKinds, isOpening]⟩

end Grammar

end LoxExpr
