import LoxExpr.Proofs.Grammar.Trace
import LoxExpr.Proofs.Run.ReadBack

/-!
# Equal trees

Two texts are read as equal trees exactly if their tokens agree one by one in
what a tree keeps of them.  A reading decides by kinds alone, so it builds equal
trees from tokens that agree; and a tree has the traces of all its tokens.  What
is read from a text has no literal that differs from itself.
-/

namespace LoxExpr

open Lexis Reading

namespace Token

/-- A number or a string. -/
def HasLiteral (token : Token) : Prop :=
  token.kind = .number ∨ token.kind = .string

/-- A token that a tree keeps whole. -/
def IsKept (token : Token) : Prop :=
  token.kind = .identifier ∨ ∃ symbol, token.kind = .operator symbol

/-- Two tokens agree in what a tree keeps of them.  The lexeme and the line
matter for operators and names only. -/
structure Agrees (token token' : Token) : Prop where
  kind : token.kind = token'.kind
  literal : token.HasLiteral → (token.literal == token'.literal) = true
  lexeme : token.IsKept → token.lexeme = token'.lexeme
  line : token.IsKept → token.line = token'.line

variable {token token' : Token}

theorem beq_iff : (token == token') = true ↔
    token.kind = token'.kind ∧ token.lexeme = token'.lexeme ∧
      (token.literal == token'.literal) = true ∧
      token.line = token'.line := by
  change token.isEqual token' = true ↔ _
  simp [isEqual, and_assoc]

theorem agrees_of_beq (equal : (token == token') = true) :
    token.Agrees token' := by
  obtain ⟨kind, lexeme, literal, line⟩ := beq_iff.mp equal
  exact ⟨kind, fun _ => literal, fun _ => lexeme, fun _ => line⟩

theorem agrees_endOfInput (line line' : Nat) :
    (endOfInput line).Agrees (endOfInput line') where
  kind := rfl
  literal := by simp [HasLiteral, endOfInput]
  lexeme := fun _ => rfl
  line := by simp [IsKept, endOfInput]

theorem forall₂_agrees_of_beq {tokens tokens' : List Token}
    (equal : (tokens == tokens') = true) :
    List.Forall₂ Agrees tokens tokens' := by
  induction tokens generalizing tokens' with
  | nil =>
      cases tokens' with
      | nil => exact .nil
      | cons token' rest' => cases equal
  | cons token rest induction =>
      cases tokens' with
      | nil => cases equal
      | cons token' rest' =>
          rw [List.cons_beq_cons, Bool.and_eq_true] at equal
          exact .cons (agrees_of_beq equal.1) (induction equal.2)

namespace Agrees

/-- A kept token has no literal, so nothing is left in which two that agree
could differ. -/
theorem beq (agrees : token.Agrees token') (isKept : token.IsKept)
    (spelled : Spelled token) (spelled' : Spelled token') :
    (token == token') = true := by
  have noLiteral {token : Token} (isKept : token.IsKept)
      (spelled : Spelled token) : token.literal = none := by
    rcases Rule.literal_cases spelled with ⟨isNone, _⟩ | ⟨isString, _⟩ |
      ⟨isNumber, _⟩
    · exact isNone
    · simp [IsKept, isString] at isKept
    · simp [IsKept, isNumber] at isKept
  have isKept' : token'.IsKept := by rwa [IsKept, ← agrees.kind]
  refine beq_iff.mpr ⟨agrees.kind, agrees.lexeme isKept, ?_,
    agrees.line isKept⟩
  rw [noLiteral isKept spelled, noLiteral isKept' spelled']
  rfl

theorem constant (agrees : token.Agrees token') :
    Option.Rel (fun value value' => (value == value') = true)
      (constant? token) (constant? token') := by
  have literals (hasLiteral : token.HasLiteral) :=
    getD_nil_beq (agrees.literal hasLiteral)
  unfold constant?
  rw [← agrees.kind]
  split
  · exact .some rfl
  · exact .some rfl
  · exact .some rfl
  · next isNumber => exact .some (literals (.inl isNumber))
  · next isString => exact .some (literals (.inr isString))
  · exact .none

end Agrees

end Token

namespace Reading

theorem agrees_correspondence :
    Correspondence Token.Agrees (fun value value' => (value == value') = true)
      (List.Forall₂ Token.Agrees) where
  kind := fun agrees => agrees.kind.symm
  constant := Token.Agrees.constant
  peek := by
    intro tokens tokens' agree
    cases agree with
    | nil => exact Token.agrees_endOfInput 1 1
    | cons agrees _ => exact agrees
  advance := by
    intro tokens tokens' agree
    cases agree with
    | nil => exact .nil
    | cons agrees behind =>
        rw [advance, advance, peek_cons, peek_cons, ← agrees.kind]
        split
        · exact .cons agrees behind
        · exact behind

end Reading

namespace Expr

/-- Composed trees with tokens that agree are equal. -/
theorem beq_of_agrees {sort : Value → Prop} {tree tree' : Expr}
    (corresponds : tree.Corresponds Token.Agrees
      (fun value value' => (value == value') = true) tree')
    (composed : tree.Composed sort) (composed' : tree'.Composed sort) :
    (tree == tree') = true := by
  change tree.isEqual tree' = true
  induction corresponds with
  | literal same => exact same
  | group _ inner => exact inner composed composed'
  | @unary operator _ _ _ agrees _ operand =>
      obtain ⟨⟨spelled, isSign⟩, operandComposed⟩ := composed
      obtain ⟨⟨spelled', _⟩, operandComposed'⟩ := composed'
      have isKept : operator.IsKept :=
        .inr (isSign.elim (⟨_, ·⟩) (⟨_, ·⟩))
      rw [isEqual, Bool.and_eq_true]
      exact ⟨agrees.beq isKept spelled spelled',
        operand operandComposed operandComposed'⟩
  | binary _ agrees _ left right =>
      obtain ⟨leftComposed, ⟨spelled, symbol, isSymbol, _⟩, rightComposed⟩ :=
        composed
      obtain ⟨leftComposed', ⟨spelled', _⟩, rightComposed'⟩ := composed'
      rw [isEqual, Bool.and_eq_true, Bool.and_eq_true]
      exact ⟨⟨left leftComposed leftComposed',
          agrees.beq (.inr ⟨symbol, isSymbol⟩) spelled spelled'⟩,
        right rightComposed rightComposed'⟩
  | assign agrees _ assigned =>
      obtain ⟨⟨spelled, isName⟩, assignedComposed⟩ := composed
      obtain ⟨⟨spelled', _⟩, assignedComposed'⟩ := composed'
      rw [isEqual, Bool.and_eq_true]
      exact ⟨agrees.beq (.inl isName) spelled spelled',
        assigned assignedComposed assignedComposed'⟩

end Expr

/-- The kind of a token that stands for the value. -/
def Value.tokenKind : Value → Token.Kind
  | .nil => .keyword .nilWord
  | .boolean true => .keyword .trueWord
  | .boolean false => .keyword .falseWord
  | .number _ => .number
  | .string _ => .string

theorem Value.tokenKind_eq {value value' : Value}
    (equal : (value == value') = true) :
    value.tokenKind = value'.tokenKind := by
  change value.isEqual value' = true at equal
  cases value <;> cases value' <;> simp_all [isEqual, tokenKind]

/-- The trace is left by the token: by one that stands for a constant, by one
that is kept, or by one of which nothing is kept but its place. -/
def Trace.IsOf (token : Token) : Trace → Prop
  | .constant value => constant? token = some value ∧ ¬ token.IsKept
  | .whole kept => kept = token
  | .mark kind => token.kind = kind ∧ ¬ token.HasLiteral ∧ ¬ token.IsKept

namespace Token

variable {token token' : Token}

theorem literal_of_constant {value : Value} (spelled : Spelled token)
    (constant : constant? token = some value) :
    token.kind = value.tokenKind ∧
      (token.HasLiteral → token.literal = some value) := by
  rcases Rule.literal_cases spelled with ⟨_, noNumber, noString⟩ |
    ⟨isString, content, literal⟩ | ⟨isNumber, bits, _, literal⟩
  · have noLiteral : ¬ token.HasLiteral := by
      simp [HasLiteral, noNumber, noString]
    refine ⟨?_, fun hasLiteral => absurd hasLiteral noLiteral⟩
    unfold constant? at constant
    split at constant <;> cases constant
    · assumption
    · assumption
    · assumption
    · next isNumber => exact absurd isNumber noNumber
    · next isString => exact absurd isString noString
  · simp only [constant?, isString, literal, Option.getD_some,
      Option.some.injEq] at constant
    subst constant
    exact ⟨isString, fun _ => literal⟩
  · simp only [constant?, isNumber, literal, Option.getD_some,
      Option.some.injEq] at constant
    subst constant
    exact ⟨isNumber, fun _ => literal⟩

theorem trace_isOf (token : Token) : token.trace.IsOf token := by
  cases isKind : token.kind with
  | keyword word =>
      cases word <;> simp [Trace.IsOf, trace, constant?, isKind, HasLiteral,
        IsKept]
  | _ => simp [Trace.IsOf, trace, constant?, isKind, HasLiteral, IsKept]

/-- Spelled tokens with traces of equal content agree. -/
theorem agrees_of_trace (spelled : Spelled token) (spelled' : Spelled token')
    (agree : token.trace.Agrees token'.trace) : token.Agrees token' := by
  have isOf := trace_isOf token
  have isOf' := trace_isOf token'
  generalize token.trace = trace at agree isOf
  generalize token'.trace = trace' at agree isOf'
  cases agree with
  | constant same =>
      obtain ⟨constant, notKept⟩ := isOf
      obtain ⟨constant', _⟩ := isOf'
      obtain ⟨kind, literal⟩ := literal_of_constant spelled constant
      obtain ⟨kind', literal'⟩ := literal_of_constant spelled' constant'
      have sameKind : token.kind = token'.kind := by
        rw [kind, kind', Value.tokenKind_eq same]
      refine ⟨sameKind, ?_, fun isKept => absurd isKept notKept,
        fun isKept => absurd isKept notKept⟩
      intro hasLiteral
      have hasLiteral' : token'.HasLiteral := by
        rwa [HasLiteral, ← sameKind]
      rw [literal hasLiteral, literal' hasLiteral']
      exact same
  | whole same =>
      cases isOf
      cases isOf'
      exact agrees_of_beq same
  | mark kind =>
      obtain ⟨isKind, noLiteral, notKept⟩ := isOf
      exact ⟨isKind.trans isOf'.1.symm,
        fun hasLiteral => absurd hasLiteral noLiteral,
        fun isKept => absurd isKept notKept,
        fun isKept => absurd isKept notKept⟩

theorem agree_of_traces {text text' : List Char}
    (traces : List.Forall₂ Trace.Agrees
      ((contents tokenOf? [] text).map trace)
      ((contents tokenOf? [] text').map trace)) :
    List.Forall₂ Agrees (contents tokenOf? [] text)
      (contents tokenOf? [] text') := by
  rw [List.forall₂_map_left_iff, List.forall₂_map_right_iff,
    List.forall₂_iff_zip] at traces
  obtain ⟨sameLength, agree⟩ := traces
  refine List.forall₂_iff_zip.mpr ⟨sameLength, ?_⟩
  intro token token' paired
  obtain ⟨member, member'⟩ := List.of_mem_zip paired
  exact agrees_of_trace (spelled_of_mem_tokens member)
    (spelled_of_mem_tokens member') (agree paired)

end Token

section Readings

variable {source source' : String} {tree tree' : Expr}
  (reading : Expr.ofTokens (scan source).tokens = .ok tree)
  (reading' : Expr.ofTokens (scan source').tokens = .ok tree')
include reading reading'

theorem tokens_agree_of_beq (equal : (tree == tree') = true) :
    List.Forall₂ Token.Agrees (scan source).tokens (scan source').tokens := by
  have derives := ofTokens_scan_eq_ok_iff.mp reading
  have derives' := ofTokens_scan_eq_ok_iff.mp reading'
  have traces := (Expr.matches_of_beq equal).traces
  rw [derives.traces, derives'.traces] at traces
  rw [tokens_scan, tokens_scan]
  exact List.rel_append (Token.agree_of_traces traces)
    (.cons (Token.agrees_endOfInput _ _) .nil)

theorem beq_of_tokens_agree
    (agree : List.Forall₂ Token.Agrees (scan source).tokens
      (scan source').tokens) : (tree == tree') = true := by
  have closed (source : String) :
      Reader.close (scan source).tokens = (scan source).tokens := by
    rw [tokens_scan]
    exact Expr.close_of_end rfl
  have agreeClosed : List.Forall₂ Token.Agrees
      (Reader.close (scan source).tokens)
      (Reader.close (scan source').tokens) := by
    rwa [closed, closed]
  rcases agrees_correspondence.ofTokens agreeClosed
      agreeClosed.length_eq.symm with
    ⟨first, second, isFirst, isSecond, corresponds⟩ |
    ⟨_, _, _, refused, _⟩
  · rw [reading] at isFirst
    rw [reading'] at isSecond
    cases isFirst
    cases isSecond
    exact Expr.beq_of_agrees corresponds (Expr.composed_of_reading reading)
      (Expr.composed_of_reading reading')
  · rw [reading] at refused
    cases refused

end Readings

/-- Two texts that are read are read as equal trees exactly if their tokens
agree.  What is read equals itself, and equal token lists are read as equal
trees. -/
theorem trees_equal_iff_tokens_agree {source source' : String}
    {tree tree' : Expr}
    (reading : Expr.ofTokens (scan source).tokens = .ok tree)
    (reading' : Expr.ofTokens (scan source').tokens = .ok tree') :
    ((tree == tree') = true ↔
        List.Forall₂ Token.Agrees (scan source).tokens
          (scan source').tokens) ∧
      (tree == tree) = true ∧
      (((scan source).tokens == (scan source').tokens) = true →
        (tree == tree') = true) := by
  refine ⟨⟨tokens_agree_of_beq reading reading',
    beq_of_tokens_agree reading reading'⟩, ?_, ?_⟩
  · have composed := Expr.composed_of_reading reading
    exact composed.beq_self fun _ constant => constant.beq_self
  · intro same
    exact beq_of_tokens_agree reading reading'
      (Token.forall₂_agrees_of_beq same)

/-- Two spellings of one number are read as equal trees, whatever line the
parenthesis behind them is on, so the tokens agree. -/
theorem trees_equal_iff_tokens_agree_numerals :
    ∃ tree tree',
      Expr.ofTokens (scan "x = -(1.50)").tokens = .ok tree ∧
        Expr.ofTokens (scan "x = -(01.5\n)").tokens = .ok tree' ∧
        (tree == tree') = true ∧
        List.Forall₂ Token.Agrees (scan "x = -(1.50)").tokens
          (scan "x = -(01.5\n)").tokens := by
  have compared : (do
      let tree ← (Expr.ofTokens (scan "x = -(1.50)").tokens).toOption
      let tree' ← (Expr.ofTokens (scan "x = -(01.5\n)").tokens).toOption
      some (tree == tree')) = some true := by
    decide +kernel
  cases reading : Expr.ofTokens (scan "x = -(1.50)").tokens with
  | error mismatch =>
      rw [reading] at compared
      cases compared
  | ok tree =>
      cases reading' : Expr.ofTokens (scan "x = -(01.5\n)").tokens with
      | error mismatch =>
          rw [reading, reading'] at compared
          cases compared
      | ok tree' =>
          rw [reading, reading'] at compared
          have equal : (tree == tree') = true := Option.some.inj compared
          exact ⟨tree, tree', rfl, rfl, equal,
            (trees_equal_iff_tokens_agree reading reading').1.mp equal⟩

end LoxExpr
