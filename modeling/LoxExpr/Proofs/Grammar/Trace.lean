import Mathlib.Data.List.Forall2
import LoxExpr.Proofs.Grammar.Derivation
import LoxExpr.Proofs.Reading.Correspondence

/-!
# What trees keep of tokens

A tree keeps operators and names as tokens, and of the other operands their
constants.  Of an equal sign or a parenthesis its place is left.  In the order
of the tokens these traces can be found in the tree again, so no token is lost
or merged with another one.
-/

namespace LoxExpr

/-- What a tree keeps of a token. -/
inductive Trace where
  | constant (value : Value)
  | whole (token : Token)
  | mark (kind : Token.Kind)

/-- Traces of equal content. -/
inductive Trace.Agrees : Trace → Trace → Prop where
  | constant {value value' : Value} :
      (value == value') = true → Agrees (.constant value) (.constant value')
  | whole {token token' : Token} :
      (token == token') = true → Agrees (.whole token) (.whole token')
  | mark (kind : Token.Kind) : Agrees (.mark kind) (.mark kind)

def Token.trace (token : Token) : Trace :=
  match Reading.constant? token with
  | some value => .constant value
  | none =>
      match token.kind with
      | .identifier => .whole token
      | .operator _ => .whole token
      | kind => .mark kind

theorem Token.trace_of_operator {token : Token} {symbol : Operator}
    (isSymbol : token.kind = .operator symbol) :
    token.trace = .whole token := by
  simp [trace, Reading.constant?, isSymbol]

namespace Expr

/-- The traces in a tree, in the order of the tokens. -/
def traces : Expr → List Trace
  | .literal value => [.constant value]
  | .group inner => .mark .leftParen :: (inner.traces ++ [.mark .rightParen])
  | .unary operator operand => .whole operator :: operand.traces
  | .binary left operator right =>
      left.traces ++ .whole operator :: right.traces
  | .assign name assigned =>
      .whole name :: .mark .equalSign :: assigned.traces

/-- Trees that are equal as the program compares them. -/
def Matches : Expr → Expr → Prop :=
  Corresponds (fun token token' => (token == token') = true)
    fun value value' => (value == value') = true

theorem matches_of_beq {tree tree' : Expr} (equal : (tree == tree') = true) :
    tree.Matches tree' := by
  change tree.isEqual tree' = true at equal
  induction tree generalizing tree' with
  | literal value =>
      cases tree' with
      | literal value' => exact .literal equal
      | _ => cases equal
  | group inner induction =>
      cases tree' with
      | group inner' => exact .group (induction equal)
      | _ => cases equal
  | unary operator operand induction =>
      cases tree' with
      | unary operator' operand' =>
          simp only [isEqual, Bool.and_eq_true] at equal
          exact .unary equal.1 (induction equal.2)
      | _ => cases equal
  | binary left operator right leftInduction rightInduction =>
      cases tree' with
      | binary left' operator' right' =>
          simp only [isEqual, Bool.and_eq_true] at equal
          exact .binary (leftInduction equal.1.1) equal.1.2
            (rightInduction equal.2)
      | _ => cases equal
  | assign name assigned induction =>
      cases tree' with
      | assign name' assigned' =>
          simp only [isEqual, Bool.and_eq_true] at equal
          exact .assign equal.1 (induction equal.2)
      | _ => cases equal

/-- Equal trees have equal traces. -/
theorem Matches.traces {tree tree' : Expr} (equal : tree.Matches tree') :
    List.Forall₂ Trace.Agrees tree.traces tree'.traces := by
  induction equal with
  | literal same => exact .cons (.constant same) .nil
  | group _ inner =>
      have closing : List.Forall₂ Trace.Agrees [.mark .rightParen]
          [.mark .rightParen] := .cons (.mark _) .nil
      exact .cons (.mark _) (List.rel_append inner closing)
  | unary same _ operand => exact .cons (.whole same) operand
  | binary _ same _ left right =>
      exact List.rel_append left (.cons (.whole same) right)
  | assign same _ assigned =>
      exact .cons (.whole same) (.cons (.mark _) assigned)

end Expr

namespace Grammar

/-- The traces in the tree that links extend. -/
def Phrase.traces : Phrase → List Trace
  | .links _ left => left.traces
  | _ => []

theorem Phrase.traces_operand (level : Level) : level.operand.traces = [] := by
  cases level <;> rfl

/-- A tree has the traces of the tokens from which it is derived. -/
theorem Derives.traces {phrase : Phrase} {tokens : List Token} {tree : Expr}
    (derives : Derives phrase tokens tree) :
    tree.traces = phrase.traces ++ tokens.map Token.trace := by
  induction derives with
  | @assignment name sign tokens assigned isName isSign _ induction =>
      have nameTrace : name.trace = .whole name := by
        simp [Token.trace, Reading.constant?, isName]
      have signTrace : sign.trace = .mark .equalSign := by
        simp [Token.trace, Reading.constant?, isSign]
      simpa [Expr.traces, Phrase.traces, nameTrace, signTrace] using induction
  | equality _ induction => exact induction
  | @chain level first others left tree _ _ operand links =>
      rw [Phrase.traces_operand] at operand
      rw [links, List.map_append]
      exact congrArg (· ++ others.map Token.trace) operand
  | noLink => exact (List.append_nil _).symm
  | @link level left right tree operator symbol operand others isSymbol _ _ _
      operandInduction linksInduction =>
      have trace := Token.trace_of_operator isSymbol
      rw [Phrase.traces_operand, List.nil_append] at operandInduction
      rw [linksInduction]
      simp [Phrase.traces, Expr.traces, trace, operandInduction]
  | @signed operator tokens operand isSign _ induction =>
      have trace : operator.trace = .whole operator :=
        isSign.elim Token.trace_of_operator Token.trace_of_operator
      simpa [Expr.traces, Phrase.traces, trace] using induction
  | primary _ induction => exact induction
  | trueWord isWord | falseWord isWord | nilWord isWord | number isWord
  | string isWord =>
      simp [Expr.traces, Phrase.traces, Token.trace, Reading.constant?,
        isWord]
  | @group opening closing tokens inner isOpening _ isClosing induction =>
      have openingTrace : opening.trace = .mark .leftParen := by
        simp [Token.trace, Reading.constant?, isOpening]
      have closingTrace : closing.trace = .mark .rightParen := by
        simp [Token.trace, Reading.constant?, isClosing]
      simpa [Expr.traces, Phrase.traces, openingTrace, closingTrace]
        using induction

end Grammar

end LoxExpr
