import LoxExpr.Proofs.Reading.Correspondence

/-!
# Behind the end of input

No reading looks behind a token that ends the input, and none goes there.  So
two token lists that are the same up to such a token get the same replies, and
the replies stop at the same places.
-/

namespace LoxExpr

namespace Reading

/-- Two token lists that are the same up to this token, behind which they end
with these tails. -/
def SameUpTo (last : Token) (tail tail' tokens tokens' : List Token) : Prop :=
  ∃ front, tokens = front ++ last :: tail ∧ tokens' = front ++ last :: tail'

variable {last : Token} {tail tail' tokens tokens' : List Token}

namespace SameUpTo

theorem peek (same : SameUpTo last tail tail' tokens tokens') :
    peek tokens = peek tokens' := by
  obtain ⟨front, rfl, rfl⟩ := same
  cases front <;> rfl

theorem advance (isEnd : last.kind = .endOfInput)
    (same : SameUpTo last tail tail' tokens tokens') :
    SameUpTo last tail tail' (advance tokens) (advance tokens') := by
  by_cases stays : (Reading.peek tokens).kind = .endOfInput
  · rw [advance_of_end stays, advance_of_end (same.peek ▸ stays)]
    exact same
  · obtain ⟨front, rfl, rfl⟩ := same
    cases front with
    | nil => exact absurd isEnd stays
    | cons token front =>
        have moves : token.kind ≠ .endOfInput := stays
        rw [List.cons_append, List.cons_append, advance_cons moves,
          advance_cons moves]
        exact ⟨front, rfl, rfl⟩

/-- The places correspond, by the tokens themselves. -/
theorem correspondence (isEnd : last.kind = .endOfInput) :
    Correspondence Eq Eq (SameUpTo last tail tail') where
  kind := by
    intro token token' same
    rw [same]
  constant := by
    intro token token' same
    apply rel_eq_of_constant
    rw [same]
  peek := SameUpTo.peek
  advance := SameUpTo.advance isEnd

end SameUpTo

/-- The same reply, at places that are the same up to this token. -/
inductive Alike (last : Token) (tail tail' : List Token) :
    Reply → Reply → Prop where
  | read (tree : Expr) {rest rest' : List Token} :
      SameUpTo last tail tail' rest rest' →
      Alike last tail tail' (.read tree rest) (.read tree rest')
  | refused (mismatch : Mismatch) {rest rest' : List Token} :
      SameUpTo last tail tail' rest rest' →
      Alike last tail tail' (.refused mismatch rest) (.refused mismatch rest')
  | exhausted : Alike last tail tail' .exhausted .exhausted

/-- Trees that correspond by their own tokens and literals are the same. -/
theorem eq_of_corresponds {tree tree' : Expr}
    (corresponds : tree.Corresponds Eq Eq tree') : tree = tree' := by
  induction corresponds with
  | literal same => rw [same]
  | group _ inner => rw [inner]
  | unary same _ operand => rw [same, operand]
  | binary _ same _ left right => rw [left, same, right]
  | assign same _ assigned => rw [same, assigned]

theorem corresponds_self (tree : Expr) : tree.Corresponds Eq Eq tree := by
  induction tree with
  | literal value => exact .literal rfl
  | group inner induction => exact .group induction
  | unary operator operand induction => exact .unary rfl induction
  | binary left operator right leftInduction rightInduction =>
      exact .binary leftInduction rfl rightInduction
  | assign name assigned induction => exact .assign rfl induction

theorem Task.corresponds_self (task : Task) :
    Task.Corresponds Eq Eq task task := by
  cases task with
  | extend least left => exact .extend least (Reading.corresponds_self left)
  | climb least => exact .climb least
  | expression => exact .expression
  | operand => exact .operand
  | group => exact .group
  | signed => exact .signed

theorem Alike.of_corresponds {reply reply' : Reply}
    (corresponds : Reply.Corresponds Eq Eq (SameUpTo last tail tail')
      reply reply') : Alike last tail tail' reply reply' := by
  cases corresponds with
  | read trees same =>
      rw [eq_of_corresponds trees]
      exact .read _ same
  | refused expected found same =>
      rw [found]
      exact .refused _ same
  | exhausted => exact .exhausted

theorem Task.reply_alike (isEnd : last.kind = .endOfInput) (budget : Nat)
    (task : Task) (same : SameUpTo last tail tail' tokens tokens') :
    Alike last tail tail' (task.reply budget tokens)
      (task.reply budget tokens') := by
  apply Alike.of_corresponds
  exact (SameUpTo.correspondence isEnd).reply budget task.corresponds_self same

theorem whole_alike (isEnd : last.kind = .endOfInput) (budget : Nat)
    (same : SameUpTo last tail tail' tokens tokens') :
    Alike last tail tail' (whole budget tokens) (whole budget tokens') := by
  apply Alike.of_corresponds
  exact (SameUpTo.correspondence isEnd).whole budget same

end Reading

end LoxExpr
