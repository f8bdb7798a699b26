import LoxExpr.Proofs.Grammar.Embedding
import LoxExpr.Proofs.Grammar.Rejection
import LoxExpr.Run

/-!
# Refusals

A reading that is refused has consumed the beginning of a phrase, and it would
be refused at the same place whatever followed the tokens it has looked at: one
behind the consumed ones, or two if the first is a name.  So a refusal points
at the first token with which no phrase can go on.
-/

namespace LoxExpr

namespace Grammar

open Reading

/-- A reading that succeeds has consumed what its phrase derives, and it would
have ended there in front of everything that looks like the rest. -/
theorem answer_read (phrase : Phrase) (solid : phrase.gain = 1)
    {tokens rest : List Token} {tree : Expr}
    (result : descent.answer phrase tokens = .read tree rest) :
    ∃ used, tokens = used ++ rest ∧ Derives phrase used tree ∧
      ∀ rest', LooksLike rest rest' →
        descent.answer phrase (used ++ rest') = .read tree rest' := by
  obtain ⟨used, split, derives⟩ :=
    derives_of_answer phrase tokens tree rest result
  refine ⟨used, split, derives, ?_⟩
  intro rest' looks
  exact answer_of_derives derives rest'
    (looks.loose (loose_of_answer solid result))

/-- Some tokens behind these complete the phrase. -/
def Completable (phrase : Phrase) (used : List Token) : Prop :=
  ∃ completion tree, Derives phrase (used ++ completion) tree

/-- A token that closes a group. -/
def closingToken : Token :=
  ⟨.rightParen, ")", none, 1⟩

/-- A token that is an operand on its own. -/
def nilToken : Token :=
  ⟨.keyword .nilWord, "nil", none, 1⟩

theorem Refuses.completable {phrase : Phrase} {used rest : List Token}
    {expected : Expectation} (refuses : Refuses phrase used rest expected) :
    Completable phrase used := by
  induction refuses with
  | assigned isName isSign _ induction =>
      obtain ⟨completion, assigned, derives⟩ := induction
      exact ⟨completion, _, .assignment isName isSign derives⟩
  | equality _ _ induction =>
      obtain ⟨completion, tree, derives⟩ := induction
      exact ⟨completion, tree, .equality derives⟩
  | @operand level _ _ _ _ induction =>
      obtain ⟨completion, tree, derives⟩ := induction
      exact ⟨completion, tree, derives.chain_of_operand level⟩
  | links operandDerives _ _ induction =>
      obtain ⟨completion, tree, linksDerive⟩ := induction
      refine ⟨completion, tree, ?_⟩
      rw [List.append_assoc]
      exact .chain operandDerives linksDerive
  | @right level left operator _ used _ _ isSymbol member _ induction =>
      obtain ⟨completion, right, derives⟩ := induction
      have link : Derives (.links level left)
          (operator :: ((used ++ completion) ++ []))
          (.binary left operator right) :=
        .link isSymbol member derives .noLink
      rw [List.append_nil] at link
      exact ⟨completion, _, link⟩
  | link isSymbol member operandDerives _ _ induction =>
      obtain ⟨completion, tree, linksDerive⟩ := induction
      refine ⟨completion, tree, ?_⟩
      rw [List.cons_append, List.append_assoc]
      exact .link isSymbol member operandDerives linksDerive
  | signed isSign _ induction =>
      obtain ⟨completion, operand, derives⟩ := induction
      exact ⟨completion, _, .signed isSign derives⟩
  | primary _ _ induction =>
      obtain ⟨completion, tree, derives⟩ := induction
      exact ⟨completion, tree, .primary derives⟩
  | @inside opening used _ _ isOpening _ induction =>
      obtain ⟨completion, inside, derives⟩ := induction
      have group : Derives .primary
          (opening :: ((used ++ completion) ++ [closingToken]))
          (.group inside) := .group isOpening derives rfl
      rw [List.append_assoc] at group
      exact ⟨completion ++ [closingToken], _, group⟩
  | unclosed isOpening derives _ _ =>
      exact ⟨[closingToken], _, .group isOpening derives rfl⟩
  | noOperand _ => exact ⟨[nilToken], _, .nilWord rfl⟩

/-- Where a whole token list is refused it has an expression behind it that is
begun, and no complete expression goes on like the rest. -/
theorem whole_stops {tokens rest : List Token} {mismatch : Mismatch}
    (refused : Reader.reply (budgetFor tokens) tokens .whole =
      .refused mismatch rest) :
    ∃ used, tokens = used ++ rest ∧ mismatch.found = peek rest ∧
      Completable .expression used ∧
      ∀ word tree finish rest', Derives .expression word tree →
        finish.kind = .endOfInput → LooksLike rest rest' →
        word ++ [finish] ≠ used ++ rest' := by
  have wordReads {word : List Token} {tree : Expr} {finish : Token}
      (derives : Derives .expression word tree)
      (isEnd : finish.kind = .endOfInput) :
      descent.answer .expression (word ++ [finish]) = .read tree [finish] :=
    answer_of_derives derives [finish]
      (loose_of_no_operator (by simp [peek_cons, Token.operator?, isEnd]))
  have proceeds := descent.answer_proceeds .expression tokens
  rw [Reader.reply_whole] at refused
  rcases Reply.andThen_eq_refused_iff.mp refused with
    result | ⟨first, middle, result, finished⟩
  · obtain ⟨used, split, refuses⟩ :=
      stops .expression tokens mismatch rest result
    rw [result] at proceeds
    refine ⟨used, split, proceeds.2, refuses.completable, ?_⟩
    intro word tree finish rest' derives isEnd looks same
    have reads := wordReads derives isEnd
    rw [same, (refuses.alike looks).answer_eq] at reads
    cases reads
  · obtain ⟨used, split, firstDerives, readsBefore⟩ :=
      answer_read .expression rfl result
    by_cases atEnd : isAtEnd middle = true
    · simp [atEnd] at finished
    · rw [if_neg atEnd] at finished
      cases finished
      refine ⟨used, split, rfl, ⟨[], first, ?_⟩, ?_⟩
      · rwa [List.append_nil]
      · intro word tree finish rest' derives isEnd looks same
        have reads := wordReads derives isEnd
        rw [same, readsBefore rest' looks] at reads
        cases reads
        apply atEnd
        rw [isAtEnd, looks.here]
        exact decide_eq_true isEnd

end Grammar

namespace Reader

open Reading Grammar

theorem reply_of_read_whole {tokens : List Token} {mismatch : Mismatch}
    {moved : Reader}
    (refused : (ofTokens tokens).read .whole = (.error mismatch, moved)) :
    ∃ rest, reply (budgetFor (close tokens)) (close tokens) .whole =
        .refused mismatch rest ∧ moved = (ofTokens tokens).moveTo rest := by
  have enough := whole_ne_exhausted (close tokens)
  simp only [read, ofTokens, rest, List.drop_zero, reply] at refused enough ⊢
  cases result : whole (budgetFor (close tokens)) (close tokens) with
  | read tree rest => simp [result] at refused
  | refused found rest =>
      simp only [result, Prod.mk.injEq, Except.error.injEq] at refused
      obtain ⟨rfl, rfl⟩ := refused
      exact ⟨rest, rfl, rfl⟩
  | exhausted => exact absurd result enough

/-- A list with an end does not stop short of it. -/
theorem exists_cons_of_completable {front used rest : List Token}
    {last : Token} (isEnd : last.kind = .endOfInput)
    (split : front ++ [last] = used ++ rest)
    (completable : Completable .expression used) :
    ∃ wrong behind, rest = wrong :: behind := by
  obtain ⟨completion, tree, derives⟩ := completable
  cases rest with
  | cons wrong behind => exact ⟨wrong, behind, rfl⟩
  | nil =>
      have member : last ∈ used ++ completion := by
        rw [List.append_nil] at split
        simp [← split]
      exact absurd isEnd (derives.kind_ne_endOfInput last member)

/-- A refusal points at the first wrong token.  The tokens before it begin an
expression; no expression, followed by an end, begins with them and the wrong
token, or with the next token as well if the wrong one is a name. -/
theorem refusal_at_first_wrong_token (front : List Token) (last : Token)
    (isEnd : last.kind = .endOfInput) (mismatch : Mismatch) (moved : Reader)
    (refused : (ofTokens (front ++ [last])).read .whole =
      (.error mismatch, moved)) :
    ∃ before wrong behind,
      front ++ [last] = before ++ wrong :: behind ∧
        moved = { tokens := front ++ [last], position := before.length } ∧
        mismatch.fault =
          .grammatical wrong.line wrong.place mismatch.expected.detail ∧
        (Reading.records (.error mismatch)).filterMap Record.event? =
          [.error mismatch.fault.message] ∧
        (∃ completion tree,
          Derives .expression (before ++ completion) tree) ∧
        (wrong.kind ≠ .identifier →
          ∀ word tree finish, Derives .expression word tree →
            finish.kind = .endOfInput →
            ¬ before ++ [wrong] <+: word ++ [finish]) ∧
        (wrong.kind = .identifier →
          ∃ next later, behind = next :: later ∧
            ∀ word tree finish, Derives .expression word tree →
              finish.kind = .endOfInput →
              ¬ before ++ [wrong, next] <+: word ++ [finish]) := by
  obtain ⟨rest, replied, rfl⟩ := reply_of_read_whole refused
  rw [Expr.close_of_end isEnd] at replied
  obtain ⟨before, split, found, completable, blocked⟩ := whole_stops replied
  obtain ⟨wrong, behind, rfl⟩ :=
    exists_cons_of_completable isEnd split completable
  have closed : (ofTokens (front ++ [last])).tokens =
      before ++ wrong :: behind := by
    rw [ofTokens, Expr.close_of_end isEnd, split]
  refine ⟨before, wrong, behind, split, ?_, ?_, rfl, completable, ?_, ?_⟩
  · rw [moveTo_eq closed, ofTokens, Expr.close_of_end isEnd]
  · rw [Mismatch.fault, found]
    rfl
  · rintro noName word tree finish derives finishes ⟨tail, same⟩
    have looks : LooksLike (wrong :: behind) (wrong :: tail) :=
      ⟨rfl, fun isName => absurd isName noName⟩
    apply blocked word tree finish _ derives finishes looks
    rw [← same, List.append_assoc, List.singleton_append]
  · intro isName
    have wrongInner : wrong.kind ≠ .endOfInput := by simp [isName]
    cases behind with
    | nil =>
        obtain ⟨_, same⟩ := List.append_inj' split rfl
        cases same
        exact absurd isEnd wrongInner
    | cons next later =>
        refine ⟨next, later, rfl, ?_⟩
        rintro word tree finish derives finishes ⟨tail, same⟩
        have looks : LooksLike (wrong :: next :: later)
            (wrong :: next :: tail) :=
          ⟨rfl, fun _ => by
            rw [advance_cons wrongInner, advance_cons wrongInner, peek_cons,
              peek_cons]⟩
        apply blocked word tree finish _ derives finishes looks
        rw [← same, List.append_assoc]
        rfl

/-- The tokens of `a = (nil b`, with the second name on line 2. -/
def unclosedTokens : List Token :=
  [⟨.identifier, "a", none, 1⟩, ⟨.equalSign, "=", none, 1⟩,
    ⟨.leftParen, "(", none, 1⟩, ⟨.keyword .nilWord, "nil", none, 1⟩,
    ⟨.identifier, "b", none, 2⟩]

theorem unclosedTokens_refused :
    ∃ mismatch moved,
      (ofTokens (unclosedTokens ++ [Token.endOfInput 2])).read .whole =
        (.error mismatch, moved) ∧
      mismatch.fault =
        .grammatical 2 "'b'" "Expected ')' after expression." ∧
      (∃ completion tree,
        Derives .expression (unclosedTokens.take 4 ++ completion) tree) ∧
      ∀ word tree finish, Derives .expression word tree →
        finish.kind = .endOfInput →
        ¬ unclosedTokens ++ [Token.endOfInput 2] <+: word ++ [finish] := by
  refine ⟨⟨.rightParen, unclosedTokens[4]⟩, ⟨_, 4⟩, rfl, rfl, ?_⟩
  obtain ⟨before, wrong, behind, split, moved, _, _, completable, _, named⟩ :=
    refusal_at_first_wrong_token unclosedTokens (Token.endOfInput 2) rfl
      ⟨.rightParen, unclosedTokens[4]⟩ ⟨_, 4⟩ rfl
  have sameLength : 4 = before.length := congrArg Reader.position moved
  have same : unclosedTokens.take 4 ++
      [unclosedTokens[4], Token.endOfInput 2] = before ++ wrong :: behind :=
    split
  obtain ⟨rfl, rest⟩ := List.append_inj same sameLength
  cases rest
  obtain ⟨next, later, rest, blocked⟩ := named rfl
  cases rest
  exact ⟨completable, blocked⟩

end Reader

end LoxExpr
