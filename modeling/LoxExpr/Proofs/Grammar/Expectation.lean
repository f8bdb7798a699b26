import Mathlib.Data.List.Basic
import LoxExpr.Proofs.Grammar.Refusal

/-!
# What a refusal asks for

A reading is refused while an operand is asked for, in front of a group that is
not closed, or behind a complete expression.  Which of the three it is can be
told from the tokens before the refusal alone.  A complete expression is never
the beginning of a group that is open, since its parentheses balance; and no
phrase ends, or is closed, where an operand is asked for.
-/

namespace LoxExpr

/-- Behind a token of the kind, an expression goes on with an operand. -/
def Token.Kind.asks : Token.Kind → Bool
  | .operator _ => true
  | .equalSign => true
  | .leftParen => true
  | _ => false

namespace Grammar

open Reading

theorem Derives.ne_nil {phrase : Phrase} (solid : phrase.gain = 1)
    {tokens : List Token} {tree : Expr}
    (derives : Derives phrase tokens tree) : tokens ≠ [] := by
  rcases derives.first with ⟨token, rest, rfl, _⟩ | ⟨_, level, rfl⟩
  · exact List.cons_ne_nil token rest
  · simp [Phrase.gain] at solid

theorem Derives.parentheses_balance {phrase : Phrase} {tokens : List Token}
    {tree : Expr} (derives : Derives phrase tokens tree) :
    tokens.countP (·.kind = .leftParen) =
      tokens.countP (·.kind = .rightParen) := by
  induction derives with
  | assignment isName isSign _ induction => simp [isName, isSign, induction]
  | equality _ induction => exact induction
  | chain _ _ first others => simp [first, others]
  | noLink => rfl
  | link isSymbol _ _ _ operand others => simp [isSymbol, operand, others]
  | signed isSign _ induction =>
      rcases isSign with isSign | isSign <;> simp [isSign, induction]
  | primary _ induction => exact induction
  | trueWord isWord | falseWord isWord | nilWord isWord | number isWord
  | string isWord => simp [isWord]
  | group isOpening _ isClosing induction =>
      simp [isOpening, isClosing, induction]

/-- An operand is asked for behind the tokens, as at the beginning. -/
def Asking (used : List Token) : Prop :=
  ∀ token ∈ used.getLast?, token.kind.asks = true

/-- The tokens begin with a closing parenthesis, or there are none. -/
def Closing (rest : List Token) : Prop :=
  ∀ token ∈ rest.head?, token.kind = .rightParen

theorem asking_nil : Asking [] := by
  simp [Asking]

theorem Asking.of_append {before used : List Token}
    (asking : Asking (before ++ used)) (given : used ≠ []) : Asking used := by
  intro token isLast
  apply asking token
  rw [List.getLast?_append_of_ne_nil before given]
  exact isLast

theorem Asking.append {before used : List Token} (given : used ≠ [])
    (asking : Asking used) : Asking (before ++ used) := by
  rw [Asking, List.getLast?_append_of_ne_nil before given]
  exact asking

theorem Asking.of_cons {token : Token} {used : List Token}
    (asking : Asking (token :: used)) : Asking used := by
  cases used with
  | nil => exact asking_nil
  | cons next others =>
      have asks : Asking ([token] ++ next :: others) := asking
      exact asks.of_append (List.cons_ne_nil next others)

theorem Closing.of_append {rest behind : List Token}
    (closing : Closing (rest ++ behind)) : Closing rest := by
  intro token isFirst
  apply closing token
  cases rest with
  | nil => simp at isFirst
  | cons first others => exact isFirst

/-- The tokens neither end nor are closed where they ask for an operand. -/
def Seamless (tokens : List Token) : Prop :=
  ∀ before rest, tokens = before ++ rest → Asking before → ¬ Closing rest

namespace Seamless

variable {tokens : List Token}

theorem of_token {token : Token} (noCall : token.kind.asks = false)
    (noClosing : token.kind ≠ .rightParen) : Seamless [token] := by
  intro before rest split asking closing
  rcases List.append_eq_singleton_iff.mp split.symm with
    ⟨rfl, rfl⟩ | ⟨rfl, rfl⟩
  · exact noClosing (closing token rfl)
  · simp [asking token rfl] at noCall

theorem cons {token : Token} (noClosing : token.kind ≠ .rightParen)
    (seamless : Seamless tokens) : Seamless (token :: tokens) := by
  intro before rest split asking closing
  cases before with
  | nil =>
      rw [List.nil_append] at split
      subst split
      exact noClosing (closing token rfl)
  | cons first used =>
      obtain ⟨rfl, splitBehind⟩ := List.cons.inj split
      exact seamless used rest splitBehind asking.of_cons closing

theorem append {others : List Token} (seamless : Seamless tokens)
    (goesOn : others ≠ [] → Seamless others) :
    Seamless (tokens ++ others) := by
  intro before rest split asking closing
  rcases List.append_eq_append_iff.mp split with
    ⟨used, rfl, rfl⟩ | ⟨left, rfl, rfl⟩
  · cases used with
    | nil =>
        rw [List.append_nil] at asking
        exact seamless tokens [] (List.append_nil tokens).symm asking
          (by simp [Closing])
    | cons first later =>
        have given := List.cons_ne_nil first later
        exact goesOn (by simp) _ rest rfl (asking.of_append given) closing
  · exact seamless before left rfl asking closing.of_append

theorem closed {closing : Token} (isClosing : closing.kind = .rightParen)
    (seamless : Seamless tokens) : Seamless (tokens ++ [closing]) := by
  intro before rest split asking closes
  rcases List.append_eq_append_iff.mp split with
    ⟨used, rfl, tail⟩ | ⟨left, rfl, rfl⟩
  · rcases List.append_eq_singleton_iff.mp tail.symm with
      ⟨rfl, rfl⟩ | ⟨rfl, rfl⟩
    · rw [List.append_nil] at asking
      exact seamless tokens [] (List.append_nil tokens).symm asking
        (by simp [Closing])
    · have asks := asking closing (by simp)
      simp [isClosing, Token.Kind.asks] at asks
  · exact seamless before left rfl asking closes.of_append

end Seamless

theorem Derives.seamless {phrase : Phrase} {tokens : List Token}
    {tree : Expr} (derives : Derives phrase tokens tree) :
    tokens ≠ [] → Seamless tokens := by
  induction derives with
  | assignment isName isSign assigned induction =>
      intro _
      exact ((induction (assigned.ne_nil rfl)).cons (by simp [isSign])).cons
        (by simp [isName])
  | equality _ induction => exact induction
  | @chain level _ _ _ _ operandDerives _ operand links =>
      intro _
      have given := operandDerives.ne_nil (Phrase.gain_operand level)
      exact (operand given).append links
  | noLink =>
      intro given
      exact absurd rfl given
  | @link level _ _ _ _ _ _ _ isSymbol _ operandDerives _ operand links =>
      intro _
      have given := operandDerives.ne_nil (Phrase.gain_operand level)
      exact ((operand given).append links).cons (by simp [isSymbol])
  | signed isSign operandDerives induction =>
      intro _
      refine (induction (operandDerives.ne_nil rfl)).cons ?_
      rcases isSign with isSign | isSign <;> simp [isSign]
  | primary _ induction => exact induction
  | trueWord isWord | falseWord isWord | nilWord isWord | number isWord
  | string isWord =>
      intro _
      exact .of_token (by simp [isWord, Token.Kind.asks]) (by simp [isWord])
  | group isOpening innerDerives isClosing induction =>
      intro _
      exact ((induction (innerDerives.ne_nil rfl)).closed isClosing).cons
        (by simp [isOpening])

/-- How the beginning of a phrase is left where something is expected: an
operand is asked for, or closing parentheses complete the phrase. -/
inductive Left (phrase : Phrase) (used : List Token) : Expectation → Prop where
  | asking : phrase.gain = 1 ∨ used ≠ [] → Asking used →
      Left phrase used .expression
  | unclosed {closings : List Token} {tree : Expr} :
      closings ≠ [] →
      (∀ closing ∈ closings, closing.kind = .rightParen) →
      Derives phrase (used ++ closings) tree →
      Left phrase used .rightParen

namespace Left

variable {outer inner : Phrase} {before used : List Token}
  {expected : Expectation}

/-- A phrase is left as its last part is. -/
theorem behind (left : Left inner used expected)
    (fresh : outer.gain = 1 ∨ before ≠ [])
    (asking : inner.gain = 1 → Asking before)
    (completes : ∀ last tree, Derives inner last tree →
      ∃ whole, Derives outer (before ++ last) whole) :
    Left outer (before ++ used) expected := by
  cases left with
  | asking freshInner askingInner =>
      refine .asking (fresh.imp_right (List.append_ne_nil_of_left_ne_nil · _))
        ?_
      by_cases given : used = []
      · subst given
        rw [List.append_nil]
        exact asking (freshInner.resolve_right (not_not_intro rfl))
      · exact askingInner.append given
  | unclosed given allClosing derives =>
      obtain ⟨whole, wholeDerives⟩ := completes _ _ derives
      rw [← List.append_assoc] at wholeDerives
      exact .unclosed given allClosing wholeDerives

/-- A phrase that stands for another is left as that one. -/
theorem asPhrase (left : Left inner used expected) (solid : outer.gain = 1)
    (stands : ∀ tokens tree, Derives inner tokens tree →
      Derives outer tokens tree) : Left outer used expected := by
  have behindNothing : Left outer ([] ++ used) expected :=
    left.behind (.inl solid) (fun _ => asking_nil)
      fun last tree derives => ⟨tree, stands last tree derives⟩
  exact behindNothing

/-- One more parenthesis closes a group than the expression in it. -/
theorem group {opening : Token} (isOpening : opening.kind = .leftParen)
    (left : Left .expression used expected) :
    Left .primary (opening :: used) expected := by
  cases left with
  | asking _ asking =>
      have opens : Asking [opening] := by
        simp [Asking, isOpening, Token.Kind.asks]
      refine .asking (.inl rfl) ?_
      cases used with
      | nil => exact opens
      | cons first others =>
          have asks : Asking ([opening] ++ first :: others) :=
            asking.append (List.cons_ne_nil first others)
          exact asks
  | @unclosed closings inside _ allClosing derives =>
      have group : Derives .primary
          (opening :: ((used ++ closings) ++ [closingToken]))
          (.group inside) := .group isOpening derives rfl
      rw [List.append_assoc] at group
      refine .unclosed (by simp) ?_ group
      intro closing member
      rcases List.mem_append.mp member with member | member
      · exact allClosing closing member
      · rw [List.mem_singleton.mp member]
        rfl

end Left

theorem Refuses.left {phrase : Phrase} {used rest : List Token}
    {expected : Expectation} (refuses : Refuses phrase used rest expected) :
    Left phrase used expected := by
  induction refuses with
  | @assigned name sign _ _ _ isName isSign _ induction =>
      have asks : Asking [name, sign] := by
        simp [Asking, isSign, Token.Kind.asks]
      exact induction.behind (.inl rfl) (fun _ => asks)
        fun _ _ derives => ⟨_, .assignment isName isSign derives⟩
  | equality _ _ induction =>
      exact induction.asPhrase rfl fun _ _ derives => .equality derives
  | @operand level _ _ _ _ induction =>
      exact induction.asPhrase rfl
        fun _ _ derives => derives.chain_of_operand level
  | links operandDerives _ _ induction =>
      refine induction.behind (.inl rfl) ?_
        fun _ tree linksDerive => ⟨tree, .chain operandDerives linksDerive⟩
      intro solid
      simp [Phrase.gain] at solid
  | @right level left operator _ _ _ _ isSymbol member _ induction =>
      have asks : Asking [operator] := by
        simp [Asking, isSymbol, Token.Kind.asks]
      refine induction.behind (.inr (List.cons_ne_nil _ _)) (fun _ => asks) ?_
      intro operand right derives
      have link : Derives (.links level left) (operator :: (operand ++ []))
          (.binary left operator right) :=
        .link isSymbol member derives .noLink
      rw [List.append_nil] at link
      exact ⟨_, link⟩
  | link isSymbol member operandDerives _ _ induction =>
      refine induction.behind (.inr (List.cons_ne_nil _ _)) ?_
        fun _ tree linksDerive =>
          ⟨tree, .link isSymbol member operandDerives linksDerive⟩
      intro solid
      simp [Phrase.gain] at solid
  | @signed operator _ _ _ isSign _ induction =>
      have asks : Asking [operator] := by
        rcases isSign with isSign | isSign <;>
          simp [Asking, isSign, Token.Kind.asks]
      exact induction.behind (.inl rfl) (fun _ => asks)
        fun _ _ derives => ⟨_, .signed isSign derives⟩
  | primary _ _ induction =>
      exact induction.asPhrase rfl fun _ _ derives => .primary derives
  | inside isOpening _ induction => exact induction.group isOpening
  | unclosed isOpening derives _ _ =>
      exact .unclosed (List.cons_ne_nil closingToken [])
        (by simp [closingToken]) (.group isOpening derives rfl)
  | noOperand _ => exact .asking (.inl rfl) asking_nil

/-- The tokens are an expression. -/
def Complete (tokens : List Token) : Prop :=
  ∃ tree, Derives .expression tokens tree

/-- The tokens lack nothing but closing parentheses. -/
def Closable (tokens : List Token) : Prop :=
  ∃ closings, closings ≠ [] ∧
    (∀ closing ∈ closings, closing.kind = .rightParen) ∧
    Complete (tokens ++ closings)

/-- An expression is no longer one behind which parentheses are closed. -/
theorem Complete.not_closable {tokens : List Token}
    (complete : Complete tokens) : ¬ Closable tokens := by
  rintro ⟨closings, given, allClosing, whole, wholeDerives⟩
  obtain ⟨tree, derives⟩ := complete
  have balance := derives.parentheses_balance
  have wholeBalance := wholeDerives.parentheses_balance
  have noOpening : closings.countP (·.kind = .leftParen) = 0 := by
    rw [List.countP_eq_zero]
    intro closing member
    simp [allClosing closing member]
  have closingCount :
      closings.countP (·.kind = .rightParen) = closings.length := by
    rw [List.countP_eq_length]
    intro closing member
    simp [allClosing closing member]
  rw [List.countP_append, List.countP_append] at wholeBalance
  have positive := List.length_pos_iff.mpr given
  omega

/-- What asks for an operand is no expression. -/
theorem not_complete_of_asking {used behind : List Token}
    (asking : Asking used) (closing : Closing behind) :
    ¬ Complete (used ++ behind) := by
  rintro ⟨tree, derives⟩
  exact derives.seamless (derives.ne_nil rfl) used behind rfl asking closing

/-- A whole token list is refused behind an expression, or within one. -/
theorem whole_refuses {tokens rest : List Token} {mismatch : Mismatch}
    (refused : Reader.reply (budgetFor tokens) tokens .whole =
      .refused mismatch rest) :
    ∃ used, tokens = used ++ rest ∧
      (Complete used ∧ mismatch.expected = .endOfInput ∨
        Left .expression used mismatch.expected) := by
  rw [Reader.reply_whole] at refused
  rcases Reply.andThen_eq_refused_iff.mp refused with
    result | ⟨tree, middle, result, finished⟩
  · obtain ⟨used, split, refuses⟩ :=
      stops .expression tokens mismatch rest result
    exact ⟨used, split, .inr refuses.left⟩
  · obtain ⟨used, split, derives⟩ :=
      derives_of_answer .expression tokens tree middle result
    by_cases atEnd : isAtEnd middle = true
    · simp [atEnd] at finished
    · rw [if_neg atEnd] at finished
      cases finished
      exact ⟨used, split, .inl ⟨⟨tree, derives⟩, rfl⟩⟩

/-- What is expected tells how the tokens before it are left. -/
theorem expected_iff {used : List Token} {expected : Expectation}
    (ending : Complete used ∧ expected = .endOfInput ∨
      Left .expression used expected) :
    (expected = .endOfInput ↔ Complete used) ∧
      (expected = .rightParen ↔ ¬ Complete used ∧ Closable used) ∧
      (expected = .expression ↔ ¬ Complete used ∧ ¬ Closable used) ∧
      expected ≠ .leftParen := by
  rcases ending with ⟨complete, rfl⟩ | left
  · simp [complete]
  · cases left with
    | asking _ asking =>
        have incomplete : ¬ Complete used := by
          have nothingBehind : ¬ Complete (used ++ []) :=
            not_complete_of_asking asking (by simp [Closing])
          rwa [List.append_nil] at nothingBehind
        have notClosable : ¬ Closable used := by
          rintro ⟨closings, _, allClosing, complete⟩
          refine not_complete_of_asking asking ?_ complete
          intro closing isFirst
          exact allClosing closing (List.mem_of_mem_head? isFirst)
        simp [incomplete, notClosable]
    | unclosed given allClosing derives =>
        have closable : Closable used :=
          ⟨_, given, allClosing, _, derives⟩
        have incomplete : ¬ Complete used :=
          fun complete => complete.not_closable closable
        simp [incomplete, closable]

end Grammar

theorem Expectation.detail_inj {expected expected' : Expectation} :
    expected.detail = expected'.detail ↔ expected = expected' := by
  cases expected <;> cases expected' <;> simp [detail]

namespace Reader

open Grammar

/-- The message of a refusal says how the tokens before it are left.  Behind a
complete expression an end is missing; where closing parentheses are all that
is missing for one, a parenthesis is; and everywhere else an expression. -/
theorem refusal_names_mistake (tokens : List Token) (mismatch : Mismatch)
    (moved : Reader)
    (refused : (ofTokens tokens).read .whole = (.error mismatch, moved)) :
    ∃ before wrong behind,
      close tokens = before ++ wrong :: behind ∧
        moved = { tokens := close tokens, position := before.length } ∧
        mismatch.fault =
          .grammatical wrong.line wrong.place mismatch.expected.detail ∧
        (mismatch.expected.detail = "Expected end of input." ↔
          Complete before) ∧
        (mismatch.expected.detail = "Expected ')' after expression." ↔
          ¬ Complete before ∧ Closable before) ∧
        (mismatch.expected.detail = "Expected expression." ↔
          ¬ Complete before ∧ ¬ Closable before) ∧
        mismatch.expected.detail ≠ "Expected '(' before expression." := by
  obtain ⟨rest, replied, rfl⟩ := reply_of_read_whole refused
  obtain ⟨before, split, found, completable, _⟩ := whole_stops replied
  obtain ⟨used, splitUsed, ending⟩ := whole_refuses replied
  obtain rfl : used = before :=
    List.append_cancel_right (splitUsed.symm.trans split)
  obtain ⟨last, isLast, isEnd⟩ := getLast?_close tokens
  obtain ⟨front, closed⟩ := List.getLast?_eq_some_iff.mp isLast
  obtain ⟨wrong, behind, rfl⟩ :=
    exists_cons_of_completable isEnd (closed.symm.trans split) completable
  obtain ⟨complete, closable, neither, noOpening⟩ := expected_iff ending
  refine ⟨used, wrong, behind, split, moveTo_eq split, ?_, ?_, ?_, ?_, ?_⟩
  · rw [Mismatch.fault, found]
    rfl
  · rw [← complete, ← Expectation.detail_inj]
    rfl
  · rw [← closable, ← Expectation.detail_inj]
    rfl
  · rw [← neither, ← Expectation.detail_inj]
    rfl
  · rw [ne_eq, ← Expectation.detail_inj] at noOpening
    exact noOpening

/-- The tokens of `!(nil`. -/
def openTokens : List Token :=
  [⟨.operator .not, "!", none, 1⟩, ⟨.leftParen, "(", none, 1⟩, nilToken]

theorem openTokens_refused :
    ∃ mismatch moved,
      (ofTokens (openTokens ++ [Token.endOfInput 1])).read .whole =
        (.error mismatch, moved) ∧
      mismatch.expected.detail = "Expected ')' after expression." ∧
      moved.position = 3 ∧ ¬ Complete openTokens ∧ Closable openTokens := by
  refine ⟨⟨.rightParen, Token.endOfInput 1⟩, ⟨_, 3⟩, rfl, rfl, rfl, ?_⟩
  obtain ⟨before, wrong, behind, split, moved, _, _, closable, _⟩ :=
    refusal_names_mistake (openTokens ++ [Token.endOfInput 1])
      ⟨.rightParen, Token.endOfInput 1⟩ ⟨_, 3⟩ rfl
  have sameLength : openTokens.length = before.length :=
    congrArg Reader.position moved
  have same : openTokens ++ [Token.endOfInput 1] = before ++ wrong :: behind :=
    split
  obtain ⟨rfl, _⟩ := List.append_inj same sameLength
  exact closable.mp rfl

end Reader

end LoxExpr
