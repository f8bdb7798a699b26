import LoxExpr.Proofs.Grammar.Agreement

/-!
# Recognition

The descent reads a tree exactly where the grammar derives it.  What it
consumes is derived by the phrase, and what a phrase derives is read again in
front of every rest that cannot prolong it.  So a token list with one end is
read as a whole exactly when the grammar derives what stands before the end.
-/

namespace LoxExpr

namespace Grammar

open Reading

/-- What the descent consumes at a place is derived by its phrase. -/
def Sound (phrase : Phrase) (tokens : List Token) : Prop :=
  ∀ tree rest, descent.answer phrase tokens = .read tree rest →
    ∃ used, tokens = used ++ rest ∧ Derives phrase used tree

section Soundness

variable {tokens : List Token}

theorem split_behind {used rest : List Token}
    (inner : (peek tokens).kind ≠ .endOfInput)
    (split : advance tokens = used ++ rest) :
    tokens = peek tokens :: used ++ rest := by
  rw [List.cons_append, ← split, cons_advance inner]

theorem expression_sound
    (later : ∀ phrase rest,
      Phrase.cost phrase rest < Phrase.cost .expression tokens →
        Sound phrase rest) :
    Sound .expression tokens := by
  intro tree rest result
  rw [answer_eq_step] at result
  simp only [Phrase.step] at result
  split at result
  · next starts =>
      obtain ⟨isName, isSign⟩ := starts
      have fewer := (passes_assignment
        (startsAssignment_iff.mpr ⟨isName, isSign⟩)).pending_le
      obtain ⟨assigned, behind, assignedResult, finished⟩ :=
        Reply.andThen_eq_read_iff.mp result
      cases finished
      obtain ⟨used, split, derives⟩ :=
        later .expression _ (Phrase.cost_lt_of_pending_lt (by omega))
          assigned rest assignedResult
      have splitSign := split_behind (by simp [isSign]) split
      exact ⟨peek tokens :: peek (advance tokens) :: used,
        split_behind (by simp [isName]) splitSign,
        .assignment isName isSign derives⟩
  · obtain ⟨used, split, derives⟩ :=
      later (.chain .equality) tokens (Phrase.cost_lt_of_rank_lt (by decide))
        tree rest result
    exact ⟨used, split, .equality derives⟩

theorem pending_lt_of_operand {level : Level} {tree : Expr}
    {rest : List Token}
    (result : descent.answer level.operand tokens = .read tree rest) :
    pending rest < pending tokens := by
  have passes := descent.answer_proceeds level.operand tokens
  rw [result] at passes
  have fewer : pending rest + level.operand.gain ≤ pending tokens :=
    passes.pending_le
  rwa [Phrase.gain_operand] at fewer

theorem chain_sound (level : Level)
    (later : ∀ phrase rest,
      Phrase.cost phrase rest < Phrase.cost (.chain level) tokens →
        Sound phrase rest) :
    Sound (.chain level) tokens := by
  intro tree rest result
  rw [answer_chain] at result
  obtain ⟨left, middle, operandResult, linksResult⟩ :=
    Reply.andThen_eq_read_iff.mp result
  have fewer := pending_lt_of_operand operandResult
  obtain ⟨first, split, operandDerives⟩ :=
    later level.operand tokens
      (Phrase.cost_lt_of_rank_lt (Phrase.rank_operand_lt level))
      left middle operandResult
  obtain ⟨others, splitOthers, linksDerive⟩ :=
    later (.links level left) middle (Phrase.cost_lt_of_pending_lt fewer)
      tree rest linksResult
  refine ⟨first ++ others, ?_, .chain operandDerives linksDerive⟩
  rw [split, splitOthers, List.append_assoc]

theorem links_sound (level : Level) (left : Expr)
    (later : ∀ phrase rest,
      Phrase.cost phrase rest < Phrase.cost (.links level left) tokens →
        Sound phrase rest) :
    Sound (.links level left) tokens := by
  intro tree rest result
  by_cases bound : binding? tokens = some (level.strength, .left)
  · rw [answer_links_of_binds bound] at result
    obtain ⟨right, middle, operandResult, linksResult⟩ :=
      Reply.andThen_eq_read_iff.mp result
    obtain ⟨symbol, isSymbol, member⟩ := binding?_eq_strength_iff.mp bound
    have inner := not_end_of_binding? bound
    have fewerBehind := pending_advance inner
    have fewer := pending_lt_of_operand operandResult
    obtain ⟨operand, split, operandDerives⟩ :=
      later level.operand (advance tokens)
        (Phrase.cost_lt_of_pending_lt fewerBehind) right middle operandResult
    obtain ⟨others, splitOthers, linksDerive⟩ :=
      later _ middle (Phrase.cost_lt_of_pending_lt (by omega))
        tree rest linksResult
    have splitBoth : advance tokens = (operand ++ others) ++ rest := by
      rw [split, splitOthers, List.append_assoc]
    exact ⟨peek tokens :: (operand ++ others), split_behind inner splitBoth,
      .link (operator?_eq_some_iff.mp isSymbol) member operandDerives
        linksDerive⟩
  · rw [answer_links_of_not_binds bound] at result
    cases result
    exact ⟨[], rfl, .noLink⟩

theorem unary_sound
    (later : ∀ phrase rest,
      Phrase.cost phrase rest < Phrase.cost .unary tokens →
        Sound phrase rest) :
    Sound .unary tokens := by
  intro tree rest result
  rw [answer_eq_step] at result
  simp only [Phrase.step] at result
  split at result
  · next isSign =>
      have inner := ne_endOfInput_of_sign isSign
      obtain ⟨operand, behind, operandResult, finished⟩ :=
        Reply.andThen_eq_read_iff.mp result
      cases finished
      obtain ⟨used, split, derives⟩ :=
        later .unary (advance tokens)
          (Phrase.cost_lt_of_pending_lt (pending_advance inner))
          operand rest operandResult
      exact ⟨peek tokens :: used, split_behind inner split,
        .signed isSign derives⟩
  · obtain ⟨used, split, derives⟩ :=
      later .primary tokens (Phrase.cost_lt_of_rank_lt (by decide))
        tree rest result
    exact ⟨used, split, .primary derives⟩

theorem primary_sound
    (later : ∀ phrase rest,
      Phrase.cost phrase rest < Phrase.cost .primary tokens →
        Sound phrase rest) :
    Sound .primary tokens := by
  intro tree rest result
  have single (inner : (peek tokens).kind ≠ .endOfInput) :
      tokens = [peek tokens] ++ advance tokens :=
    (cons_advance inner).symm
  rw [answer_eq_step] at result
  simp only [Phrase.step] at result
  split at result
  · next isWord =>
      cases result
      exact ⟨_, single (by simp [isWord]), .trueWord isWord⟩
  · next isWord =>
      cases result
      exact ⟨_, single (by simp [isWord]), .falseWord isWord⟩
  · next isWord =>
      cases result
      exact ⟨_, single (by simp [isWord]), .nilWord isWord⟩
  · next isNumber =>
      cases result
      exact ⟨_, single (by simp [isNumber]), .number isNumber⟩
  · next isString =>
      cases result
      exact ⟨_, single (by simp [isString]), .string isString⟩
  · next isOpening =>
      have inner : (peek tokens).kind ≠ .endOfInput := by simp [isOpening]
      obtain ⟨inside, behind, insideResult, finished⟩ :=
        Reply.andThen_eq_read_iff.mp result
      obtain ⟨used, split, derives⟩ :=
        later .expression (advance tokens)
          (Phrase.cost_lt_of_pending_lt (pending_advance inner))
          inside behind insideResult
      unfold expect at finished
      split at finished
      · next isClosing =>
          cases finished
          have splitClosing : advance tokens =
              (used ++ [peek behind]) ++ advance behind := by
            rw [List.append_assoc, List.singleton_append,
              cons_advance (by simp [isClosing]), split]
          exact ⟨peek tokens :: (used ++ [peek behind]),
            split_behind inner splitClosing,
            .group isOpening derives isClosing⟩
      · cases finished
  · cases result

end Soundness

theorem derives_of_answer (phrase : Phrase) (tokens : List Token) :
    Sound phrase tokens := by
  induction phrase, tokens using descent.cost_induction with
  | step phrase tokens later =>
      cases phrase with
      | expression => exact expression_sound later
      | chain level => exact chain_sound level later
      | links level left => exact links_sound level left later
      | unary => exact unary_sound later
      | primary => exact primary_sound later

/-- The least strength with which an operator behind a phrase prolongs it. -/
def Phrase.strength : Phrase → Nat
  | .expression => 1
  | .chain level => level.strength
  | .links level _ => level.strength
  | .unary => 5
  | .primary => 5

theorem strength_operand (level : Level) :
    level.operand.strength = level.strength + 1 := by
  cases level <;> rfl

theorem loose_of_no_operator {least : Nat} {tokens : List Token}
    (none : (peek tokens).operator? = none) : Loose least tokens := by
  intro precedence associativity bound
  simp [binding?, none] at bound

/-- What follows an operand of a level does not prolong it, be it a link of
the level or what follows the whole chain. -/
theorem loose_of_links {level : Level} {left tree : Expr}
    {others rest : List Token}
    (derives : Derives (.links level left) others tree)
    (loose : Loose level.strength rest) :
    Loose (level.strength + 1) (others ++ rest) := by
  intro precedence associativity bound
  rcases derives.first with ⟨token, behind, rfl, member⟩ | ⟨rfl, _⟩
  · obtain ⟨symbol, inLevel, isSymbol⟩ := List.mem_map.mp member
    have binds : binding? (token :: behind ++ rest) =
        some (level.strength, .left) :=
      binding?_eq_strength_iff.mpr
        ⟨symbol, operator?_eq_some_iff.mpr isSymbol.symm, inLevel⟩
    rw [binds] at bound
    cases bound
    exact Nat.lt_succ_self _
  · exact Nat.lt_succ_of_lt (loose precedence associativity bound)

theorem Derives.peek_mem {phrase : Phrase} {used : List Token} {tree : Expr}
    (derives : Derives phrase used tree) (solid : phrase.gain = 1)
    (rest : List Token) :
    (peek (used ++ rest)).kind ∈ phrase.firstKinds := by
  rcases derives.first with ⟨token, behind, rfl, member⟩ | ⟨_, level, rfl⟩
  · exact member
  · simp [Phrase.gain] at solid

/-- What a phrase derives is read in front of everything that does not
prolong it. -/
theorem answer_of_derives {phrase : Phrase} {used : List Token} {tree : Expr}
    (derives : Derives phrase used tree) (rest : List Token)
    (loose : Loose phrase.strength rest) :
    descent.answer phrase (used ++ rest) = .read tree rest := by
  induction derives generalizing rest with
  | @assignment name sign tokens assigned isName isSign _ induction =>
      have behindName : advance (name :: sign :: tokens ++ rest) =
          sign :: tokens ++ rest := advance_cons (by simp [isName]) _
      have behindSign : advance (sign :: tokens ++ rest) = tokens ++ rest :=
        advance_cons (by simp [isSign]) _
      rw [answer_eq_step]
      simp only [Phrase.step, behindName, behindSign]
      rw [if_pos ⟨isName, isSign⟩, induction rest loose]
      rfl
  | @equality tokens tree derives induction =>
      have member := derives.peek_mem rfl rest
      have noName : (peek (tokens ++ rest)).kind ≠ .identifier := by
        intro isName
        rw [isName] at member
        exact absurd member (by decide)
      rw [answer_eq_step]
      simp only [Phrase.step]
      rw [if_neg (fun starts => noName starts.1)]
      exact induction rest loose
  | chain _ links operandInduction linksInduction =>
      have looseOperand := loose_of_links links loose
      rw [← strength_operand] at looseOperand
      rw [answer_chain, List.append_assoc,
        operandInduction _ looseOperand]
      exact linksInduction rest loose
  | noLink =>
      apply answer_links_of_not_binds
      intro bound
      exact Nat.lt_irrefl _ (loose _ _ bound)
  | @link level _ _ _ operator symbol operand others isSymbol member _ links
      operandInduction linksInduction =>
      have looseOperand := loose_of_links links loose
      rw [← strength_operand] at looseOperand
      have behind : advance (operator :: (operand ++ others) ++ rest) =
          operand ++ (others ++ rest) := by
        rw [List.cons_append, advance_cons (by simp [isSymbol]),
          List.append_assoc]
      have bound : binding? (operator :: (operand ++ others) ++ rest) =
          some (level.strength, .left) :=
        binding?_eq_strength_iff.mpr
          ⟨symbol, operator?_eq_some_iff.mpr isSymbol, member⟩
      rw [answer_links_of_binds bound, behind,
        operandInduction _ looseOperand]
      exact linksInduction rest loose
  | @signed operator tokens operand isSign _ induction =>
      have inner := ne_endOfInput_of_sign isSign
      have behind : advance (operator :: tokens ++ rest) = tokens ++ rest :=
        advance_cons inner _
      have isSignHere :
          (peek (operator :: tokens ++ rest)).kind = .operator .not ∨
            (peek (operator :: tokens ++ rest)).kind = .operator .minus :=
        isSign
      rw [answer_eq_step]
      simp only [Phrase.step, behind]
      rw [if_pos isSignHere, induction rest loose]
      rfl
  | @primary tokens tree derives induction =>
      have member := derives.peek_mem rfl rest
      have noSign : ¬ ((peek (tokens ++ rest)).kind = .operator .not ∨
          (peek (tokens ++ rest)).kind = .operator .minus) := by
        rintro (isNot | isMinus)
        · rw [isNot] at member
          exact absurd member (by decide)
        · rw [isMinus] at member
          exact absurd member (by decide)
      rw [answer_eq_step]
      simp only [Phrase.step]
      rw [if_neg noSign]
      exact induction rest loose
  | trueWord isWord | falseWord isWord | nilWord isWord | number isWord
  | string isWord =>
      rw [answer_eq_step]
      simp [Phrase.step, peek_cons, advance_cons, isWord]
  | @group opening closing tokens inner isOpening _ isClosing induction =>
      have looseClosing : Loose 1 (closing :: rest) := by
        apply loose_of_no_operator
        simp [peek_cons, Token.operator?, isClosing]
      have behind : advance (opening :: (tokens ++ [closing]) ++ rest) =
          tokens ++ closing :: rest := by
        rw [List.cons_append, advance_cons (by simp [isOpening])]
        simp
      have behindClosing : advance (closing :: rest) = rest :=
        advance_cons (by simp [isClosing]) rest
      rw [answer_eq_step]
      simp only [Phrase.step, behind]
      simp only [List.cons_append, peek_cons, isOpening,
        induction _ looseClosing, Reply.andThen]
      simp [expect, peek_cons, isClosing, behindClosing]

theorem Derives.unique {phrase : Phrase} {tokens : List Token}
    {tree tree' : Expr} (derives : Derives phrase tokens tree)
    (derives' : Derives phrase tokens tree') : tree = tree' := by
  have loose : Loose phrase.strength [] := loose_of_no_operator rfl
  have result := answer_of_derives derives [] loose
  rw [answer_of_derives derives' [] loose] at result
  cases result
  rfl

end Grammar

/-- The descent reads a whole token list up to the end of input. -/
theorem Reader.reply_whole (tokens : List Token) :
    Reader.reply (Reading.budgetFor tokens) tokens .whole =
      (Grammar.descent.answer .expression tokens).andThen
        fun tree rest =>
          if Reading.isAtEnd rest then .read tree rest
          else Reading.refuse .endOfInput rest := by
  rw [← (Grammar.agrees _).expression,
    ← Reading.reply_eq_answer (Nat.le_refl _)]
  rfl

namespace Expr

open Reading Grammar

/-- A whole expression is what the descent reads up to the end of input. -/
theorem ofTokens_eq_ok_iff {tokens : List Token} {tree : Expr} :
    ofTokens tokens = .ok tree ↔
      ∃ rest, descent.answer .expression (Reader.close tokens) =
          .read tree rest ∧
        (peek rest).kind = .endOfInput := by
  have replied := Reader.reply_whole (Reader.close tokens)
  unfold ofTokens Reader.read
  simp only [Reader.ofTokens, Reader.rest, List.drop_zero, replied]
  cases result : descent.answer .expression (Reader.close tokens) with
  | read first rest =>
      by_cases isEnd : (peek rest).kind = .endOfInput
      · simp only [Reply.andThen, isAtEnd, isEnd, decide_true, if_true,
          Except.ok.injEq, Reply.read.injEq]
        constructor
        · rintro rfl
          exact ⟨rest, ⟨rfl, rfl⟩, isEnd⟩
        · rintro ⟨_, ⟨same, _⟩, _⟩
          exact same
      · simp only [Reply.andThen, isAtEnd, isEnd, decide_false, refuse,
          Reply.read.injEq]
        constructor
        · intro refused
          cases refused
        · rintro ⟨_, ⟨_, rfl⟩, atEnd⟩
          exact absurd atEnd isEnd
  | refused mismatch rest => simp [Reply.andThen]
  | exhausted => simp [Reply.andThen]

theorem close_of_end {front : List Token} {last : Token}
    (isEnd : last.kind = .endOfInput) :
    Reader.close (front ++ [last]) = front ++ [last] := by
  simp [Reader.close, isEnd]

theorem derives_of_ofTokens {front : List Token} {last : Token} {tree : Expr}
    (isEnd : last.kind = .endOfInput)
    (inner : ∀ token ∈ front, token.kind ≠ .endOfInput)
    (result : ofTokens (front ++ [last]) = .ok tree) :
    Derives .expression front tree := by
  rw [ofTokens_eq_ok_iff, close_of_end isEnd] at result
  obtain ⟨rest, answer, atEnd⟩ := result
  obtain ⟨used, split, derives⟩ :=
    derives_of_answer .expression _ tree rest answer
  obtain ⟨rfl, _⟩ := append_inj_of_end split inner
    derives.kind_ne_endOfInput isEnd atEnd
  exact derives

theorem ofTokens_of_derives {front : List Token} {last : Token} {tree : Expr}
    (isEnd : last.kind = .endOfInput)
    (derives : Derives .expression front tree) :
    ofTokens (front ++ [last]) = .ok tree := by
  rw [ofTokens_eq_ok_iff, close_of_end isEnd]
  exact ⟨[last], answer_of_derives derives [last]
    (loose_of_no_operator (by simp [peek_cons, Token.operator?, isEnd])),
    isEnd⟩

/-- A token list with one end is read as a whole into exactly the trees that
the grammar derives from what stands before the end, and the grammar derives
one tree at most. -/
theorem ofTokens_eq_ok_iff_derives (front : List Token) (last : Token)
    (isEnd : last.kind = .endOfInput)
    (inner : ∀ token ∈ front, token.kind ≠ .endOfInput) :
    (∀ tree, ofTokens (front ++ [last]) = .ok tree ↔
        Derives .expression front tree) ∧
      ∀ tree tree', Derives .expression front tree →
        Derives .expression front tree' → tree = tree' := by
  refine ⟨?_, fun tree tree' => Derives.unique⟩
  intro tree
  rw [ofTokens_eq_ok_iff, close_of_end isEnd]
  constructor
  · rintro ⟨rest, result, atEnd⟩
    obtain ⟨used, split, derives⟩ :=
      derives_of_answer .expression _ tree rest result
    -- Both splittings put the first end behind all that is pending.
    have sameLength : front.length = used.length := by
      have counted := congrArg pending split
      have lastEnds : pending [last] = 0 := pending_eq_zero_iff.mpr isEnd
      have restEnds : pending rest = 0 := pending_eq_zero_iff.mpr atEnd
      rw [pending_append inner, pending_append derives.kind_ne_endOfInput,
        lastEnds, restEnds] at counted
      exact counted
    obtain ⟨rfl, _⟩ := List.append_inj split sameLength
    exact derives
  · intro derives
    exact ⟨[last], answer_of_derives derives [last]
      (loose_of_no_operator (by simp [peek_cons, Token.operator?, isEnd])),
      isEnd⟩

/-- The tokens of `-nil * true == false`. -/
def mixedTokens : List Token :=
  [⟨.operator .minus, "-", none, 1⟩, ⟨.keyword .nilWord, "nil", none, 1⟩,
    ⟨.operator .times, "*", none, 1⟩, ⟨.keyword .trueWord, "true", none, 1⟩,
    ⟨.operator .equals, "==", none, 1⟩,
    ⟨.keyword .falseWord, "false", none, 1⟩]

theorem mixedTokens_derives :
    (∀ token ∈ mixedTokens, token.kind ≠ .endOfInput) ∧
      Derives .expression mixedTokens
        (.binary
          (.binary (.unary mixedTokens[0] (.literal .nil)) mixedTokens[2]
            (.literal (.boolean true)))
          mixedTokens[4] (.literal (.boolean false))) := by
  have inner : ∀ token ∈ mixedTokens, token.kind ≠ .endOfInput := by decide
  have accepts := (ofTokens_eq_ok_iff_derives mixedTokens
    (Token.endOfInput 1) rfl inner).1
  exact ⟨inner, (accepts _).mp rfl⟩

end Expr

end LoxExpr
