import LoxExpr.Proofs.Grammar.Recognition

/-!
# How phrases are refused

`Refuses` relates a phrase to what is consumed of it, to the rest that it
cannot go on with, and to what is expected there instead.  The descent refuses
a phrase exactly so.  It has looked at two tokens of the rest at most: at the
first, and at the second if the first is a name.
-/

namespace LoxExpr

namespace Reading

/-- Two places that a reading cannot tell apart: the same token stands there
and, if it is a name, tokens of one kind stand behind it. -/
structure LooksLike (tokens tokens' : List Token) : Prop where
  here : peek tokens = peek tokens'
  behindName : (peek tokens).kind = .identifier →
    (peek (advance tokens)).kind = (peek (advance tokens')).kind

namespace LooksLike

variable {tokens tokens' : List Token}

theorem cons (looks : LooksLike tokens tokens') (token : Token) :
    LooksLike (token :: tokens) (token :: tokens') where
  here := rfl
  behindName := by
    intro isName
    rw [peek_cons] at isName
    have inner : token.kind ≠ .endOfInput := by simp [isName]
    rw [advance_cons inner, advance_cons inner, looks.here]

theorem append (looks : LooksLike tokens tokens') (used : List Token) :
    LooksLike (used ++ tokens) (used ++ tokens') := by
  induction used with
  | nil => exact looks
  | cons token used induction => exact induction.cons token

theorem binding?_eq (looks : LooksLike tokens tokens') :
    binding? tokens = binding? tokens' := by
  rw [binding?, binding?, looks.here]

theorem loose (looks : LooksLike tokens tokens') {least : Nat}
    (loose : Loose least tokens) : Loose least tokens' := by
  intro precedence associativity bound
  rw [← looks.binding?_eq] at bound
  exact loose precedence associativity bound

theorem startsAssignment_iff (looks : LooksLike tokens tokens') :
    ((peek tokens).kind = .identifier ∧
        (peek (advance tokens)).kind = .equalSign) ↔
      (peek tokens').kind = .identifier ∧
        (peek (advance tokens')).kind = .equalSign := by
  rw [← looks.here]
  constructor
  · rintro ⟨isName, isSign⟩
    exact ⟨isName, looks.behindName isName ▸ isSign⟩
  · rintro ⟨isName, isSign⟩
    exact ⟨isName, (looks.behindName isName).symm ▸ isSign⟩

end LooksLike

theorem Reply.andThen_eq_refused_iff {reply : Reply}
    {next : Expr → List Token → Reply} {mismatch : Mismatch}
    {rest : List Token} :
    reply.andThen next = .refused mismatch rest ↔
      reply = .refused mismatch rest ∨
        ∃ tree middle, reply = .read tree middle ∧
          next tree middle = .refused mismatch rest := by
  cases reply with
  | read tree middle =>
      constructor
      · intro result
        exact .inr ⟨tree, middle, rfl, result⟩
      · rintro (same | ⟨_, _, same, result⟩)
        · cases same
        · cases same
          exact result
  | refused mismatch rest => simp [andThen]
  | exhausted => simp [andThen]

end Reading

namespace Grammar

open Reading

theorem loose_of_chain {level : Level} {tokens rest : List Token}
    {tree : Expr}
    (result : descent.answer (.chain level) tokens = .read tree rest) :
    Loose level.strength rest := by
  have climbed := (agrees tokens).climb level.strength
  have phrase : Phrase.ofStrength level.strength = .chain level := by
    cases level <;> rfl
  rw [phrase, result] at climbed
  exact loose_of_answer_climb climbed

theorem loose_of_expression {tokens rest : List Token} {tree : Expr}
    (result : descent.answer .expression tokens = .read tree rest) :
    Loose 1 rest := by
  generalize size : pending tokens = count
  induction count using Nat.strongRecOn generalizing tokens tree with
  | ind count induction =>
      rw [answer_eq_step] at result
      simp only [Phrase.step] at result
      split at result
      · next starts =>
          have fewer := (passes_assignment
            (startsAssignment_iff.mpr starts)).pending_le
          obtain ⟨assigned, behind, assignedResult, finished⟩ :=
            Reply.andThen_eq_read_iff.mp result
          cases finished
          exact induction _ (by omega) assignedResult rfl
      · have loose : Loose Level.equality.strength rest :=
          loose_of_chain result
        exact loose

/-- Nothing that prolongs a phrase follows where its reading ends. -/
theorem loose_of_answer {phrase : Phrase} (solid : phrase.gain = 1)
    {tokens rest : List Token} {tree : Expr}
    (result : descent.answer phrase tokens = .read tree rest) :
    Loose phrase.strength rest := by
  cases phrase with
  | expression => exact loose_of_expression result
  | chain level => exact loose_of_chain result
  | links level left => simp [Phrase.gain] at solid
  | unary => exact loose_of_four_lt (by decide) rest
  | primary => exact loose_of_four_lt (by decide) rest

theorem answer_primary_of_not_mem {tokens : List Token}
    (noOperand : (peek tokens).kind ∉ Phrase.primaryKinds) :
    descent.answer .primary tokens = refuse .expression tokens := by
  rw [answer_eq_step]
  simp only [Phrase.step]
  split
  case h_7 => rfl
  all_goals
    next isKind =>
      rw [isKind] at noOperand
      exact absurd (by decide) noOperand

/-- The tokens `used` begin a phrase that cannot go on like `rest`, where
something else is expected.  Every part of a phrase that can be refused has a
constructor; a part that is complete before it is not prolonged by what
follows. -/
inductive Refuses :
    Phrase → List Token → List Token → Expectation → Prop where
  | assigned {name sign : Token} {used rest : List Token}
      {expected : Expectation} :
      name.kind = .identifier → sign.kind = .equalSign →
      Refuses .expression used rest expected →
      Refuses .expression (name :: sign :: used) rest expected
  | equality {used rest : List Token} {expected : Expectation} :
      ¬ ((peek (used ++ rest)).kind = .identifier ∧
        (peek (advance (used ++ rest))).kind = .equalSign) →
      Refuses (.chain .equality) used rest expected →
      Refuses .expression used rest expected
  | operand {level : Level} {used rest : List Token}
      {expected : Expectation} :
      Refuses level.operand used rest expected →
      Refuses (.chain level) used rest expected
  | links {level : Level} {left : Expr} {first others rest : List Token}
      {expected : Expectation} :
      Derives level.operand first left →
      Loose level.operand.strength (others ++ rest) →
      Refuses (.links level left) others rest expected →
      Refuses (.chain level) (first ++ others) rest expected
  | right {level : Level} {left : Expr} {operator : Token}
      {symbol : Operator} {used rest : List Token} {expected : Expectation} :
      operator.kind = .operator symbol → symbol ∈ level.symbols →
      Refuses level.operand used rest expected →
      Refuses (.links level left) (operator :: used) rest expected
  | link {level : Level} {left right : Expr} {operator : Token}
      {symbol : Operator} {operand others rest : List Token}
      {expected : Expectation} :
      operator.kind = .operator symbol → symbol ∈ level.symbols →
      Derives level.operand operand right →
      Loose level.operand.strength (others ++ rest) →
      Refuses (.links level (.binary left operator right)) others rest
        expected →
      Refuses (.links level left) (operator :: (operand ++ others)) rest
        expected
  | signed {operator : Token} {used rest : List Token}
      {expected : Expectation} :
      operator.kind = .operator .not ∨ operator.kind = .operator .minus →
      Refuses .unary used rest expected →
      Refuses .unary (operator :: used) rest expected
  | primary {used rest : List Token} {expected : Expectation} :
      ¬ ((peek (used ++ rest)).kind = .operator .not ∨
        (peek (used ++ rest)).kind = .operator .minus) →
      Refuses .primary used rest expected →
      Refuses .unary used rest expected
  | inside {opening : Token} {used rest : List Token}
      {expected : Expectation} :
      opening.kind = .leftParen →
      Refuses .expression used rest expected →
      Refuses .primary (opening :: used) rest expected
  | unclosed {opening : Token} {used rest : List Token} {inner : Expr} :
      opening.kind = .leftParen →
      Derives .expression used inner →
      Loose Phrase.expression.strength rest →
      (peek rest).kind ≠ .rightParen →
      Refuses .primary (opening :: used) rest .rightParen
  | noOperand {rest : List Token} :
      (peek rest).kind ∉ Phrase.primaryKinds →
      Refuses .primary [] rest .expression

/-- Where a reading is refused it has consumed the beginning of a phrase that
the rest cannot go on. -/
def Stops (phrase : Phrase) (tokens : List Token) : Prop :=
  ∀ mismatch rest,
    descent.answer phrase tokens = .refused mismatch rest →
    ∃ used, tokens = used ++ rest ∧
      Refuses phrase used rest mismatch.expected

section Stopping

variable {tokens : List Token}

theorem expression_stops
    (later : ∀ phrase rest,
      Phrase.cost phrase rest < Phrase.cost .expression tokens →
        Stops phrase rest) :
    Stops .expression tokens := by
  intro mismatch rest result
  rw [answer_eq_step] at result
  simp only [Phrase.step] at result
  split at result
  · next starts =>
      obtain ⟨isName, isSign⟩ := starts
      have fewer := (passes_assignment
        (startsAssignment_iff.mpr ⟨isName, isSign⟩)).pending_le
      have refused : descent.answer .expression (advance (advance tokens)) =
          .refused mismatch rest := by
        simpa [Reply.andThen_eq_refused_iff] using result
      obtain ⟨used, split, refuses⟩ :=
        later .expression _ (Phrase.cost_lt_of_pending_lt (by omega))
          mismatch rest refused
      have splitSign := split_behind (by simp [isSign]) split
      exact ⟨peek tokens :: peek (advance tokens) :: used,
        split_behind (by simp [isName]) splitSign,
        .assigned isName isSign refuses⟩
  · next noAssignment =>
      obtain ⟨used, split, refuses⟩ :=
        later (.chain .equality) tokens
          (Phrase.cost_lt_of_rank_lt (by decide)) mismatch rest result
      rw [split] at noAssignment
      exact ⟨used, split, .equality noAssignment refuses⟩

theorem chain_stops (level : Level)
    (later : ∀ phrase rest,
      Phrase.cost phrase rest < Phrase.cost (.chain level) tokens →
        Stops phrase rest) :
    Stops (.chain level) tokens := by
  intro mismatch rest result
  rw [answer_chain] at result
  rcases Reply.andThen_eq_refused_iff.mp result with
    refused | ⟨left, middle, operandResult, linksResult⟩
  · obtain ⟨used, split, refuses⟩ :=
      later level.operand tokens
        (Phrase.cost_lt_of_rank_lt (Phrase.rank_operand_lt level))
        mismatch rest refused
    exact ⟨used, split, .operand refuses⟩
  · have fewer := pending_lt_of_operand operandResult
    have loose :=
      loose_of_answer (Phrase.gain_operand level) operandResult
    obtain ⟨first, split, operandDerives⟩ :=
      derives_of_answer level.operand tokens left middle operandResult
    obtain ⟨others, splitOthers, refuses⟩ :=
      later (.links level left) middle (Phrase.cost_lt_of_pending_lt fewer)
        mismatch rest linksResult
    rw [splitOthers] at split loose
    refine ⟨first ++ others, ?_, .links operandDerives loose refuses⟩
    rw [split, List.append_assoc]

theorem links_stops (level : Level) (left : Expr)
    (later : ∀ phrase rest,
      Phrase.cost phrase rest < Phrase.cost (.links level left) tokens →
        Stops phrase rest) :
    Stops (.links level left) tokens := by
  intro mismatch rest result
  by_cases bound : binding? tokens = some (level.strength, .left)
  · have inner := not_end_of_binding? bound
    have fewerBehind := pending_advance inner
    obtain ⟨symbol, isSymbol, member⟩ := binding?_eq_strength_iff.mp bound
    have isOperator := operator?_eq_some_iff.mp isSymbol
    rw [answer_links_of_binds bound] at result
    rcases Reply.andThen_eq_refused_iff.mp result with
      refused | ⟨right, middle, operandResult, linksResult⟩
    · obtain ⟨operand, split, refuses⟩ :=
        later level.operand (advance tokens)
          (Phrase.cost_lt_of_pending_lt fewerBehind) mismatch rest refused
      exact ⟨peek tokens :: operand, split_behind inner split,
        .right isOperator member refuses⟩
    · have fewer := pending_lt_of_operand operandResult
      have loose :=
        loose_of_answer (Phrase.gain_operand level) operandResult
      obtain ⟨operand, split, operandDerives⟩ :=
        derives_of_answer level.operand (advance tokens) right middle
          operandResult
      obtain ⟨others, splitOthers, refuses⟩ :=
        later _ middle (Phrase.cost_lt_of_pending_lt (by omega)) mismatch rest
          linksResult
      rw [splitOthers] at split loose
      have splitBoth : advance tokens = (operand ++ others) ++ rest := by
        rw [split, List.append_assoc]
      exact ⟨peek tokens :: (operand ++ others),
        split_behind inner splitBoth,
        .link isOperator member operandDerives loose refuses⟩
  · rw [answer_links_of_not_binds bound] at result
    cases result

theorem unary_stops
    (later : ∀ phrase rest,
      Phrase.cost phrase rest < Phrase.cost .unary tokens →
        Stops phrase rest) :
    Stops .unary tokens := by
  intro mismatch rest result
  rw [answer_eq_step] at result
  simp only [Phrase.step] at result
  split at result
  · next isSign =>
      have inner := ne_endOfInput_of_sign isSign
      have refused : descent.answer .unary (advance tokens) =
          .refused mismatch rest := by
        simpa [Reply.andThen_eq_refused_iff] using result
      obtain ⟨used, split, refuses⟩ :=
        later .unary (advance tokens)
          (Phrase.cost_lt_of_pending_lt (pending_advance inner))
          mismatch rest refused
      exact ⟨peek tokens :: used, split_behind inner split,
        .signed isSign refuses⟩
  · next noSign =>
      obtain ⟨used, split, refuses⟩ :=
        later .primary tokens (Phrase.cost_lt_of_rank_lt (by decide))
          mismatch rest result
      rw [split] at noSign
      exact ⟨used, split, .primary noSign refuses⟩

theorem group_stops (isOpening : (peek tokens).kind = .leftParen)
    (later : Stops .expression (advance tokens)) :
    Stops .primary tokens := by
  intro mismatch rest result
  have inner : (peek tokens).kind ≠ .endOfInput := by simp [isOpening]
  rw [answer_eq_step] at result
  simp only [Phrase.step, isOpening] at result
  rcases Reply.andThen_eq_refused_iff.mp result with
    refused | ⟨inside, behind, insideResult, finished⟩
  · obtain ⟨used, split, refuses⟩ := later mismatch rest refused
    exact ⟨peek tokens :: used, split_behind inner split,
      .inside isOpening refuses⟩
  · obtain ⟨used, split, derives⟩ :=
      derives_of_answer .expression _ inside behind insideResult
    unfold expect at finished
    split at finished
    · cases finished
    · next notClosing =>
        cases finished
        exact ⟨peek tokens :: used, split_behind inner split,
          .unclosed isOpening derives (loose_of_answer rfl insideResult)
            notClosing⟩

theorem primary_stops
    (later : ∀ phrase rest,
      Phrase.cost phrase rest < Phrase.cost .primary tokens →
        Stops phrase rest) :
    Stops .primary tokens := by
  intro mismatch rest result
  by_cases beginsOperand : (peek tokens).kind ∈ Phrase.primaryKinds
  · simp only [Phrase.primaryKinds, List.mem_cons, List.not_mem_nil,
      or_false] at beginsOperand
    rcases beginsOperand with isWord | isWord | isWord | isWord | isWord |
      isOpening
    case inr.inr.inr.inr.inr =>
      have inner : (peek tokens).kind ≠ .endOfInput := by simp [isOpening]
      exact group_stops isOpening (later .expression (advance tokens)
        (Phrase.cost_lt_of_pending_lt (pending_advance inner))) mismatch rest
        result
    all_goals
      rw [answer_eq_step] at result
      simp [Phrase.step, isWord] at result
  · rw [answer_primary_of_not_mem beginsOperand] at result
    cases result
    exact ⟨[], rfl, .noOperand beginsOperand⟩

end Stopping

theorem stops (phrase : Phrase) (tokens : List Token) :
    Stops phrase tokens := by
  induction phrase, tokens using descent.cost_induction with
  | step phrase tokens later =>
      cases phrase with
      | expression => exact expression_stops later
      | chain level => exact chain_stops level later
      | links level left => exact links_stops level left later
      | unary => exact unary_stops later
      | primary => exact primary_stops later

namespace Refuses

variable {phrase : Phrase} {used rest rest' : List Token}
  {expected : Expectation}

/-- The reading of what is refused says what is expected. -/
theorem answer_eq (refuses : Refuses phrase used rest expected) :
    descent.answer phrase (used ++ rest) = refuse expected rest := by
  induction refuses with
  | @assigned name sign used rest _ isName isSign _ induction =>
      have behindName : advance (name :: sign :: used ++ rest) =
          sign :: used ++ rest := advance_cons (by simp [isName]) _
      have behindSign : advance (sign :: used ++ rest) = used ++ rest :=
        advance_cons (by simp [isSign]) _
      rw [answer_eq_step]
      simp only [Phrase.step, behindName, behindSign]
      rw [if_pos ⟨isName, isSign⟩, induction]
      rfl
  | equality noAssignment _ induction =>
      rw [answer_eq_step]
      simp only [Phrase.step]
      rw [if_neg noAssignment, induction]
  | operand _ induction =>
      rw [answer_chain, induction]
      rfl
  | links operandDerives loose _ induction =>
      rw [answer_chain, List.append_assoc,
        answer_of_derives operandDerives _ loose]
      exact induction
  | @right level left operator symbol used rest expected isSymbol member _
      induction =>
      have bound : binding? (operator :: used ++ rest) =
          some (level.strength, .left) :=
        binding?_eq_strength_iff.mpr
          ⟨symbol, operator?_eq_some_iff.mpr isSymbol, member⟩
      rw [answer_links_of_binds bound, List.cons_append,
        advance_cons (by simp [isSymbol]), induction]
      rfl
  | @link level left right operator symbol operand others rest expected
      isSymbol member operandDerives loose _ induction =>
      have bound : binding? (operator :: (operand ++ others) ++ rest) =
          some (level.strength, .left) :=
        binding?_eq_strength_iff.mpr
          ⟨symbol, operator?_eq_some_iff.mpr isSymbol, member⟩
      rw [answer_links_of_binds bound, List.cons_append,
        advance_cons (by simp [isSymbol]), List.append_assoc,
        answer_of_derives operandDerives _ loose]
      exact induction
  | @signed operator used rest _ isSign _ induction =>
      have behind : advance (operator :: used ++ rest) = used ++ rest :=
        advance_cons (ne_endOfInput_of_sign isSign) _
      have here : peek (operator :: used ++ rest) = operator := rfl
      rw [answer_eq_step]
      simp only [Phrase.step, behind, here]
      rw [if_pos isSign, induction]
      rfl
  | primary noSign _ induction =>
      rw [answer_eq_step]
      simp only [Phrase.step]
      rw [if_neg noSign, induction]
  | inside isOpening _ induction =>
      rw [answer_eq_step]
      simp only [Phrase.step, List.cons_append, peek_cons, isOpening]
      rw [advance_cons (by simp [isOpening]), induction]
      rfl
  | unclosed isOpening derives loose notClosing =>
      rw [answer_eq_step]
      simp only [Phrase.step, List.cons_append, peek_cons, isOpening]
      rw [advance_cons (by simp [isOpening]),
        answer_of_derives derives _ loose, Reply.andThen, expect,
        if_neg notClosing]
  | noOperand noOperand => exact answer_primary_of_not_mem noOperand

/-- What looks like the rest is refused like the rest. -/
theorem alike (refuses : Refuses phrase used rest expected)
    (looks : LooksLike rest rest') : Refuses phrase used rest' expected := by
  induction refuses with
  | assigned isName isSign _ induction =>
      exact .assigned isName isSign (induction looks)
  | @equality used _ _ noAssignment _ induction =>
      have same := (looks.append used).startsAssignment_iff
      exact .equality (mt same.mpr noAssignment) (induction looks)
  | operand _ induction => exact .operand (induction looks)
  | @links _ _ _ others _ _ operandDerives loose _ induction =>
      exact .links operandDerives ((looks.append others).loose loose)
        (induction looks)
  | right isSymbol member _ induction =>
      exact .right isSymbol member (induction looks)
  | @link _ _ _ _ _ _ others _ _ isSymbol member operandDerives loose _
      induction =>
      exact .link isSymbol member operandDerives
        ((looks.append others).loose loose) (induction looks)
  | signed isSign _ induction => exact .signed isSign (induction looks)
  | @primary used _ _ noSign _ induction =>
      rw [(looks.append used).here] at noSign
      exact .primary noSign (induction looks)
  | inside isOpening _ induction => exact .inside isOpening (induction looks)
  | unclosed isOpening derives loose notClosing =>
      rw [looks.here] at notClosing
      exact .unclosed isOpening derives (looks.loose loose) notClosing
  | noOperand noOperand =>
      rw [looks.here] at noOperand
      exact .noOperand noOperand

end Refuses

end Grammar

end LoxExpr
