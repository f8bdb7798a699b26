import LoxExpr.Proofs.Grammar.Descent

/-!
# Climbing is descent

Reading by binding strength gives every reply that the descent through the
levels gives, refusals and the places at which they stop included.  One loop
with a threshold stands for the loops of all levels: whatever binds more
strongly than a level is taken up by an inner loop before the level's own loop
goes on.
-/

namespace LoxExpr

namespace Reading

/-- An operator at this place, if there is one, binds less strongly. -/
def Loose (least : Nat) (tokens : List Token) : Prop :=
  ∀ precedence associativity,
    binding? tokens = some (precedence, associativity) → precedence < least

theorem binding?_eq_some_left {symbol : Operator}
    {binding : Nat × Associativity} (bound : symbol.binding? = some binding) :
    ∃ precedence, symbol.precedence? = some precedence ∧
      binding = (precedence, .left) := by
  obtain ⟨precedence, binds, same⟩ := Option.map_eq_some_iff.mp bound
  exact ⟨precedence, binds, same.symm⟩

theorem precedence_le_four {symbol : Operator} {precedence : Nat}
    (binds : symbol.precedence? = some precedence) : precedence ≤ 4 := by
  obtain ⟨level, rfl⟩ := Grammar.exists_level_of_precedence? binds
  cases level <;> decide

theorem one_le_precedence {symbol : Operator} {precedence : Nat}
    (binds : symbol.precedence? = some precedence) : 1 ≤ precedence := by
  obtain ⟨level, rfl⟩ := Grammar.exists_level_of_precedence? binds
  cases level <;> decide

theorem loose_of_four_lt {least : Nat} (above : 4 < least)
    (tokens : List Token) : Loose least tokens := by
  intro precedence associativity bound
  obtain ⟨symbol, _, bound⟩ := binding?_eq_some_iff.mp bound
  obtain ⟨_, binds, same⟩ := binding?_eq_some_left bound
  cases same
  exact Nat.lt_of_le_of_lt (precedence_le_four binds) above

/-- The loop of an extension ends where the operator binds too loosely, or
goes on behind the right operand. -/
theorem loose_or_binds (least : Nat) (tokens : List Token) :
    Loose least tokens ∨
      ∃ precedence, binding? tokens = some (precedence, .left) ∧
        least ≤ precedence := by
  cases bound : binding? tokens with
  | none =>
      left
      intro precedence associativity found
      simp [bound] at found
  | some binding =>
      obtain ⟨symbol, _, symbolBound⟩ := binding?_eq_some_iff.mp bound
      obtain ⟨precedence, _, rfl⟩ := binding?_eq_some_left symbolBound
      by_cases below : precedence < least
      · left
        intro precedence' associativity found
        rw [bound] at found
        cases found
        exact below
      · right
        exact ⟨precedence, rfl, Nat.le_of_not_lt below⟩

theorem answer_extend_of_loose {least : Nat} {tokens : List Token}
    (loose : Loose least tokens) (left : Expr) :
    climbing.answer (.extend least left) tokens = .read left tokens := by
  rw [answer_eq_step]
  simp only [Task.step]
  split
  · rfl
  · next precedence associativity bound =>
      rw [if_pos (loose precedence associativity bound)]

theorem answer_extend_of_binds {least precedence : Nat}
    {tokens : List Token} (bound : binding? tokens = some (precedence, .left))
    (enough : least ≤ precedence) (left : Expr) :
    climbing.answer (.extend least left) tokens =
      (climbing.answer (.climb (precedence + 1)) (advance tokens)).andThen
        fun right rest =>
          climbing.answer (.extend least (.binary left (peek tokens) right))
            rest := by
  rw [answer_eq_step]
  simp only [Task.step, bound, if_neg (Nat.not_lt.mpr enough)]
  rfl

theorem answer_climb (least : Nat) (tokens : List Token) :
    climbing.answer (.climb least) tokens =
      (climbing.answer .operand tokens).andThen
        fun left rest => climbing.answer (.extend least left) rest :=
  answer_eq_step (.climb least) tokens

theorem pending_lt_of_right {precedence : Nat} {tokens rest : List Token}
    (bound : binding? tokens = some (precedence, .left))
    (passes : Passes 1 (advance tokens) rest) :
    pending rest < pending tokens := by
  have fewer := passes.pending_le
  have fewerBehind := pending_advance (not_end_of_binding? bound)
  omega

theorem climb_proceeds (least : Nat) (tokens : List Token) :
    (climbing.answer (.climb least) tokens).Proceeds 1 tokens :=
  climbing.answer_proceeds (.climb least) tokens

/-- The loop of an extension as an induction: it ends, or it goes on with the
tree that has one more operand. -/
theorem extend_induction (least : Nat)
    {motive : Expr → List Token → Prop}
    (ends : ∀ left tokens, Loose least tokens → motive left tokens)
    (goes : ∀ left tokens precedence,
      binding? tokens = some (precedence, .left) → least ≤ precedence →
      (∀ right rest, Passes 1 (advance tokens) rest →
        climbing.answer (.climb (precedence + 1)) (advance tokens) =
          .read right rest →
        motive (.binary left (peek tokens) right) rest) →
      motive left tokens) (left : Expr) (tokens : List Token) :
    motive left tokens := by
  generalize size : pending tokens = count
  induction count using Nat.strongRecOn generalizing left tokens with
  | ind count induction =>
      rcases loose_or_binds least tokens with loose |
        ⟨precedence, bound, enough⟩
      · exact ends left tokens loose
      · apply goes left tokens precedence bound enough
        intro right rest passes _
        have fewer := pending_lt_of_right bound passes
        exact induction _ (size ▸ fewer) _ _ rfl

theorem loose_of_answer_extend {least : Nat} {left tree : Expr}
    {tokens rest : List Token}
    (result : climbing.answer (.extend least left) tokens =
      .read tree rest) : Loose least rest := by
  induction left, tokens using extend_induction least with
  | ends left tokens loose =>
      rw [answer_extend_of_loose loose] at result
      cases result
      exact loose
  | goes left tokens precedence bound enough induction =>
      rw [answer_extend_of_binds bound enough,
        Reply.andThen_eq_read_iff] at result
      obtain ⟨right, middle, climbed, result⟩ := result
      have passes := climb_proceeds (precedence + 1) (advance tokens)
      rw [climbed] at passes
      exact induction right middle passes climbed result

theorem loose_of_answer_climb {least : Nat} {tree : Expr}
    {tokens rest : List Token}
    (result : climbing.answer (.climb least) tokens = .read tree rest) :
    Loose least rest := by
  rw [answer_climb, Reply.andThen_eq_read_iff] at result
  obtain ⟨left, middle, _, extended⟩ := result
  exact loose_of_answer_extend extended

theorem climb_andThen_congr {least : Nat} {tokens : List Token}
    {next next' : Expr → List Token → Reply}
    (agree : ∀ tree rest, Passes 1 tokens rest →
      climbing.answer (.climb least) tokens = .read tree rest →
      next tree rest = next' tree rest) :
    (climbing.answer (.climb least) tokens).andThen next =
      (climbing.answer (.climb least) tokens).andThen next' := by
  have proceeds := climb_proceeds least tokens
  cases result : climbing.answer (.climb least) tokens with
  | read tree rest =>
      rw [result] at proceeds
      exact agree tree rest proceeds result
  | refused mismatch rest => rfl
  | exhausted => rfl

/-- Strengths that no operator distinguishes ask for the same extension. -/
theorem answer_extend_congr {least least' : Nat}
    (alike : ∀ symbol precedence, Operator.precedence? symbol =
      some precedence → (least ≤ precedence ↔ least' ≤ precedence))
    (left : Expr) (tokens : List Token) :
    climbing.answer (.extend least left) tokens =
      climbing.answer (.extend least' left) tokens := by
  have alikeHere {tokens : List Token} {precedence : Nat}
      (bound : binding? tokens = some (precedence, .left)) :
      least ≤ precedence ↔ least' ≤ precedence := by
    obtain ⟨symbol, _, symbolBound⟩ := binding?_eq_some_iff.mp bound
    obtain ⟨_, binds, same⟩ := binding?_eq_some_left symbolBound
    cases same
    exact alike symbol precedence binds
  induction left, tokens using extend_induction least with
  | ends left tokens loose =>
      rw [answer_extend_of_loose loose]
      rcases loose_or_binds least' tokens with loose' |
        ⟨precedence, bound, enough'⟩
      · rw [answer_extend_of_loose loose']
      · have below := loose precedence .left bound
        have enough := (alikeHere bound).mpr enough'
        omega
  | goes left tokens precedence bound enough induction =>
      have enough' := (alikeHere bound).mp enough
      rw [answer_extend_of_binds bound enough,
        answer_extend_of_binds bound enough']
      exact climb_andThen_congr induction

theorem answer_climb_congr {least least' : Nat}
    (alike : ∀ symbol precedence, Operator.precedence? symbol =
      some precedence → (least ≤ precedence ↔ least' ≤ precedence))
    (tokens : List Token) :
    climbing.answer (.climb least) tokens =
      climbing.answer (.climb least') tokens := by
  rw [answer_climb, answer_climb]
  congr
  funext left rest
  exact answer_extend_congr alike left rest

theorem answer_climb_of_four_lt {least : Nat} (above : 4 < least)
    (tokens : List Token) :
    climbing.answer (.climb least) tokens =
      climbing.answer .operand tokens := by
  rw [answer_climb]
  calc
    (climbing.answer .operand tokens).andThen
        (fun left rest => climbing.answer (.extend least left) rest) =
      (climbing.answer .operand tokens).andThen .read := by
        congr
        funext left rest
        exact answer_extend_of_loose (loose_of_four_lt above rest) left
    _ = climbing.answer .operand tokens := Reply.andThen_read _

end Reading

namespace Grammar

open Reading

theorem binding?_eq_strength_iff {level : Level} {tokens : List Token} :
    binding? tokens = some (level.strength, .left) ↔
      ∃ symbol, (peek tokens).operator? = some symbol ∧
        symbol ∈ level.symbols := by
  constructor
  · intro bound
    obtain ⟨symbol, isSymbol, symbolBound⟩ := binding?_eq_some_iff.mp bound
    obtain ⟨_, binds, same⟩ := binding?_eq_some_left symbolBound
    cases same
    exact ⟨symbol, operator?_eq_some_iff.mpr isSymbol,
      Level.mem_symbols_iff.mpr binds⟩
  · rintro ⟨symbol, isSymbol, member⟩
    refine binding?_eq_some_iff.mpr
      ⟨symbol, operator?_eq_some_iff.mp isSymbol, ?_⟩
    simp [Operator.binding?, Level.mem_symbols_iff.mp member,
      Operator.associativity]

theorem answer_links_of_binds {level : Level} {tokens : List Token}
    (bound : binding? tokens = some (level.strength, .left)) (left : Expr) :
    descent.answer (.links level left) tokens =
      (descent.answer level.operand (advance tokens)).andThen
        fun right rest =>
          descent.answer (.links level (.binary left (peek tokens) right))
            rest := by
  obtain ⟨symbol, isSymbol, member⟩ := binding?_eq_strength_iff.mp bound
  rw [answer_eq_step]
  simp only [Phrase.step, isSymbol, if_pos member]

theorem answer_links_of_not_binds {level : Level} {tokens : List Token}
    (unbound : binding? tokens ≠ some (level.strength, .left))
    (left : Expr) :
    descent.answer (.links level left) tokens = .read left tokens := by
  rw [answer_eq_step]
  simp only [Phrase.step]
  split
  · rfl
  · next symbol isSymbol =>
      split
      · next member =>
          exact absurd
            (binding?_eq_strength_iff.mpr ⟨symbol, isSymbol, member⟩) unbound
      · rfl

theorem answer_chain (level : Level) (tokens : List Token) :
    descent.answer (.chain level) tokens =
      (descent.answer level.operand tokens).andThen
        fun left rest => descent.answer (.links level left) rest :=
  answer_eq_step (.chain level) tokens

/-- Where the tighter operands agree, a loop with the strength of a level
first reads what binds more strongly and then the links of the level. -/
theorem answer_extend_eq_links {level : Level} {count : Nat}
    (agree : ∀ shorter, pending shorter < count →
      climbing.answer (.climb (level.strength + 1)) shorter =
        descent.answer level.operand shorter)
    (left : Expr) (tokens : List Token) (short : pending tokens ≤ count) :
    climbing.answer (.extend level.strength left) tokens =
      (climbing.answer (.extend (level.strength + 1) left) tokens).andThen
        fun tree rest => descent.answer (.links level tree) rest := by
  induction left, tokens using extend_induction level.strength with
  | ends left tokens loose =>
      have looser : Loose (level.strength + 1) tokens := by
        intro precedence associativity bound
        exact Nat.lt_succ_of_lt (loose precedence associativity bound)
      have unbound : binding? tokens ≠ some (level.strength, .left) := by
        intro bound
        exact Nat.lt_irrefl _ (loose _ _ bound)
      rw [answer_extend_of_loose loose, answer_extend_of_loose looser]
      exact (answer_links_of_not_binds unbound left).symm
  | goes left tokens precedence bound enough induction =>
      have fewerBehind := pending_advance (not_end_of_binding? bound)
      rw [answer_extend_of_binds bound enough]
      rcases Nat.eq_or_lt_of_le enough with same | above
      · -- The operator is one of the level: the inner loop has ended.
        subst same
        have loose : Loose (level.strength + 1) tokens := by
          intro precedence associativity found
          rw [bound] at found
          cases found
          exact Nat.lt_succ_self _
        rw [answer_extend_of_loose loose]
        show _ = descent.answer (.links level left) tokens
        rw [answer_links_of_binds bound, ← agree _ (by omega)]
        apply climb_andThen_congr
        intro right rest passes climbed
        have fewer := passes.pending_le
        rw [induction right rest passes climbed (by omega),
          answer_extend_of_loose (loose_of_answer_climb climbed)]
        rfl
      · rw [answer_extend_of_binds bound above, Reply.andThen_assoc]
        apply climb_andThen_congr
        intro right rest passes climbed
        have fewer := passes.pending_le
        exact induction right rest passes climbed (by omega)

end Grammar

end LoxExpr
