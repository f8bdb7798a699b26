import Mathlib.Algebra.Group.Nat.Defs
import LoxExpr.Proofs.Grammar.Climbing

/-!
# Readers agree with the descent

Every request to a reader for an expression is answered as by the descent, and
it leaves the reader at the same place.  `Phrase.ofStrength` names the level at
which the descent begins for a given least strength.
-/

namespace LoxExpr

namespace Grammar

open Reading

/-- The phrase that is read when operators must bind at least this
strongly. -/
def Phrase.ofStrength : Nat → Phrase
  | 0 => .chain .equality
  | 1 => .chain .equality
  | 2 => .chain .comparison
  | 3 => .chain .term
  | 4 => .chain .factor
  | _ => .unary

theorem ofStrength_succ_strength (level : Level) :
    Phrase.ofStrength (level.strength + 1) = level.operand := by
  cases level <;> rfl

/-- Climbing and descent give the same replies at one place. -/
structure Agrees (tokens : List Token) : Prop where
  operand : climbing.answer .operand tokens = descent.answer .unary tokens
  climb : ∀ least, climbing.answer (.climb least) tokens =
    descent.answer (.ofStrength least) tokens
  expression : climbing.answer .expression tokens =
    descent.answer .expression tokens

variable {tokens : List Token}

theorem operand_agrees
    (later : ∀ shorter, pending shorter < pending tokens → Agrees shorter) :
    climbing.answer .operand tokens = descent.answer .unary tokens := by
  have behind (inner : (peek tokens).kind ≠ .endOfInput) :
      Agrees (advance tokens) := later _ (pending_advance inner)
  have signed := Reading.answer_eq_step .signed tokens
  have group := Reading.answer_eq_step .group tokens
  have primary := answer_eq_step .primary tokens
  rw [Reading.answer_eq_step, answer_eq_step]
  cases kind : (peek tokens).kind with
  | operator symbol =>
      cases symbol with
      | not =>
          have agrees := (behind (by simp [kind])).operand
          simp [Task.step, Phrase.step, constant?, kind, signed, agrees]
      | minus =>
          have agrees := (behind (by simp [kind])).operand
          simp [Task.step, Phrase.step, constant?, kind, signed, agrees]
      | _ => simp [Task.step, Phrase.step, constant?, kind, primary]
  | keyword word =>
      cases word <;>
        simp [Task.step, Phrase.step, constant?, kind, primary]
  | leftParen =>
      have agrees := (behind (by simp [kind])).expression
      simp [Task.step, Phrase.step, constant?, expect, kind, group, primary,
        agrees]
  | _ => simp [Task.step, Phrase.step, constant?, kind, primary]

/-- A level agrees where the tighter operands agree, here and behind. -/
theorem chain_agrees (level : Level)
    (tighter : climbing.answer (.climb (level.strength + 1)) tokens =
      descent.answer level.operand tokens)
    (later : ∀ shorter, pending shorter < pending tokens → Agrees shorter) :
    climbing.answer (.climb level.strength) tokens =
      descent.answer (.chain level) tokens := by
  have agree (shorter : List Token)
      (fewer : pending shorter < pending tokens) :
      climbing.answer (.climb (level.strength + 1)) shorter =
        descent.answer level.operand shorter := by
    rw [(later shorter fewer).climb, ofStrength_succ_strength]
  have operand : (climbing.answer .operand tokens).Proceeds 1 tokens :=
    climbing.answer_proceeds .operand tokens
  rw [answer_chain, ← tighter, answer_climb, answer_climb,
    Reply.andThen_assoc]
  apply operand.andThen_congr
  intro left rest passes
  exact answer_extend_eq_links agree left rest
    (Nat.le_of_lt passes.pending_le)

theorem climb_agrees
    (later : ∀ shorter, pending shorter < pending tokens → Agrees shorter)
    (least : Nat) :
    climbing.answer (.climb least) tokens =
      descent.answer (.ofStrength least) tokens := by
  have unary {least : Nat} (above : 4 < least) :
      climbing.answer (.climb least) tokens = descent.answer .unary tokens :=
    (answer_climb_of_four_lt above tokens).trans (operand_agrees later)
  have factor := chain_agrees .factor (unary (by decide)) later
  have term := chain_agrees .term factor later
  have comparison := chain_agrees .comparison term later
  have equality := chain_agrees .equality comparison later
  match least with
  | 0 =>
      have alike : ∀ symbol precedence, Operator.precedence? symbol =
          some precedence → (0 ≤ precedence ↔ 1 ≤ precedence) := by
        intro symbol precedence binds
        simpa using one_le_precedence binds
      exact (answer_climb_congr alike tokens).trans equality
  | 1 => exact equality
  | 2 => exact comparison
  | 3 => exact term
  | 4 => exact factor
  | least + 5 => exact unary (by omega)

theorem expression_agrees
    (climb : ∀ least, climbing.answer (.climb least) tokens =
      descent.answer (.ofStrength least) tokens)
    (later : ∀ shorter, pending shorter < pending tokens → Agrees shorter) :
    climbing.answer .expression tokens =
      descent.answer .expression tokens := by
  rw [Reading.answer_eq_step, answer_eq_step]
  simp only [Task.step, Phrase.step, startsAssignment_iff]
  split
  · next starts =>
      have behind :=
        (passes_assignment (startsAssignment_iff.mpr starts)).pending_le
      have agrees := later (advance (advance tokens)) (by omega)
      rw [agrees.expression]
  · exact climb 1

/-- Climbing and descent give the same replies everywhere. -/
theorem agrees (tokens : List Token) : Agrees tokens := by
  generalize size : pending tokens = count
  induction count using Nat.strongRecOn generalizing tokens with
  | ind count induction =>
      have later (shorter : List Token)
          (fewer : pending shorter < pending tokens) : Agrees shorter :=
        induction _ (size ▸ fewer) shorter rfl
      have climb := climb_agrees later
      exact
        { operand := operand_agrees later
          climb := climb
          expression := expression_agrees climb later }

end Grammar

/-- The answer of the descent to a request for a phrase, and the reader where
it stops. -/
def Reader.descend (reader : Reader) (phrase : Grammar.Phrase) :
    Option (Except Mismatch Expr × Reader) :=
  match Grammar.descent.answer phrase reader.rest with
  | .read tree rest => some (.ok tree, reader.moveTo rest)
  | .refused mismatch rest => some (.error mismatch, reader.moveTo rest)
  | .exhausted => none

namespace Reader

open Reading Grammar

/-- A request that a reading task serves is answered with the reply to it. -/
theorem read_eq_of_answer {reader : Reader} {entry : Entry} {task : Task}
    {phrase : Phrase}
    (serves : ∀ budget, reply budget reader.rest entry =
      task.reply budget reader.rest)
    (agrees : climbing.answer task reader.rest =
      descent.answer phrase reader.rest) :
    reader.descend phrase = some (reader.read entry) := by
  have proceeds := descent.answer_proceeds phrase reader.rest
  have replied : reply (budgetFor reader.rest) reader.rest entry =
      descent.answer phrase reader.rest := by
    rw [serves, reply_eq_answer (Nat.le_refl _), agrees]
  rw [descend, read, replied]
  cases result : descent.answer phrase reader.rest with
  | read tree rest => rfl
  | refused mismatch rest => rfl
  | exhausted =>
      rw [result] at proceeds
      exact proceeds.elim

/-- Reading by binding strength is the descent through the levels: the same
tree or the same mismatch, and the same place behind it, for every least
strength and for whole expressions.  The strengths that are asked for on the
way fit into eight bits. -/
theorem read_climb_eq_descend (reader : Reader) :
    (∀ least, reader.descend (.ofStrength least) =
        some (reader.read (.climb least))) ∧
      reader.descend .expression = some (reader.read .expression) ∧
      ∀ symbol precedence associativity,
        Operator.binding? symbol = some (precedence, associativity) →
        rightStrength precedence associativity < 2 ^ 8 := by
  have agreesHere := agrees reader.rest
  refine ⟨?_, ?_, ?_⟩
  · intro least
    exact read_eq_of_answer (fun _ => rfl) (agreesHere.climb least)
  · exact read_eq_of_answer (fun _ => rfl) agreesHere.expression
  · intro symbol precedence associativity bound
    obtain ⟨_, binds, same⟩ := binding?_eq_some_left bound
    cases same
    have low := precedence_le_four binds
    simp only [rightStrength]
    omega

theorem rightStrength_times_lt :
    Operator.times.binding? = some (4, .left) ∧
      rightStrength 4 .left < 2 ^ 8 :=
  ⟨rfl, (read_climb_eq_descend (ofTokens [])).2.2 .times 4 .left rfl⟩

end Reader

end LoxExpr
