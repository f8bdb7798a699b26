import LoxExpr.Proofs.Grammar.Embedding
import LoxExpr.Proofs.Grammar.Relabelling
import LoxExpr.Proofs.Lexis.Spelling

/-!
# Rendered trees

The text of a tree has parentheses around every node but its literals, so the
grammar derives each node as an operand.  If operators, names and literals are
spelled as the lexical rules ask, the text is read as the same tree with more
groups, all on one line.
-/

namespace LoxExpr

open Lexis

def Token.equalSign (line : Nat) : Token :=
  { kind := .equalSign, lexeme := "=", literal := none, line := line }

namespace Expr

/-- The values at the leaves of a tree, from left to right. -/
def literals : Expr → List Value
  | .literal value => [value]
  | .group inner => inner.literals
  | .unary _ operand => operand.literals
  | .binary left _ right => left.literals ++ right.literals
  | .assign _ assigned => assigned.literals

/-- The tree without its groups. -/
def ungroup : Expr → Expr
  | .literal value => .literal value
  | .group inner => inner.ungroup
  | .unary operator operand => .unary operator operand.ungroup
  | .binary left operator right =>
      .binary left.ungroup operator right.ungroup
  | .assign name assigned => .assign name assigned.ungroup

/-- The tree that is read from the text of a tree: a group around each node
with an operator or a name, which stands on the first line. -/
def shown : Expr → Expr
  | .literal value => .literal value
  | .group inner => .group inner.shown
  | .unary operator operand =>
      .group (.unary (operator.onLine 1) operand.shown)
  | .binary left operator right =>
      .group (.binary left.shown (operator.onLine 1) right.shown)
  | .assign name assigned =>
      .group (.assign (name.onLine 1) assigned.shown)

/-- Every operator and every name is spelled and stands where it can stand,
and all literals are of this sort. -/
def Composed (sort : Value → Prop) : Expr → Prop
  | .literal value => sort value
  | .group inner => inner.Composed sort
  | .unary operator operand =>
      (Spelled operator ∧
        (operator.kind = .operator .not ∨
          operator.kind = .operator .minus)) ∧
        operand.Composed sort
  | .binary left operator right =>
      left.Composed sort ∧
        (Spelled operator ∧ ∃ symbol, operator.kind = .operator symbol ∧
          symbol.precedence?.isSome = true) ∧
        right.Composed sort
  | .assign name assigned =>
      (Spelled name ∧ name.kind = .identifier) ∧ assigned.Composed sort

theorem Composed.of_literals {sort special : Value → Prop} {tree : Expr}
    (composed : tree.Composed sort)
    (specialize : ∀ value ∈ tree.literals, sort value → special value) :
    tree.Composed special := by
  induction tree with
  | literal value =>
      exact specialize value (List.mem_singleton.mpr rfl) composed
  | group inner induction => exact induction composed specialize
  | unary operator operand induction =>
      exact ⟨composed.1, induction composed.2 specialize⟩
  | binary left operator right leftInduction rightInduction =>
      obtain ⟨leftComposed, isOperator, rightComposed⟩ := composed
      refine ⟨leftInduction leftComposed ?_, isOperator,
        rightInduction rightComposed ?_⟩
      · intro value member
        exact specialize value (List.mem_append_left _ member)
      · intro value member
        exact specialize value (List.mem_append_right _ member)
  | assign name assigned induction =>
      exact ⟨composed.1, induction composed.2 specialize⟩

end Expr

namespace Grammar

/-- The tree that links extend is composed already. -/
def Phrase.StartsComposed : Phrase → Prop
  | .links _ left => left.Composed IsConstant
  | _ => True

theorem Phrase.startsComposed_operand (level : Level) :
    level.operand.StartsComposed := by
  cases level <;> trivial

theorem isConstant {token : Token} {value : Value} (spelled : Spelled token)
    (constant : Reading.constant? token = some value) : IsConstant value :=
  ⟨token, spelled, constant⟩

/-- From spelled tokens the grammar derives trees that are composed of
them. -/
theorem Derives.composed {phrase : Phrase} {tokens : List Token}
    {tree : Expr} (derives : Derives phrase tokens tree) :
    (∀ token ∈ tokens, Spelled token) → phrase.StartsComposed →
      tree.Composed IsConstant := by
  induction derives with
  | assignment isName isSign _ assigned =>
      intro spelled _
      obtain ⟨nameSpelled, behind⟩ := List.forall_mem_cons.mp spelled
      have assignedSpelled := (List.forall_mem_cons.mp behind).2
      exact ⟨⟨nameSpelled, isName⟩, assigned assignedSpelled trivial⟩
  | equality _ chain => exact fun spelled _ => chain spelled trivial
  | chain _ _ operand links =>
      intro spelled _
      obtain ⟨operandSpelled, behind⟩ := List.forall_mem_append.mp spelled
      exact links behind
        (operand operandSpelled (Phrase.startsComposed_operand _))
  | noLink => exact fun _ starts => starts
  | link isSymbol member _ _ operand links =>
      intro spelled starts
      obtain ⟨symbolSpelled, right⟩ := List.forall_mem_cons.mp spelled
      obtain ⟨operandSpelled, behind⟩ := List.forall_mem_append.mp right
      have binds := Level.mem_symbols_iff.mp member
      exact links behind ⟨starts,
        ⟨symbolSpelled, _, isSymbol, by simp [binds]⟩,
        operand operandSpelled (Phrase.startsComposed_operand _)⟩
  | signed isSign _ operand =>
      intro spelled _
      obtain ⟨signSpelled, behind⟩ := List.forall_mem_cons.mp spelled
      exact ⟨⟨signSpelled, isSign⟩, operand behind trivial⟩
  | primary _ primary => exact fun spelled _ => primary spelled trivial
  | trueWord isKind | falseWord isKind | nilWord isKind | number isKind
  | string isKind =>
      intro spelled _
      exact isConstant (spelled _ (.head _))
        (by simp [Reading.constant?, isKind])
  | group _ _ _ inner =>
      intro spelled _
      have behind := (List.forall_mem_cons.mp spelled).2
      exact inner (List.forall_mem_append.mp behind).1 trivial

theorem Derives.constant {token : Token} {value : Value}
    (constant : Reading.constant? token = some value) :
    Derives .primary [token] (.literal value) := by
  unfold Reading.constant? at constant
  split at constant
  · next isWord =>
      cases constant
      exact .trueWord isWord
  · next isWord =>
      cases constant
      exact .falseWord isWord
  · next isWord =>
      cases constant
      exact .nilWord isWord
  · next isNumber =>
      cases constant
      exact .number isNumber
  · next isString =>
      cases constant
      exact .string isString
  · cases constant

end Grammar

/-- A value that is displayed as a token for it. -/
def IsDisplayed (value : Value) : Prop :=
  ∃ word, Displays value word

/-- The text spells tokens from which the phrase is derived with this tree. -/
def ShowsAs (phrase : Grammar.Phrase) (text : List Char) (tree : Expr) :
    Prop :=
  ∃ words, Spells text words ∧ Grammar.Derives phrase words tree

namespace ShowsAs

open Grammar

variable {text : List Char} {tree : Expr}

theorem literal {value : Value} (displayed : IsDisplayed value) :
    ShowsAs .primary value.display.toList (.literal value) := by
  obtain ⟨word, displays⟩ := displayed
  have spells := Spells.word displays.spelled displays.noString
  rw [displays.lexeme] at spells
  exact ⟨_, spells, .constant displays.constant⟩

theorem expression (shows : ShowsAs .primary text tree) :
    ShowsAs .expression text tree := by
  obtain ⟨words, spells, derives⟩ := shows
  exact ⟨words, spells, .expression_of_unary (.primary derives)⟩

theorem group (shows : ShowsAs .expression text tree) :
    ShowsAs .primary ('(' :: (text ++ [')'])) (.group tree) := by
  obtain ⟨words, spells, derives⟩ := shows
  exact ⟨_, spells.enclosed, .group rfl derives rfl⟩

theorem unary {operator : Token} (spelled : Spelled operator)
    (isSign : operator.kind = .operator .not ∨
      operator.kind = .operator .minus)
    (shows : ShowsAs .primary text tree) :
    ShowsAs .expression (operator.lexeme.toList ++ ' ' :: text)
      (.unary (operator.onLine 1) tree) := by
  obtain ⟨words, spells, derives⟩ := shows
  have noString : operator.kind ≠ .string := by
    rcases isSign with isNot | isMinus
    · simp [isNot]
    · simp [isMinus]
  have signed : Derives .unary ([operator.onLine 1] ++ words)
      (.unary (operator.onLine 1) tree) :=
    .signed isSign (.primary derives)
  exact ⟨_, (Spells.word spelled noString).spaced spells,
    .expression_of_unary signed⟩

theorem binary {left right : List Char} {leftTree rightTree : Expr}
    {operator : Token} {symbol : Operator} (spelled : Spelled operator)
    (isSymbol : operator.kind = .operator symbol)
    (binds : symbol.precedence?.isSome = true)
    (leftShows : ShowsAs .primary left leftTree)
    (rightShows : ShowsAs .primary right rightTree) :
    ShowsAs .expression
      (left ++ ' ' :: (operator.lexeme.toList ++ ' ' :: right))
      (.binary leftTree (operator.onLine 1) rightTree) := by
  obtain ⟨leftWords, leftSpells, leftDerives⟩ := leftShows
  obtain ⟨rightWords, rightSpells, rightDerives⟩ := rightShows
  have noString : operator.kind ≠ .string := by simp [isSymbol]
  have behind := (Spells.word spelled noString).spaced rightSpells
  exact ⟨_, leftSpells.spaced behind,
    .joined isSymbol binds (.primary leftDerives) (.primary rightDerives)⟩

theorem assign {name : Token} (spelled : Spelled name)
    (isName : name.kind = .identifier) (shows : ShowsAs .primary text tree) :
    ShowsAs .expression (name.lexeme.toList ++ ' ' :: '=' :: ' ' :: text)
      (.assign (name.onLine 1) tree) := by
  obtain ⟨words, spells, derives⟩ := shows
  have signSpells : Spells ['='] [Token.equalSign 1] :=
    Spells.word (.symbol (by decide) : Spelled (Token.equalSign 1))
      (by simp [Token.equalSign])
  have noString : name.kind ≠ .string := by simp [isName]
  have behind := signSpells.spaced spells
  have assignment : Derives .expression
      ([name.onLine 1] ++ ([Token.equalSign 1] ++ words))
      (.assign (name.onLine 1) tree) :=
    .assignment isName rfl (.expression_of_unary (.primary derives))
  exact ⟨_, (Spells.word spelled noString).spaced behind, assignment⟩

end ShowsAs

/-- The text of a composed tree shows this tree with a group around each of
its nodes. -/
theorem Expr.Composed.shows {tree : Expr}
    (composed : tree.Composed IsDisplayed) :
    ShowsAs .primary tree.render.toList tree.shown := by
  induction tree with
  | literal value => exact .literal composed
  | group inner induction =>
      have shows := (induction composed).expression.group
      simpa [render, shown] using shows
  | unary operator operand induction =>
      obtain ⟨⟨spelled, isSign⟩, operandComposed⟩ := composed
      have shows := (ShowsAs.unary spelled isSign
        (induction operandComposed)).group
      simpa [render, shown] using shows
  | binary left operator right leftInduction rightInduction =>
      obtain ⟨leftComposed, ⟨spelled, symbol, isSymbol, binds⟩,
        rightComposed⟩ := composed
      have shows := (ShowsAs.binary spelled isSymbol binds
        (leftInduction leftComposed) (rightInduction rightComposed)).group
      simpa [render, shown] using shows
  | assign name assigned induction =>
      obtain ⟨⟨spelled, isName⟩, assignedComposed⟩ := composed
      have shows := (ShowsAs.assign spelled isName
        (induction assignedComposed)).group
      simpa [render, shown] using shows

end LoxExpr
