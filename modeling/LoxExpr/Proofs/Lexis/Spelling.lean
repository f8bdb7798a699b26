import LoxExpr.Expr.Reading
import LoxExpr.Proofs.Lexis.Enclosure
import LoxExpr.Proofs.Lexis.Spacing
import LoxExpr.Proofs.Number.Writing

/-!
# Spelling of tokens

A text that spells some tokens is scanned to them on one line, also in front of
a space or of a closing parenthesis.  Such texts are put together with spaces
and parentheses.  The constants that a token can stand for, other than strings
and infinity, are spelled by what is displayed for them.
-/

namespace LoxExpr

namespace Lexis

open Piece Binary64

section Rules

variable {word : List Char} {kind : Token.Kind} {literal : Option Value}

/-- Only a string can hold a line break. -/
theorem Rule.no_break (rule : Rule word (.token kind literal))
    (noString : kind ≠ .string) : '\n' ∉ word := by
  intro inside
  rcases rule.holds_blank (by decide) inside with ⟨isBlank, _⟩ |
    ⟨_, _, isString, _⟩
  · cases isBlank
  · cases isString
    exact noString rfl

theorem exists_bits (decimal : Decimal) :
    ∃ bits, bits ≤ infinityBits ∧ decimal.toFloat = ofNatBits bits :=
  ⟨decimal.nearestBits, decimal.nearestBits_le, rfl⟩

/-- A literal is a string, or the number of a magnitude. -/
theorem Rule.literal_cases (rule : Rule word (.token kind literal)) :
    (literal = none ∧ kind ≠ .number ∧ kind ≠ .string) ∨
      (kind = .string ∧ ∃ content, literal = some (.string content)) ∨
      (kind = .number ∧ ∃ bits, bits ≤ infinityBits ∧
        literal = some (.number (ofNatBits bits))) := by
  cases rule with
  | symbol member =>
      have listed : ∀ entry ∈ symbols,
          entry.2 ≠ .number ∧ entry.2 ≠ .string := by
        decide
      exact .inl ⟨rfl, listed (word, kind) member⟩
  | string => exact .inr (.inl ⟨rfl, _, rfl⟩)
  | integer =>
      obtain ⟨bits, bounded, same⟩ := exists_bits _
      exact .inr (.inr ⟨rfl, bits, bounded, by rw [same]⟩)
  | fraction =>
      obtain ⟨bits, bounded, same⟩ := exists_bits _
      exact .inr (.inr ⟨rfl, bits, bounded, by rw [same]⟩)
  | keyword => exact .inl ⟨rfl, by simp, by simp⟩
  | identifier => exact .inl ⟨rfl, by simp, by simp⟩

end Rules

theorem Spelled.onLine {token : Token} (spelled : Spelled token)
    (line : Nat) : Spelled (token.onLine line) :=
  spelled

theorem Spelled.literal_beq_self {token : Token} (spelled : Spelled token) :
    (token.literal == token.literal) = true := by
  rcases Rule.literal_cases spelled with ⟨isNone, _⟩ |
    ⟨_, content, isString⟩ | ⟨_, bits, bounded, isNumber⟩
  · rw [isNone]
    rfl
  · rw [isString]
    exact beq_self_eq_true content
  · rw [isNumber]
    exact ofNatBits_beq_self bounded

theorem Spelled.beq_self {token : Token} (spelled : Spelled token) :
    (token == token) = true := by
  have unfolded : (token == token) =
      (token.kind == token.kind && token.lexeme == token.lexeme &&
        token.literal == token.literal && token.line == token.line) := rfl
  rw [unfolded, spelled.literal_beq_self]
  simp

/-- Equal literals stay equal when a missing one counts as nil. -/
theorem getD_nil_beq {literal literal' : Option Value}
    (equal : (literal == literal') = true) :
    (literal.getD .nil == literal'.getD .nil) = true := by
  match literal, literal' with
  | none, none => rfl
  | some _, some _ => exact equal
  | none, some _ => cases equal
  | some _, none => cases equal

/-- A value that a spelled token stands for. -/
def IsConstant (value : Value) : Prop :=
  ∃ token, Spelled token ∧ Reading.constant? token = some value

theorem IsConstant.beq_self {value : Value} (constant : IsConstant value) :
    (value == value) = true := by
  obtain ⟨token, spelled, isValue⟩ := constant
  have literal := getD_nil_beq spelled.literal_beq_self
  unfold Reading.constant? at isValue
  split at isValue <;> cases isValue
  · rfl
  · rfl
  · rfl
  · exact literal
  · exact literal

/-- A token that spells a displayed value. -/
structure Displays (value : Value) (word : Token) : Prop where
  spelled : Spelled word
  lexeme : word.lexeme = value.display
  noString : word.kind ≠ .string
  constant : Reading.constant? word = some value

/-- Every keyword is a word of the rule for keywords. -/
theorem rule_keyword (keyword : Keyword) :
    Rule keyword.word.toList (.token (.keyword keyword) none) := by
  have listed : ∀ keyword ∈ Keyword.all,
      (keyword.word.toList.head?.any startsName &&
        keyword.word.toList.tail.all continuesName) = true := by
    decide
  have isName := listed keyword (Keyword.mem_all keyword)
  rw [Bool.and_eq_true, Option.any_eq_true, List.all_eq_true] at isName
  obtain ⟨⟨head, isHead, letter⟩, inside⟩ := isName
  obtain ⟨tail, spelled⟩ := List.head?_eq_some_iff.mp isHead
  rw [spelled, List.tail_cons] at inside
  rw [spelled]
  apply Rule.keyword keyword (startsName_iff.mp letter)
  · intro c member
    exact continuesName_iff.mp (inside c member)
  · rw [← spelled, String.ofList_toList]

theorem displays_keyword (keyword : Keyword) {value : Value}
    (display : keyword.word = value.display)
    (constant : Reading.constant? ⟨.keyword keyword, keyword.word, none, 1⟩ =
      some value) :
    ∃ word, Displays value word :=
  ⟨⟨.keyword keyword, keyword.word, none, 1⟩, rule_keyword keyword, display,
    by simp, constant⟩

theorem displays_number {bits : Nat} (finite : bits < infinityBits) :
    ∃ word, Displays (.number (ofNatBits bits)) word :=
  ⟨⟨.number, Layout.plain.write (ofNatBits bits),
      some (.number (ofNatBits bits)), 1⟩,
    Layout.rule_write finite, rfl, by simp, rfl⟩

/-- A constant of a spelled token is displayed as a word for it, unless it is a
string or infinite. -/
theorem Spelled.displays {token : Token} {value : Value}
    (spelled : Spelled token)
    (constant : Reading.constant? token = some value)
    (noString : ∀ content, value ≠ .string content)
    (finite : ∀ number, value = .number number → number.isInf = false) :
    ∃ word, Displays value word := by
  unfold Reading.constant? at constant
  split at constant
  · cases constant
    exact displays_keyword .trueWord rfl rfl
  · cases constant
    exact displays_keyword .falseWord rfl rfl
  · cases constant
    exact displays_keyword .nilWord rfl rfl
  · next isNumber =>
      rcases spelled.literal_cases with ⟨_, other, _⟩ | ⟨isString, _⟩ |
        ⟨_, bits, bounded, literal⟩
      · exact absurd isNumber other
      · rw [isNumber] at isString
        cases isString
      · rw [literal] at constant
        cases constant
        have notInfinite : bits ≠ infinityBits := by
          rintro rfl
          have infinite := finite _ rfl
          rw [isInf_infinityBits] at infinite
          cases infinite
        exact displays_number (Nat.lt_of_le_of_ne bounded notInfinite)
  · next isString =>
      rcases spelled.literal_cases with ⟨_, _, other⟩ |
        ⟨_, content, literal⟩ | ⟨isNumber, _⟩
      · exact absurd isString other
      · rw [literal] at constant
        cases constant
        exact absurd rfl (noString content)
      · rw [isString] at isNumber
        cases isNumber
  · cases constant

section OneLine

variable {before text : List Char}

theorem prefix_of_mem_placed {pieces : List Piece}
    {entry : List Char × Piece} (member : entry ∈ placed before pieces) :
    entry.1 ++ entry.2.text <+: before ++ pieces.flatMap Piece.text := by
  induction pieces generalizing before with
  | nil => cases member
  | cons piece rest induction =>
      rw [List.flatMap_cons, ← List.append_assoc]
      rcases List.mem_cons.mp member with rfl | later
      · exact List.prefix_append _ _
      · exact induction later

/-- The tokens of a text without a line break are on its first line. -/
theorem line_of_mem_tokens {token : Token} (noBreak : '\n' ∉ text)
    (member : token ∈ contents tokenOf? [] text) : token.line = 1 := by
  obtain ⟨⟨front, word, role⟩, isPlaced, found⟩ :=
    List.mem_filterMap.mp member
  have inside := prefix_of_mem_placed isPlaced
  rw [flatMap_split, List.nil_append] at inside
  have none : lineBreaks (front ++ word) = 0 := by
    rw [lineBreaks, List.count_eq_zero]
    exact fun isBreak => noBreak (inside.subset isBreak)
  cases role with
  | token kind literal =>
      cases found
      rw [none]
  | _ => cases found

theorem map_onLine_eq_self {line : Nat} {tokens : List Token}
    (lines : ∀ token ∈ tokens, token.line = line) :
    tokens.map (Token.onLine line) = tokens := by
  have same : ∀ token ∈ tokens, Token.onLine line token = id token := by
    intro token member
    rw [← lines token member]
    rfl
  rw [List.map_congr_left same, List.map_id]

end OneLine

/-- The text is scanned to these tokens on one line, also in front of a
stop. -/
structure Spells (text : List Char) (words : List Token) : Prop where
  reads : ∀ {rest : List Char} {tokens : List Token}, Stops rest →
    Reads rest tokens → Reads (text ++ rest) (words ++ tokens)
  lines : ∀ word ∈ words, word.line = 1
  noBreak : '\n' ∉ text

namespace Spells

variable {left right : List Char} {leftWords rightWords : List Token}

theorem word {token : Token} (spelled : Spelled token)
    (noString : token.kind ≠ .string) :
    Spells token.lexeme.toList [token.onLine 1] where
  reads := fun stops reads => reads.token (spelled.onLine 1) stops
  lines := by simp [Token.onLine]
  noBreak := spelled.no_break noString

theorem spaced (leftSpells : Spells left leftWords)
    (rightSpells : Spells right rightWords) :
    Spells (left ++ ' ' :: right) (leftWords ++ rightWords) where
  reads := by
    intro rest tokens stops reads
    have isBlank : Blank ' ' := by decide
    have behind := (rightSpells.reads stops reads).blank isBlank
    have both := leftSpells.reads ((Stop.of_blank isBlank).stops _) behind
    simpa using both
  lines := by
    intro word member
    rcases List.mem_append.mp member with onLeft | onRight
    · exact leftSpells.lines word onLeft
    · exact rightSpells.lines word onRight
  noBreak := by
    simp [leftSpells.noBreak, rightSpells.noBreak]

theorem enclosed (spells : Spells left leftWords) :
    Spells ('(' :: (left ++ [')']))
      (Token.opening 1 :: (leftWords ++ [Token.closing 1])) where
  reads := by
    intro rest tokens stops reads
    have stop : Stop ')' := by constructor <;> decide
    have opens : Spelled (Token.opening 1) := .symbol (by decide)
    have closes : Spelled (Token.closing 1) := .symbol (by decide)
    have inside : Reads (left ++ ')' :: rest)
        (leftWords ++ Token.closing 1 :: tokens) :=
      spells.reads (stop.stops rest) (reads.token closes stops)
    have whole : Reads ('(' :: (left ++ ')' :: rest))
        (Token.opening 1 :: (leftWords ++ Token.closing 1 :: tokens)) :=
      inside.piece opens (split_symbol rfl (by decide) (fun _ => rfl) _)
    simpa using whole
  lines := by
    intro word member
    simp only [List.mem_cons, List.mem_append, List.not_mem_nil,
      or_false] at member
    rcases member with rfl | inside | rfl
    · rfl
    · exact spells.lines word inside
    · rfl
  noBreak := by
    simp [spells.noBreak]

/-- A text that spells some tokens is scanned to them without a fault. -/
theorem scan {source : String} {words : List Token}
    (spells : Spells source.toList words) :
    (scan source).faults = [] ∧
      (LoxExpr.scan source).tokens = words ++ [Token.endOfInput 1] := by
  have reads := spells.reads stops_nil Reads.nil
  rw [List.append_nil, List.append_nil] at reads
  have noBreaks : lineBreaks source.toList = 0 :=
    List.count_eq_zero.mpr spells.noBreak
  have same : contents tokenOf? [] source.toList = words := by
    have scanned := map_onLine_tokens 1 [] (split source.toList)
    rw [reads.tokens 1, map_onLine_eq_self spells.lines] at scanned
    rw [← scanned]
    apply (map_onLine_eq_self _).symm
    intro token member
    exact line_of_mem_tokens spells.noBreak member
  constructor
  · exact (faults_eq_nil_iff source).mpr reads.rules
  · rw [tokens_scan, same, noBreaks]

end Spells

end Lexis

end LoxExpr
