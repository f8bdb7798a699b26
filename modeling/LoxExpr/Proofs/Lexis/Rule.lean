import LoxExpr.Piece

/-!
# Lexical rules

The rules say which words a text may be split into, and what each of them is:
a blank, or a token with its kind and its literal.  A text begins with the
longest word of a rule.  Where no word of any rule begins, a quote takes the
whole rest, and any other character stands alone; both are flawed.
-/

namespace LoxExpr

namespace Lexis

def Blank (c : Char) : Prop :=
  c = ' ' ∨ c = '\r' ∨ c = '\t' ∨ c = '\n'

def Digit (c : Char) : Prop :=
  '0' ≤ c ∧ c ≤ '9'

/-- A character that a name can begin with. -/
def Letter (c : Char) : Prop :=
  ('A' ≤ c ∧ c ≤ 'Z') ∨ ('a' ≤ c ∧ c ≤ 'z') ∨ c = '_'

instance (c : Char) : Decidable (Blank c) :=
  inferInstanceAs (Decidable (_ ∨ _))

instance (c : Char) : Decidable (Digit c) :=
  inferInstanceAs (Decidable (_ ∧ _))

instance (c : Char) : Decidable (Letter c) :=
  inferInstanceAs (Decidable (_ ∨ _))

/-- The punctuation and the operators, with their kinds. -/
def symbols : List (List Char × Token.Kind) :=
  [(['('], .leftParen), ([')'], .rightParen),
    (['{'], .leftBrace), (['}'], .rightBrace),
    ([','], .comma), (['.'], .dot), ([';'], .semicolon),
    (['+'], .operator .plus), (['-'], .operator .minus),
    (['*'], .operator .times), (['/'], .operator .over),
    (['!'], .operator .not), (['!', '='], .operator .differs),
    (['='], .equalSign), (['=', '='], .operator .equals),
    (['<'], .operator .less), (['<', '='], .operator .atMost),
    (['>'], .operator .greater), (['>', '='], .operator .atLeast)]

/-- A word of a lexical rule, and what it contributes. -/
inductive Rule : List Char → Piece.Role → Prop where
  | blank {c : Char} :
      Blank c → Rule [c] .blank
  | comment {body : List Char} :
      (∀ c ∈ body, c ≠ '\n') →
      Rule ('/' :: '/' :: body) .blank
  | symbol {word : List Char} {kind : Token.Kind} :
      (word, kind) ∈ symbols →
      Rule word (.token kind none)
  | string {content : List Char} :
      (∀ c ∈ content, c ≠ '"') →
      Rule ('"' :: (content ++ ['"']))
        (.token .string (some (.string (String.ofList content))))
  | integer {digits : List Char} :
      digits ≠ [] → (∀ c ∈ digits, Digit c) →
      Rule digits
        (.token .number
          (some (.number
            (Decimal.mk (Nat.ofDigitChars 10 digits 0) 0).toFloat)))
  | fraction {whole decimals : List Char} :
      whole ≠ [] → (∀ c ∈ whole, Digit c) →
      decimals ≠ [] → (∀ c ∈ decimals, Digit c) →
      Rule (whole ++ '.' :: decimals)
        (.token .number
          (some (.number
            (Decimal.mk (Nat.ofDigitChars 10 (whole ++ decimals) 0)
              (-decimals.length)).toFloat)))
  | keyword {head : Char} {tail : List Char} (word : Keyword) :
      Letter head → (∀ c ∈ tail, Letter c ∨ Digit c) →
      word.word = String.ofList (head :: tail) →
      Rule (head :: tail) (.token (.keyword word) none)
  | identifier {head : Char} {tail : List Char} :
      Letter head → (∀ c ∈ tail, Letter c ∨ Digit c) →
      (∀ word : Keyword, word.word ≠ String.ofList (head :: tail)) →
      Rule (head :: tail) (.token .identifier none)

/-- No word of a rule is the beginning of the text. -/
def Unmatched (text : List Char) : Prop :=
  ∀ word role, Rule word role → ¬ word <+: text

/-- How a text begins: with its first piece, in front of the rest. -/
inductive Begins : List Char → Piece → List Char → Prop where
  | longest {word rest : List Char} {role : Piece.Role} :
      Rule word role →
      (∀ other role', Rule other role' → other <+: word ++ rest →
        other.length ≤ word.length) →
      Begins (word ++ rest) ⟨word, role⟩ rest
  | unterminated {content : List Char} :
      Unmatched ('"' :: content) →
      Begins ('"' :: content) ⟨'"' :: content, .flawed .unterminated⟩ []
  | unexpected {c : Char} {rest : List Char} :
      Unmatched (c :: rest) → c ≠ '"' →
      Begins (c :: rest) ⟨[c], .flawed (.unexpected c)⟩ rest

/-- A text split from left to right. -/
inductive Splits : List Char → List Piece → Prop where
  | nil : Splits [] []
  | cons {text rest : List Char} {piece : Piece} {pieces : List Piece} :
      Begins text piece rest → Splits rest pieces →
      Splits text (piece :: pieces)

theorem isSeparator_iff {c : Char} :
    Piece.isSeparator c = true ↔ Blank c := by
  simp [Piece.isSeparator, Blank, or_assoc]

theorem isDigit_iff {c : Char} : c.isDigit = true ↔ Digit c := by
  simp [Char.isDigit, Digit, Char.le_def]

theorem startsName_iff {c : Char} :
    Piece.startsName c = true ↔ Letter c := by
  have ranges : c.isAlpha =
      (decide ('A' ≤ c ∧ c ≤ 'Z') ||
        (decide ('a' ≤ c) && decide (c ≤ 'z'))) := rfl
  simp [Piece.startsName, Letter, ranges, or_assoc]

theorem continuesName_iff {c : Char} :
    Piece.continuesName c = true ↔ Letter c ∨ Digit c := by
  simp [Piece.continuesName, startsName_iff, isDigit_iff]

theorem not_letter_of_digit {c : Char} (digit : Digit c) : ¬ Letter c := by
  obtain ⟨_, low⟩ := digit
  rintro (⟨high, _⟩ | ⟨high, _⟩ | rfl)
  · exact absurd (Char.le_trans high low) (by decide)
  · exact absurd (Char.le_trans high low) (by decide)
  · exact absurd low (by decide)

theorem mem_symbols_of_symbol? {c : Char} {kind : Token.Kind}
    (found : Piece.symbol? c = some kind) : ([c], kind) ∈ symbols := by
  unfold Piece.symbol? at found
  split at found <;> cases found <;> decide

theorem mem_symbols_of_pairSymbol? {c d : Char} {kind : Token.Kind}
    (found : Piece.pairSymbol? c d = some kind) :
    ([c, d], kind) ∈ symbols := by
  unfold Piece.pairSymbol? at found
  split at found <;> cases found <;> decide

/-- The second character of a symbol is an equal sign, and the first one is
a symbol on its own. -/
theorem single_of_pairSymbol? {c d : Char} {kind : Token.Kind}
    (found : Piece.pairSymbol? c d = some kind) :
    d = '=' ∧ ∃ single, Piece.symbol? c = some single := by
  unfold Piece.pairSymbol? at found
  split at found <;> cases found <;> exact ⟨rfl, _, rfl⟩

/-- The kind of a word that is a symbol. -/
def symbolKind? : List Char → Option Token.Kind
  | [c] => Piece.symbol? c
  | [c, d] => Piece.pairSymbol? c d
  | _ => none

theorem symbolKind?_of_mem {word : List Char} {kind : Token.Kind}
    (member : (word, kind) ∈ symbols) : symbolKind? word = some kind := by
  have listed :
      ∀ entry ∈ symbols, symbolKind? entry.1 = some entry.2 := by
    decide
  exact listed (word, kind) member

theorem symbol_cases {word : List Char} {kind : Token.Kind}
    (member : (word, kind) ∈ symbols) :
    (∃ c, word = [c] ∧ Piece.symbol? c = some kind) ∨
      ∃ c d, word = [c, d] ∧ Piece.pairSymbol? c d = some kind := by
  have found := symbolKind?_of_mem member
  unfold symbolKind? at found
  split at found
  · next c => exact .inl ⟨c, rfl, found⟩
  · next c d => exact .inr ⟨c, d, rfl, found⟩
  · cases found

theorem Rule.ne_nil {word : List Char} {role : Piece.Role}
    (rule : Rule word role) : word ≠ [] := by
  cases rule with
  | symbol member =>
      rcases symbol_cases member with ⟨_, rfl, _⟩ | ⟨_, _, rfl, _⟩ <;> simp
  | integer nonempty => exact nonempty
  | _ => simp

theorem Rule.ne_flawed {word : List Char} {role : Piece.Role}
    (rule : Rule word role) (flaw : Flaw) : role ≠ .flawed flaw := by
  cases rule <;> simp

/-- A blank in a word is the whole word, or it is in a comment or a string. -/
theorem Rule.holds_blank {word : List Char} {role : Piece.Role}
    (rule : Rule word role) {c : Char} (blank : Blank c) (inside : c ∈ word) :
    (role = .blank ∧
        (word = [c] ∨
          ∃ body, word = '/' :: '/' :: body ∧ ∀ d ∈ body, d ≠ '\n')) ∨
      ∃ content literal, role = .token .string literal ∧
        word = '"' :: (content ++ ['"']) ∧ ∀ d ∈ content, d ≠ '"' := by
  have notDigit : ¬ Digit c := by
    rcases blank with rfl | rfl | rfl | rfl <;> decide
  have notName : ¬ (Letter c ∨ Digit c) := by
    rcases blank with rfl | rfl | rfl | rfl <;> decide
  cases rule with
  | blank =>
      rw [List.mem_singleton.mp inside]
      exact .inl ⟨rfl, .inl rfl⟩
  | comment inner => exact .inl ⟨rfl, .inr ⟨_, rfl, inner⟩⟩
  | string inner => exact .inr ⟨_, _, rfl, rfl, inner⟩
  | symbol member =>
      have listed : ∀ entry ∈ symbols,
          entry.1.any Piece.isSeparator = false := by
        decide
      have apart := List.any_eq_false.mp (listed _ member) c inside
      exact absurd (isSeparator_iff.mpr blank) apart
  | integer _ digits => exact absurd (digits c inside) notDigit
  | fraction _ wholeDigits _ digits =>
      rcases List.mem_append.mp inside with inWhole | behind
      · exact absurd (wholeDigits c inWhole) notDigit
      · rcases List.mem_cons.mp behind with rfl | inDecimals
        · exact absurd blank (by decide)
        · exact absurd (digits c inDecimals) notDigit
  | keyword _ letter others | identifier letter others =>
      rcases List.mem_cons.mp inside with rfl | inTail
      · exact absurd (.inl letter) notName
      · exact absurd (others c inTail) notName

end Lexis

end LoxExpr
