import Mathlib.Data.List.TakeWhile
import LoxExpr.Proofs.Lexis.Rule

/-!
# Coverage

Wherever a word of a rule begins, the piece that is cut off is this word or a
longer one.  So no word of a rule is cut too short.
-/

namespace LoxExpr

namespace Lexis

open Piece

section Dispatch

variable {head : Char}

theorem cut_of_blank (blank : Blank head) (tail : List Char) :
    cut head tail = (⟨[head], .blank⟩, tail) := by
  simp [cut, isSeparator_iff.mpr blank]

theorem cut_quote (tail : List Char) : cut '"' tail = cutString tail := by
  simp [cut, isSeparator]

theorem cut_of_digit (digit : Digit head) (tail : List Char) :
    cut head tail = cutNumeral head tail := by
  have notBlank : ¬ isSeparator head = true := by
    rw [isSeparator_iff]
    rintro (rfl | rfl | rfl | rfl) <;> exact absurd digit (by decide)
  have notQuote : head ≠ '"' := by
    rintro rfl
    exact absurd digit (by decide)
  rw [cut, if_neg notBlank, if_neg notQuote, if_pos (isDigit_iff.mpr digit)]

theorem cut_of_letter (letter : Letter head) (tail : List Char) :
    cut head tail = cutName head tail := by
  have notBlank : ¬ isSeparator head = true := by
    rw [isSeparator_iff]
    rintro (rfl | rfl | rfl | rfl) <;> exact absurd letter (by decide)
  have notQuote : head ≠ '"' := by
    rintro rfl
    exact absurd letter (by decide)
  have notDigit : ¬ head.isDigit = true := by
    rw [isDigit_iff]
    intro digit
    exact not_letter_of_digit digit letter
  rw [cut, if_neg notBlank, if_neg notQuote, if_neg notDigit,
    if_pos (startsName_iff.mpr letter)]

theorem cut_slashes (tail : List Char) :
    cut '/' ('/' :: tail) = cutComment '/' ('/' :: tail) := by
  simp [cut, isSeparator, startsName]

/-- A character that no other rule takes begins a symbol or is flawed. -/
theorem cut_of_other {tail : List Char} (notBlank : ¬ Blank head)
    (notQuote : head ≠ '"') (notDigit : ¬ Digit head)
    (notLetter : ¬ Letter head)
    (noComment : ¬ (head = '/' ∧ tail.head? = some '/')) :
    cut head tail = cutSymbol head tail := by
  rw [← isSeparator_iff] at notBlank
  rw [← isDigit_iff] at notDigit
  rw [← startsName_iff] at notLetter
  rw [cut, if_neg notBlank, if_neg notQuote, if_neg notDigit,
    if_neg notLetter, if_neg noComment]

theorem cut_of_symbol {kind : Token.Kind} {tail : List Char}
    (found : symbol? head = some kind)
    (noComment : ¬ (head = '/' ∧ tail.head? = some '/')) :
    cut head tail = cutSymbol head tail := by
  have plain : isSeparator head = false ∧ head ≠ '"' ∧
      head.isDigit = false ∧ startsName head = false := by
    unfold symbol? at found
    split at found <;> cases found <;> decide
  obtain ⟨notBlank, notQuote, notDigit, notLetter⟩ := plain
  simp [cut, notBlank, notQuote, notDigit, notLetter, noComment]

end Dispatch

/-- The piece is this word of a rule, or a longer one without a flaw. -/
def Covers (piece : Piece) (word : List Char) (role : Role) : Prop :=
  piece = ⟨word, role⟩ ∨
    word.length < piece.text.length ∧ ∀ flaw, piece.role ≠ .flawed flaw

theorem covers_of_append {word more : List Char} {role : Role}
    {piece : Piece} (prolongs : piece.text = word ++ more)
    (same : more = [] → piece.role = role)
    (sound : ∀ flaw, piece.role ≠ .flawed flaw) :
    Covers piece word role := by
  cases more with
  | nil =>
      left
      rw [List.append_nil] at prolongs
      obtain ⟨text, role'⟩ := piece
      cases prolongs
      cases same rfl
      rfl
  | cons c more =>
      right
      refine ⟨?_, sound⟩
      rw [prolongs, List.length_append, List.length_cons]
      omega

theorem takeWhile_append_cons {p : Char → Bool} {word rest : List Char}
    {c : Char} (inside : ∀ d ∈ word, p d = true) (stops : p c = false) :
    (word ++ c :: rest).takeWhile p = word := by
  rw [List.takeWhile_append_of_pos inside,
    List.takeWhile_cons_of_neg (by simp [stops]), List.append_nil]

theorem dropWhile_append_cons {p : Char → Bool} {word rest : List Char}
    {c : Char} (inside : ∀ d ∈ word, p d = true) (stops : p c = false) :
    (word ++ c :: rest).dropWhile p = c :: rest := by
  rw [List.dropWhile_append_of_pos inside,
    List.dropWhile_cons_of_neg (by simp [stops])]

theorem isDigit_of_digits {head : Char} {tail : List Char}
    (inside : ∀ c ∈ head :: tail, Digit c) :
    head.isDigit = true ∧ ∀ c ∈ tail, c.isDigit = true := by
  constructor
  · exact isDigit_iff.mpr (inside head List.mem_cons_self)
  · intro c member
    exact isDigit_iff.mpr (inside c (List.mem_cons_of_mem _ member))

theorem ne_point_of_digits {digits : List Char}
    (inside : ∀ c ∈ digits, Digit c) :
    ∀ c ∈ digits, (c != '.') = true := by
  intro c member
  have digit := inside c member
  rw [bne_iff_ne]
  rintro rfl
  exact absurd digit (by decide)

theorem ofNumeral_integer {digits : List Char}
    (inside : ∀ c ∈ digits, Digit c) :
    Decimal.ofNumeral digits = ⟨Nat.ofDigitChars 10 digits 0, 0⟩ := by
  have noPoint := ne_point_of_digits inside
  have taken : digits.takeWhile (· != '.') = digits :=
    List.takeWhile_eq_self_iff.mpr noPoint
  have dropped : digits.dropWhile (· != '.') = [] :=
    List.dropWhile_eq_nil_iff.mpr noPoint
  simp [Decimal.ofNumeral, taken, dropped]

theorem ofNumeral_fraction {whole decimals : List Char}
    (inside : ∀ c ∈ whole, Digit c) :
    Decimal.ofNumeral (whole ++ '.' :: decimals) =
      ⟨Nat.ofDigitChars 10 (whole ++ decimals) 0, -decimals.length⟩ := by
  have noPoint := ne_point_of_digits inside
  have taken : (whole ++ '.' :: decimals).takeWhile (· != '.') = whole :=
    takeWhile_append_cons noPoint rfl
  have dropped : (whole ++ '.' :: decimals).dropWhile (· != '.') =
      '.' :: decimals :=
    dropWhile_append_cons noPoint rfl
  simp [Decimal.ofNumeral, taken, dropped]

/-- The kind of a name, according to the keywords. -/
def nameKind (name : List Char) : Token.Kind :=
  match Keyword.ofWord? (String.ofList name) with
  | some word => .keyword word
  | none => .identifier

theorem nameKind_of_reserved {name : List Char} {word : Keyword}
    (spelled : word.word = String.ofList name) :
    nameKind name = .keyword word := by
  simp [nameKind, Keyword.ofWord?_eq_some_iff.mpr spelled]

theorem nameKind_of_free {name : List Char}
    (free : ∀ word : Keyword, word.word ≠ String.ofList name) :
    nameKind name = .identifier := by
  rw [nameKind]
  cases found : Keyword.ofWord? (String.ofList name) with
  | some word =>
      exact absurd (Keyword.ofWord?_eq_some_iff.mp found) (free word)
  | none => rfl

theorem role_cutName (head : Char) (tail : List Char) :
    (cutName head tail).1.role =
      .token (nameKind (cutName head tail).1.text) none := rfl

theorem role_cutNumeral (head : Char) (tail : List Char) :
    (cutNumeral head tail).1.role =
      .token .number (some (.number
        (Decimal.ofNumeral (cutNumeral head tail).1.text).toFloat)) := rfl

section Coverage

variable {head : Char} {tail : List Char} (rest : List Char)

theorem comment_covers {body : List Char} (inner : ∀ c ∈ body, c ≠ '\n') :
    Covers (cut '/' ('/' :: body ++ rest)).1 ('/' :: '/' :: body) .blank := by
  have taken : (body ++ rest).takeWhile (· != '\n') =
      body ++ rest.takeWhile (· != '\n') :=
    List.takeWhile_append_of_pos (by simpa using inner)
  have prolongs : (cutComment '/' ('/' :: (body ++ rest))).1.text =
      ('/' :: '/' :: body) ++ rest.takeWhile (· != '\n') := by
    simp [cutComment, taken]
  rw [List.cons_append, cut_slashes]
  exact covers_of_append prolongs (fun _ => rfl) (by simp [cutComment])

theorem string_covers {content : List Char}
    (inner : ∀ c ∈ content, c ≠ '"') :
    Covers (cut '"' (content ++ ['"'] ++ rest)).1
      ('"' :: (content ++ ['"']))
      (.token .string (some (.string (String.ofList content)))) := by
  have inside : ∀ c ∈ content, (c != '"') = true := by simpa using inner
  have taken : (content ++ '"' :: rest).takeWhile (· != '"') = content :=
    takeWhile_append_cons inside rfl
  have dropped : (content ++ '"' :: rest).dropWhile (· != '"') =
      '"' :: rest :=
    dropWhile_append_cons inside rfl
  left
  rw [List.append_assoc, List.singleton_append, cut_quote]
  simp [cutString, taken, dropped]

theorem numeral_covers {word more : List Char} {decimal : Decimal}
    (prolongs : (cutNumeral head tail).1.text = word ++ more)
    (denotes : Decimal.ofNumeral word = decimal) :
    Covers (cutNumeral head tail).1 word
      (.token .number (some (.number decimal.toFloat))) := by
  apply covers_of_append prolongs
  · rintro rfl
    rw [role_cutNumeral, prolongs, List.append_nil, denotes]
  · intro flaw
    simp [role_cutNumeral]

theorem integer_covers (inside : ∀ c ∈ head :: tail, Digit c) :
    Covers (cut head (tail ++ rest)).1 (head :: tail)
      (.token .number (some (.number
        (Decimal.mk (Nat.ofDigitChars 10 (head :: tail) 0) 0).toFloat))) := by
  obtain ⟨_, tailInside⟩ := isDigit_of_digits inside
  have taken : (tail ++ rest).takeWhile Char.isDigit =
      tail ++ rest.takeWhile Char.isDigit :=
    List.takeWhile_append_of_pos tailInside
  have prolongs : (cutNumeral head (tail ++ rest)).1.text =
      (head :: tail) ++ (rest.takeWhile Char.isDigit ++
        takeFraction ((tail ++ rest).dropWhile Char.isDigit)) := by
    simp [cutNumeral, taken]
  rw [cut_of_digit (inside head List.mem_cons_self)]
  exact numeral_covers prolongs (ofNumeral_integer inside)

theorem fraction_covers {decimals : List Char}
    (inside : ∀ c ∈ head :: tail, Digit c) (nonempty : decimals ≠ [])
    (decimalsInside : ∀ c ∈ decimals, Digit c) :
    Covers (cut head (tail ++ '.' :: decimals ++ rest)).1
      (head :: tail ++ '.' :: decimals)
      (.token .number (some (.number
        (Decimal.mk (Nat.ofDigitChars 10 (head :: tail ++ decimals) 0)
          (-decimals.length)).toFloat))) := by
  obtain ⟨first, others, rfl⟩ := List.exists_cons_of_ne_nil nonempty
  obtain ⟨_, tailInside⟩ := isDigit_of_digits inside
  obtain ⟨firstInside, othersInside⟩ := isDigit_of_digits decimalsInside
  have taken : (tail ++ '.' :: (first :: (others ++ rest))).takeWhile
      Char.isDigit = tail :=
    takeWhile_append_cons tailInside rfl
  have dropped : (tail ++ '.' :: (first :: (others ++ rest))).dropWhile
      Char.isDigit = '.' :: first :: (others ++ rest) :=
    dropWhile_append_cons tailInside rfl
  have othersTaken : (others ++ rest).takeWhile Char.isDigit =
      others ++ rest.takeWhile Char.isDigit :=
    List.takeWhile_append_of_pos othersInside
  have prolongs :
      (cutNumeral head (tail ++ '.' :: first :: others ++ rest)).1.text =
        (head :: tail ++ '.' :: first :: others) ++
          rest.takeWhile Char.isDigit := by
    simp [cutNumeral, taken, dropped, takeFraction, firstInside, othersTaken]
  rw [cut_of_digit (inside head List.mem_cons_self)]
  exact numeral_covers prolongs (ofNumeral_fraction inside)

theorem name_covers {kind : Token.Kind} (letter : Letter head)
    (inside : ∀ c ∈ tail, Letter c ∨ Digit c)
    (spelled : nameKind (head :: tail) = kind) :
    Covers (cut head (tail ++ rest)).1 (head :: tail)
      (.token kind none) := by
  have tailInside : ∀ c ∈ tail, continuesName c = true := by
    intro c member
    exact continuesName_iff.mpr (inside c member)
  have taken : (tail ++ rest).takeWhile continuesName =
      tail ++ rest.takeWhile continuesName :=
    List.takeWhile_append_of_pos tailInside
  have prolongs : (cutName head (tail ++ rest)).1.text =
      (head :: tail) ++ rest.takeWhile continuesName := by
    simp [cutName, taken]
  rw [cut_of_letter letter]
  apply covers_of_append prolongs
  · intro nothing
    rw [role_cutName, prolongs, nothing, List.append_nil, spelled]
  · intro flaw
    simp [role_cutName]

theorem symbol_covers {kind : Token.Kind}
    (member : (head :: tail, kind) ∈ symbols) :
    Covers (cut head (tail ++ rest)).1 (head :: tail)
      (.token kind none) := by
  rcases symbol_cases member with ⟨c, same, found⟩ | ⟨c, d, same, found⟩
  · cases same
    by_cases comment : head = '/' ∧ rest.head? = some '/'
    · obtain ⟨rfl, second⟩ := comment
      obtain ⟨behind, rfl⟩ := List.head?_eq_some_iff.mp second
      right
      rw [List.nil_append, cut_slashes]
      simp [cutComment]
    · rw [List.nil_append, cut_of_symbol found comment]
      rw [cutSymbol]
      cases pair : rest.head?.bind (pairSymbol? head) with
      | none => simp [Covers, found]
      | some kind' =>
          right
          cases rest with
          | nil => cases pair
          | cons c behind => simp
  · cases same
    obtain ⟨rfl, single, foundSingle⟩ := single_of_pairSymbol? found
    left
    rw [cut_of_symbol foundSingle (by simp)]
    simp [cutSymbol, found]

end Coverage

/-- Where a word of a rule begins, the piece that is cut off covers it. -/
theorem Rule.covers {head : Char} {tail : List Char} {role : Role}
    (rule : Rule (head :: tail) role) (rest : List Char) :
    Covers (cut head (tail ++ rest)).1 (head :: tail) role := by
  generalize whole : head :: tail = word at rule
  cases rule with
  | blank blank =>
      cases whole
      left
      rw [cut_of_blank blank]
  | comment inner =>
      cases whole
      exact comment_covers rest inner
  | symbol member =>
      cases whole
      exact symbol_covers rest member
  | string inner =>
      cases whole
      exact string_covers rest inner
  | integer _ inside =>
      cases whole
      exact integer_covers rest inside
  | @fraction digits decimals nonempty inside decimalsNonempty
      decimalsInside =>
      obtain ⟨first, others, rfl⟩ := List.exists_cons_of_ne_nil nonempty
      cases whole
      exact fraction_covers rest inside decimalsNonempty decimalsInside
  | keyword reserved letter inside spelled =>
      cases whole
      exact name_covers rest letter inside (nameKind_of_reserved spelled)
  | identifier letter inside free =>
      cases whole
      exact name_covers rest letter inside (nameKind_of_free free)

end Lexis

end LoxExpr
