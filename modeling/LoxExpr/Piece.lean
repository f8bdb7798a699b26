import LoxExpr.Fault

/-!
# Pieces of a text

A text falls into pieces from left to right: blanks and comments, tokens, and
flawed pieces that are no token.  `Piece.cut` takes the first piece off a text
that is not empty.  No character is lost, and every piece has at least one, so
a text of any length is split.
-/

namespace LoxExpr

/-- What a piece of a text contributes to the tokens and the faults. -/
inductive Piece.Role where
  | blank
  | token (kind : Token.Kind) (literal : Option Value)
  | flawed (flaw : Flaw)

structure Piece where
  text : List Char
  role : Piece.Role

namespace Piece

/-- The characters that separate tokens and do nothing else. -/
def isSeparator (c : Char) : Bool :=
  c == ' ' || c == '\r' || c == '\t' || c == '\n'

/-- The first character of a name is an ASCII letter or an underscore. -/
def startsName (c : Char) : Bool :=
  c.isAlpha || c == '_'

def continuesName (c : Char) : Bool :=
  startsName c || c.isDigit

/-- The kind of a symbol of one character. -/
def symbol? : Char → Option Token.Kind
  | '(' => some .leftParen
  | ')' => some .rightParen
  | '{' => some .leftBrace
  | '}' => some .rightBrace
  | ',' => some .comma
  | '.' => some .dot
  | ';' => some .semicolon
  | '+' => some (.operator .plus)
  | '-' => some (.operator .minus)
  | '*' => some (.operator .times)
  | '/' => some (.operator .over)
  | '!' => some (.operator .not)
  | '=' => some .equalSign
  | '<' => some (.operator .less)
  | '>' => some (.operator .greater)
  | _ => none

/-- The kind of a symbol of two characters. -/
def pairSymbol? : Char → Char → Option Token.Kind
  | '!', '=' => some (.operator .differs)
  | '=', '=' => some (.operator .equals)
  | '<', '=' => some (.operator .atMost)
  | '>', '=' => some (.operator .atLeast)
  | _, _ => none

/-- A string reaches to the next quote; without one it takes the whole rest
and is flawed. -/
def cutString (tail : List Char) : Piece × List Char :=
  let content := tail.takeWhile (· != '"')
  match tail.dropWhile (· != '"') with
  | [] => (⟨'"' :: content, .flawed .unterminated⟩, [])
  | quote :: rest =>
      (⟨'"' :: content ++ [quote],
        .token .string (some (.string (String.ofList content)))⟩, rest)

/-- The fraction at the beginning of a text: a point, if a digit follows it,
and the digits behind it. -/
def takeFraction : List Char → List Char
  | '.' :: digit :: rest =>
      if digit.isDigit then '.' :: digit :: rest.takeWhile Char.isDigit else []
  | _ => []

/-- A numeral is a run of digits with an optional fraction. -/
def cutNumeral (head : Char) (tail : List Char) : Piece × List Char :=
  let fraction := takeFraction (tail.dropWhile Char.isDigit)
  let numeral := head :: tail.takeWhile Char.isDigit ++ fraction
  (⟨numeral,
    .token .number (some (.number (Decimal.ofNumeral numeral).toFloat))⟩,
    (tail.dropWhile Char.isDigit).drop fraction.length)

/-- A name is a keyword when it is spelled like one. -/
def cutName (head : Char) (tail : List Char) : Piece × List Char :=
  let name := head :: tail.takeWhile continuesName
  let kind :=
    match Keyword.ofWord? (String.ofList name) with
    | some word => Token.Kind.keyword word
    | none => Token.Kind.identifier
  (⟨name, .token kind none⟩, tail.dropWhile continuesName)

/-- A comment reaches to the end of its line and leaves the line break. -/
def cutComment (head : Char) (tail : List Char) : Piece × List Char :=
  (⟨head :: tail.takeWhile (· != '\n'), .blank⟩, tail.dropWhile (· != '\n'))

/-- A symbol of two characters wins over one of one character, and any other
character is flawed. -/
def cutSymbol (head : Char) (tail : List Char) : Piece × List Char :=
  match tail.head?.bind (pairSymbol? head) with
  | some kind => (⟨head :: tail.take 1, .token kind none⟩, tail.drop 1)
  | none =>
      match symbol? head with
      | some kind => (⟨[head], .token kind none⟩, tail)
      | none => (⟨[head], .flawed (.unexpected head)⟩, tail)

/-- The first piece of the text `head :: tail`, and what is left. -/
def cut (head : Char) (tail : List Char) : Piece × List Char :=
  if isSeparator head then (⟨[head], .blank⟩, tail)
  else if head = '"' then cutString tail
  else if head.isDigit then cutNumeral head tail
  else if startsName head then cutName head tail
  else if head = '/' ∧ tail.head? = some '/' then cutComment head tail
  else cutSymbol head tail

theorem cutString_text (tail : List Char) :
    (cutString tail).1.text ++ (cutString tail).2 = '"' :: tail := by
  have whole : tail.takeWhile (· != '"') ++ tail.dropWhile (· != '"') = tail :=
    List.takeWhile_append_dropWhile
  unfold cutString
  cases remaining : tail.dropWhile (· != '"') with
  | nil => simpa [remaining] using whole
  | cons quote rest => simpa [remaining] using whole

private theorem drop_takeWhile_length (text : List Char) (p : Char → Bool) :
    text.drop (text.takeWhile p).length = text.dropWhile p := by
  have dropped :
      (text.takeWhile p ++ text.dropWhile p).drop (text.takeWhile p).length =
        text.dropWhile p := List.drop_left
  rwa [List.takeWhile_append_dropWhile] at dropped

/-- The fraction is the beginning of the text it is taken from. -/
theorem takeFraction_append_drop (text : List Char) :
    takeFraction text ++ text.drop (takeFraction text).length = text := by
  fun_cases takeFraction text with
  | case1 digit rest isDigit =>
      simp [drop_takeWhile_length]
  | case2 digit rest notDigit => rfl
  | case3 => rfl

theorem cutNumeral_text (head : Char) (tail : List Char) :
    (cutNumeral head tail).1.text ++ (cutNumeral head tail).2 =
      head :: tail := by
  simp only [cutNumeral, List.cons_append, List.append_assoc,
    takeFraction_append_drop, List.takeWhile_append_dropWhile]

theorem cutSymbol_text (head : Char) (tail : List Char) :
    (cutSymbol head tail).1.text ++ (cutSymbol head tail).2 =
      head :: tail := by
  unfold cutSymbol
  split
  · simp only [List.cons_append, List.take_append_drop]
  · split <;> rfl

/-- Cutting loses no character. -/
theorem cut_text (head : Char) (tail : List Char) :
    (cut head tail).1.text ++ (cut head tail).2 = head :: tail := by
  unfold cut
  split
  · rfl
  · split
    · next isQuote => rw [isQuote, cutString_text]
    · split
      · exact cutNumeral_text head tail
      · split
        · simp [cutName]
        · split
          · simp [cutComment]
          · exact cutSymbol_text head tail

theorem cut_text_ne_nil (head : Char) (tail : List Char) :
    (cut head tail).1.text ≠ [] := by
  unfold cut
  split
  · simp
  · split
    · unfold cutString
      split <;> simp
    · split
      · simp [cutNumeral]
      · split
        · simp [cutName]
        · split
          · simp [cutComment]
          · unfold cutSymbol
            split
            · simp
            · split <;> simp

theorem length_cut_rest (head : Char) (tail : List Char) :
    (cut head tail).2.length < (head :: tail).length := by
  have whole := congrArg List.length (cut_text head tail)
  have positive :=
    List.length_pos_iff.mpr (cut_text_ne_nil head tail)
  rw [List.length_append] at whole
  omega

/-- All pieces of a text in their order. -/
def split : List Char → List Piece
  | [] => []
  | head :: tail => (cut head tail).1 :: split (cut head tail).2
termination_by text => text.length
decreasing_by exact length_cut_rest head tail

/-- The pieces of a text make up the text. -/
theorem flatMap_split (text : List Char) :
    (split text).flatMap Piece.text = text := by
  fun_induction split text with
  | case1 => rfl
  | case2 head tail induction =>
      rw [List.flatMap_cons, induction, cut_text]

/-- How many line breaks a text holds. -/
def lineBreaks (text : List Char) : Nat :=
  text.count '\n'

theorem lineBreaks_append (left right : List Char) :
    lineBreaks (left ++ right) = lineBreaks left + lineBreaks right :=
  List.count_append

end Piece

end LoxExpr
