import LoxExpr.Proofs.Lexis.Tokenization

/-!
# Seams between texts

When a text goes on with another one, its own pieces stay what they are if no
piece could take the first character of what follows.  Such a character, a
blank or a closing parenthesis, is taken by an open string only, and by a
comment if it is no line break.  Behind the seam the tokens and the faults are
those of the other text alone, on later lines.
-/

namespace LoxExpr

/-- The token, so many lines further down. -/
def Token.raise (lines : Nat) (token : Token) : Token :=
  { token with line := lines + token.line }

/-- The fault, so many lines further down. -/
def Fault.raise (lines : Nat) : Fault → Fault
  | .lexical line flaw => .lexical (lines + line) flaw
  | .grammatical line place detail => .grammatical (lines + line) place detail
  | .runtime line place detail => .runtime (lines + line) place detail
  | .unsupported line place feature =>
      .unsupported (lines + line) place feature

namespace Lexis

open Piece

section Stop

variable {p : Char → Bool} {c : Char}

theorem takeWhile_append_stop (stops : p c = false)
    (text rest : List Char) :
    (text ++ c :: rest).takeWhile p = text.takeWhile p := by
  induction text with
  | nil => simp [stops]
  | cons d text induction =>
      simp only [List.cons_append, List.takeWhile_cons, induction]

theorem dropWhile_append_stop (stops : p c = false)
    (text rest : List Char) :
    (text ++ c :: rest).dropWhile p = text.dropWhile p ++ c :: rest := by
  induction text with
  | nil => simp [stops]
  | cons d text induction =>
      simp only [List.cons_append, List.dropWhile_cons, induction]
      split <;> rfl

theorem takeFraction_append_stop (notDigit : c.isDigit = false)
    (notPoint : c ≠ '.') (text rest : List Char) :
    takeFraction (text ++ c :: rest) = takeFraction text := by
  match text with
  | [] => simp [takeFraction, notPoint]
  | [d] =>
      by_cases isPoint : d = '.'
      · simp [takeFraction, isPoint, notDigit]
      · simp [takeFraction, isPoint]
  | d :: e :: text =>
      by_cases isPoint : d = '.'
      · simp [takeFraction, isPoint, takeWhile_append_stop notDigit]
      · simp [takeFraction, isPoint]

end Stop

/-- No word goes on with this character: it is no part of a numeral or a name,
nor the second character of a symbol or of what opens a comment. -/
structure Stop (c : Char) : Prop where
  notName : continuesName c = false
  notSign : c ≠ '='
  notPoint : c ≠ '.'
  notSlash : c ≠ '/'

/-- A text that begins with a stop, or is empty. -/
def Stops (text : List Char) : Prop :=
  ∀ c ∈ text.head?, Stop c

theorem Stop.of_blank {c : Char} (blank : Blank c) : Stop c := by
  rcases blank with rfl | rfl | rfl | rfl <;> constructor <;> decide

theorem Stop.notDigit {c : Char} (stop : Stop c) : c.isDigit = false := by
  have notName := stop.notName
  rw [continuesName, Bool.or_eq_false_iff] at notName
  exact notName.2

theorem Stop.stops {c : Char} (stop : Stop c) (rest : List Char) :
    Stops (c :: rest) := by
  rintro d found
  cases found
  exact stop

theorem stops_nil : Stops [] := by
  rintro c found
  cases found

/-- If the first piece stays the same in front of more text, what is left of
the text grows by the same. -/
theorem cut_append_of_piece {head : Char} {tail more : List Char}
    (same : (cut head (tail ++ more)).1 = (cut head tail).1) :
    cut head (tail ++ more) =
      ((cut head tail).1, (cut head tail).2 ++ more) := by
  have grown := cut_text head (tail ++ more)
  rw [same, ← List.cons_append, ← cut_text head tail,
    List.append_assoc] at grown
  exact Prod.ext same (List.append_cancel_left grown)

theorem piece_cutString_append {tail : List Char}
    (closed : (cutString tail).1.role ≠ .flawed .unterminated)
    (more : List Char) :
    (cutString (tail ++ more)).1 = (cutString tail).1 := by
  have whole : tail.takeWhile (· != '"') ++ tail.dropWhile (· != '"') =
      tail := List.takeWhile_append_dropWhile
  unfold cutString at closed ⊢
  cases remaining : tail.dropWhile (· != '"') with
  | nil => simp [remaining] at closed
  | cons quote rest =>
      have shorter :
          (tail.takeWhile (· != '"')).length ≠ tail.length := by
        rw [remaining] at whole
        rw [← congrArg List.length whole]
        simp
      simp [List.takeWhile_append, List.dropWhile_append, remaining, shorter]

theorem piece_cutSymbol_append {head c : Char} (stop : Stop c)
    (tail rest : List Char) :
    (cutSymbol head (tail ++ c :: rest)).1 = (cutSymbol head tail).1 := by
  have noPair : pairSymbol? head c = none := by
    by_contra found
    obtain ⟨kind, found⟩ := Option.ne_none_iff_exists'.mp found
    exact stop.notSign (single_of_pairSymbol? found).1
  unfold cutSymbol
  cases tail with
  | nil =>
      simp only [List.nil_append, List.head?_cons, Option.bind_some, noPair,
        List.head?_nil, Option.bind_none]
      split <;> rfl
  | cons d tail =>
      simp only [List.cons_append, List.head?_cons, Option.bind_some]
      split
      · rfl
      · split <;> rfl

/-- A stop behind a text leaves its first piece alone, unless this is an open
string, or a blank or comment in front of a stop on the same line. -/
theorem cut_append_stop {head c : Char} {tail : List Char}
    (stop : Stop c)
    (closed : (cut head tail).1.role ≠ .flawed .unterminated)
    (apart : c = '\n' ∨ (cut head tail).1.role ≠ .blank)
    (rest : List Char) :
    cut head (tail ++ c :: rest) =
      ((cut head tail).1, (cut head tail).2 ++ c :: rest) := by
  have notDigit := stop.notDigit
  apply cut_append_of_piece
  by_cases headBlank : Blank head
  · rw [cut_of_blank headBlank, cut_of_blank headBlank]
  by_cases isQuote : head = '"'
  · rw [isQuote, cut_quote] at closed
    rw [isQuote, cut_quote, cut_quote]
    exact piece_cutString_append closed _
  by_cases digit : Digit head
  · rw [cut_of_digit digit, cut_of_digit digit]
    simp only [cutNumeral, takeWhile_append_stop notDigit,
      dropWhile_append_stop notDigit,
      takeFraction_append_stop notDigit stop.notPoint]
  by_cases letter : Letter head
  · rw [cut_of_letter letter, cut_of_letter letter]
    simp only [cutName, takeWhile_append_stop stop.notName]
  by_cases comment : head = '/' ∧ tail.head? = some '/'
  · obtain ⟨rfl, second⟩ := comment
    obtain ⟨body, rfl⟩ := List.head?_eq_some_iff.mp second
    -- Only a line break can follow a comment, and it is not taken.
    rw [cut_slashes] at apart
    have isBreak : c = '\n' := by
      rcases apart with isBreak | noBlank
      · exact isBreak
      · exact absurd rfl noBlank
    have taken : (body ++ c :: rest).takeWhile (· != '\n') =
        body.takeWhile (· != '\n') :=
      takeWhile_append_stop (by simp [isBreak]) body rest
    rw [List.cons_append, cut_slashes, cut_slashes]
    simp [cutComment, taken]
  · have stillNone : ¬ (head = '/' ∧
        (tail ++ c :: rest).head? = some '/') := by
      cases tail with
      | nil => simp [stop.notSlash]
      | cons d tail => exact comment
    rw [cut_of_other headBlank isQuote digit letter comment,
      cut_of_other headBlank isQuote digit letter stillNone]
    exact piece_cutSymbol_append stop tail rest

/-- A line break behind a text without an open string ends its last piece. -/
theorem split_append_break (text rest : List Char)
    (closed : ∀ piece ∈ split text, piece.role ≠ .flawed .unterminated) :
    split (text ++ '\n' :: rest) = split text ++ split ('\n' :: rest) := by
  fun_induction split text with
  | case1 => rfl
  | case2 head tail induction =>
      have first := closed _ List.mem_cons_self
      have later : ∀ piece ∈ split (cut head tail).2,
          piece.role ≠ .flawed .unterminated := by
        intro piece member
        exact closed piece (List.mem_cons_of_mem _ member)
      have stop : Stop '\n' := .of_blank (by decide)
      rw [List.cons_append, split,
        cut_append_stop stop first (.inl rfl) rest]
      simp only [induction later, List.cons_append]

theorem split_blank {c : Char} (blank : Blank c) (rest : List Char) :
    split (c :: rest) = ⟨[c], .blank⟩ :: split rest := by
  rw [split, cut_of_blank blank]

/-- A word of a rule that stands alone is cut off as a whole. -/
theorem Rule.cut_word {head : Char} {tail : List Char} {role : Role}
    (rule : Rule (head :: tail) role) :
    cut head tail = (⟨head :: tail, role⟩, []) := by
  have whole := cut_text head tail
  have covers := rule.covers []
  rw [List.append_nil] at covers
  rcases covers with exact | ⟨longer, _⟩
  · rw [exact] at whole
    exact Prod.ext exact (List.append_right_eq_self.mp whole)
  · have bounded := congrArg List.length whole
    rw [List.length_append] at bounded
    omega

/-- A token in front of a stop, or at the end, is a piece of its own. -/
theorem Rule.split_append {word : List Char} {kind : Token.Kind}
    {literal : Option Value} (rule : Rule word (.token kind literal))
    {rest : List Char} (stops : Stops rest) :
    split (word ++ rest) = ⟨word, .token kind literal⟩ :: split rest := by
  obtain ⟨head, tail, rfl⟩ := List.exists_cons_of_ne_nil rule.ne_nil
  have alone := rule.cut_word
  cases rest with
  | nil => simp only [List.append_nil, split, alone]
  | cons c rest =>
      have apart : cut head (tail ++ c :: rest) =
          ((cut head tail).1, (cut head tail).2 ++ c :: rest) :=
        cut_append_stop (stops c rfl) (by simp [alone]) (by simp [alone]) rest
      rw [List.cons_append, split, apart, alone, List.nil_append]

/-- A symbol that begins no longer one is a piece of its own. -/
theorem split_symbol {c : Char} {kind : Token.Kind}
    (found : symbol? c = some kind) (noSlash : c ≠ '/')
    (noPair : ∀ d, pairSymbol? c d = none) (rest : List Char) :
    split (c :: rest) = ⟨[c], .token kind none⟩ :: split rest := by
  have pair : rest.head?.bind (pairSymbol? c) = none := by
    cases rest with
    | nil => rfl
    | cons d rest => exact noPair d
  rw [split, cut_of_symbol found (by simp [noSlash])]
  simp only [cutSymbol, pair, found]

section Behind

theorem placed_append (before : List Char) (pieces more : List Piece) :
    placed before (pieces ++ more) =
      placed before pieces ++
        placed (before ++ pieces.flatMap Piece.text) more := by
  induction pieces generalizing before with
  | nil => simp [placed]
  | cons piece pieces induction => simp [placed, induction]

theorem placed_behind (front before : List Char) (pieces : List Piece) :
    placed (front ++ before) pieces =
      (placed before pieces).map (Prod.map (front ++ ·) id) := by
  induction pieces generalizing before with
  | nil => rfl
  | cons piece pieces induction =>
      simp [placed, ← induction, List.append_assoc]

theorem line_behind (front text : List Char) :
    1 + lineBreaks (front ++ text) =
      lineBreaks front + (1 + lineBreaks text) := by
  rw [lineBreaks_append]
  omega

theorem tokenOf?_behind (front : List Char) (entry : List Char × Piece) :
    tokenOf? (Prod.map (front ++ ·) id entry) =
      (tokenOf? entry).map (Token.raise (lineBreaks front)) := by
  obtain ⟨before, text, role⟩ := entry
  cases role with
  | token kind literal =>
      simp [tokenOf?, Token.raise, line_behind]
  | _ => rfl

theorem faultOf?_behind (front : List Char) (entry : List Char × Piece) :
    faultOf? (Prod.map (front ++ ·) id entry) =
      (faultOf? entry).map (Fault.raise (lineBreaks front)) := by
  obtain ⟨before, text, role⟩ := entry
  cases role with
  | flawed flaw =>
      simp [faultOf?, Fault.raise, line_behind]
  | _ => rfl

/-- What the pieces of a text that stands behind another one contribute. -/
def contents {α : Type} (item : List Char × Piece → Option α)
    (before text : List Char) : List α :=
  (placed before (split text)).filterMap item

theorem contents_of_split {α : Type} (item : List Char × Piece → Option α)
    (before : List Char) {text rest : List Char} {pieces : List Piece}
    (cuts : split text = pieces ++ split rest) :
    contents item before text =
      (placed before pieces).filterMap item ++
        contents item (before ++ pieces.flatMap Piece.text) rest := by
  rw [contents, cuts, placed_append, List.filterMap_append]
  rfl

theorem contents_behind {α : Type} {item : List Char × Piece → Option α}
    {raise : Nat → α → α}
    (raises : ∀ front entry, item (Prod.map (front ++ ·) id entry) =
      (item entry).map (raise (lineBreaks front)))
    (before text : List Char) :
    contents item before text =
      (contents item [] text).map (raise (lineBreaks before)) := by
  have moved := placed_behind before [] (split text)
  rw [List.append_nil] at moved
  rw [contents, moved, List.filterMap_map, contents, List.map_filterMap]
  exact congrArg (List.filterMap · _) (funext (raises before))

/-- The tokens of a text behind another one are its own on later lines. -/
theorem tokens_behind (before text : List Char) :
    contents tokenOf? before text =
      (contents tokenOf? [] text).map (Token.raise (lineBreaks before)) :=
  contents_behind tokenOf?_behind before text

theorem faults_behind (before text : List Char) :
    contents faultOf? before text =
      (contents faultOf? [] text).map (Fault.raise (lineBreaks before)) :=
  contents_behind faultOf?_behind before text

theorem tokens_scan (source : String) :
    (scan source).tokens = contents tokenOf? [] source.toList ++
      [Token.endOfInput (1 + lineBreaks source.toList)] := by
  rw [scan_eq]
  rfl

theorem faults_scan (source : String) :
    (scan source).faults = contents faultOf? [] source.toList := by
  rw [scan_eq]
  rfl

end Behind

end Lexis

end LoxExpr
