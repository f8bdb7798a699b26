/-!
# Flaws of written patterns

A written pattern that breaks the rules is refused with the reason, and with
carets below the spots that are to blame.  A spot is given by the text from
its start on and the text behind it.  Some patterns keep the rules but ask for
what there are no tables for, or are too large; they are refused as well.
-/

namespace LoxExpr

namespace Text

/-- Why a written pattern is refused. -/
inductive Pattern.Cause where
  | unclosedGroup
  | unopenedGroup
  | unclosedName
  | emptyName
  | invalidName
  | repeatedName
  | unknownFlag
  | repeatedFlag
  | danglingNegation
  | repeatedNegation
  | missingFlag
  | lookAround
  | backreference
  | missingExpression
  | unclosedCount
  | missingCount
  | invalidDecimal
  | descendingCount
  | incompleteEscape
  | unknownEscape
  | invalidProperty
  | invalidDigit
  | emptyCode
  | invalidCode
  | unclosedClass
  | placeInClass
  | classInRange
  | descendingRange
  | unclosedEdge
  | unknownEdge
  | endlessEdge
  | unknownProperty
  | unknownValue
  | missingKinds
  | missingCases
  | foreignLetter
  | brokenText
  | missingEdges
  | excessiveSize
deriving DecidableEq, Repr

def Pattern.Cause.message : Pattern.Cause → String
  | .unclosedGroup => "unclosed group"
  | .unopenedGroup => "unopened group"
  | .unclosedName => "unclosed capture group name"
  | .emptyName => "empty capture group name"
  | .invalidName => "invalid capture group character"
  | .repeatedName => "duplicate capture group name"
  | .unknownFlag => "unrecognized flag"
  | .repeatedFlag => "duplicate flag"
  | .danglingNegation => "dangling flag negation operator"
  | .repeatedNegation => "flag negation operator repeated"
  | .missingFlag => "expected flag but got end of regex"
  | .lookAround =>
      "look-around, including look-ahead and look-behind, is not supported"
  | .backreference => "backreferences are not supported"
  | .missingExpression => "repetition operator missing expression"
  | .unclosedCount => "unclosed counted repetition"
  | .missingCount => "repetition quantifier expects a valid decimal"
  | .invalidDecimal => "decimal literal invalid"
  | .descendingCount =>
      "invalid repetition count range, the start must be <= the end"
  | .incompleteEscape =>
      "incomplete escape sequence, reached end of pattern prematurely"
  | .unknownEscape => "unrecognized escape sequence"
  | .invalidProperty => "invalid Unicode character class"
  | .invalidDigit => "invalid hexadecimal digit"
  | .emptyCode => "hexadecimal literal empty"
  | .invalidCode => "hexadecimal literal is not a Unicode scalar value"
  | .unclosedClass => "unclosed character class"
  | .placeInClass => "invalid escape sequence found in character class"
  | .classInRange => "invalid range boundary, must be a literal"
  | .descendingRange =>
      "invalid character class range, the start must be <= the end"
  | .unclosedEdge =>
      "special word boundary assertion is either unclosed or contains an " ++
        "invalid character"
  | .unknownEdge =>
      "unrecognized special word boundary assertion, valid choices are: " ++
        "start, end, start-half or end-half"
  | .endlessEdge =>
      "found either the beginning of a special word boundary or a bounded " ++
        "repetition on a \\b with an opening brace, but no closing brace"
  | .unknownProperty => "Unicode property not found"
  | .unknownValue => "Unicode property value not found"
  | .missingKinds =>
      "Unicode-aware Perl class not found " ++
        "(make sure the unicode-perl feature is enabled)"
  | .missingCases =>
      "Unicode-aware case insensitivity matching is not available " ++
        "(make sure the unicode-case feature is enabled)"
  | .foreignLetter => "Unicode not allowed here"
  | .brokenText => "pattern can match invalid UTF-8"
  | .missingEdges => "error building NFA"
  | .excessiveSize => "Compiled regex exceeds size limit of 10485760 bytes."

/-- A part of a written pattern: the text from its start on, and the text
behind it. -/
structure Pattern.Spot where
  start : List Char
  behind : List Char
deriving DecidableEq, Repr

structure Pattern.Flaw where
  cause : Pattern.Cause
  spots : List Pattern.Spot
deriving DecidableEq, Repr

namespace Pattern

/-- The first character of a text. -/
def Spot.first (text : List Char) : Spot :=
  { start := text, behind := text.tail }

/-- The empty part in front of a text. -/
def Spot.before (text : List Char) : Spot :=
  { start := text, behind := text }

/-- Where in a written pattern the rest of it starts: the line and the column,
both counted from one. -/
def position (whole rest : List Char) : Nat × Nat :=
  let before := whole.take (whole.length - rest.length)
  (before.count '\n' + 1,
    (before.reverse.takeWhile (· != '\n')).length + 1)

namespace Flaw

/-- The flaw of one spot. -/
def ofSpot (cause : Cause) (spot : Spot) : Flaw :=
  { cause := cause, spots := [spot] }

/-- The first and the last position of each spot of a flaw. -/
def extents (whole : List Char) (flaw : Flaw) :
    List ((Nat × Nat) × (Nat × Nat)) :=
  flaw.spots.map fun spot =>
    (position whole spot.start, position whole spot.behind)

/-- The columns of a line that need a caret; an empty spot needs one. -/
def isMarked (whole : List Char) (flaw : Flaw) (line column : Nat) : Bool :=
  (flaw.extents whole).any fun (start, finish) =>
    start.1 = line && finish.1 = line &&
      start.2 ≤ column && column < max finish.2 (start.2 + 1)

/-- The carets below a line, without the blanks behind the last one. -/
def carets (whole : List Char) (flaw : Flaw) (line size : Nat) :
    List Char :=
  let marks :=
    (List.range (size + 1)).map fun index =>
      if flaw.isMarked whole line (index + 1) then '^' else ' '
  (marks.reverse.dropWhile (· = ' ')).reverse

/-- The lines of a written pattern, without the breaks that end them. -/
def lines (whole : List Char) : List (List Char) :=
  let parts := (String.ofList whole).splitOn "\n"
  let parts := if parts.getLast? = some "" then parts.dropLast else parts
  parts.map String.toList

/-- A line behind its heading, and the carets below it if there are any. -/
def annotate (whole : List Char) (flaw : Flaw) (heading : String)
    (number : Nat) (line : List Char) : String :=
  let marks := flaw.carets whole number line.length
  let below :=
    if marks.isEmpty then ""
    else "".pushn ' ' heading.length ++ String.ofList marks ++ "\n"
  heading ++ String.ofList line ++ "\n" ++ below

/-- The written pattern of a single line with its carets. -/
def picture (whole : List Char) (flaw : Flaw) : String :=
  flaw.annotate whole "    " 1 whole

/-- The written pattern of several lines, which are numbered, with the
carets. -/
def numberedPicture (whole : List Char) (flaw : Flaw) : String :=
  let width := (toString (whole.count '\n' + 1)).length
  let heading (number : Nat) :=
    let digits := toString number
    "".pushn ' ' (width - digits.length) ++ digits ++ ": "
  String.join ((lines whole).mapIdx fun index line =>
    flaw.annotate whole (heading (index + 1)) (index + 1) line)

/-- The spots that go over several lines, in words. -/
def longSpots (whole : List Char) (flaw : Flaw) : String :=
  let long := (flaw.extents whole).filter fun (start, finish) =>
    start.1 != finish.1
  String.join (long.map fun (start, finish) =>
    "on line " ++ toString start.1 ++ " (column " ++ toString start.2 ++
      ") through line " ++ toString finish.1 ++ " (column " ++
      toString (finish.2 - 1) ++ ")\n")

/-- The complaint about a written pattern.  A flaw without a spot concerns the
pattern as a whole. -/
def text (whole : List Char) (flaw : Flaw) : String :=
  let rule := "".pushn '~' 79 ++ "\n"
  if flaw.spots.isEmpty then flaw.cause.message
  else if whole.contains '\n' then
    "regex parse error:\n" ++ rule ++ flaw.numberedPicture whole ++ rule ++
      flaw.longSpots whole ++ "error: " ++ flaw.cause.message
  else
    "regex parse error:\n" ++ flaw.picture whole ++ "error: " ++
      flaw.cause.message

end Flaw

end Pattern

end Text

end LoxExpr
