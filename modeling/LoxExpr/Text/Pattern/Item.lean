import LoxExpr.Text.Blank
import LoxExpr.Text.Pattern
import LoxExpr.Text.Pattern.Flaw

/-!
# Items of written patterns

An item is a character or an escape.  What it means depends on the modes that
hold where it stands.  There are no tables for the kinds, the cases and the
properties of Unicode characters, so an item that asks for them has no meaning
unless a mode restricts it to ASCII; and what is restricted to ASCII must not
describe the single bytes of other characters.
-/

namespace LoxExpr

namespace Text

namespace Pattern

/-! Modes -/

/-- How a written pattern is understood. -/
structure Modes where
  anyCase : Bool
  everyLine : Bool
  dotAll : Bool
  spaced : Bool
  unicode : Bool
deriving DecidableEq, Repr

namespace Modes

def start : Modes :=
  { anyCase := false
    everyLine := false
    dotAll := false
    spaced := false
    unicode := true }

/-- The modes after a flag was turned on or off.  Some flags do not change
whether a text contains a pattern. -/
def set (modes : Modes) (flag : Char) (value : Bool) : Modes :=
  match flag with
  | 'i' => { modes with anyCase := value }
  | 'm' => { modes with everyLine := value }
  | 's' => { modes with dotAll := value }
  | 'x' => { modes with spaced := value }
  | 'u' => { modes with unicode := value }
  | _ => modes

/-- The text behind blanks and comments, if the modes ignore them. -/
def skip (modes : Modes) (text : List Char) : List Char :=
  if modes.spaced then behindBlanks false text else text
where
  behindBlanks (isComment : Bool) : List Char → List Char
    | [] => []
    | c :: rest =>
        if isComment then behindBlanks (c != '\n') rest
        else if c = '#' then behindBlanks true rest
        else if isBlank c then behindBlanks false rest
        else c :: rest

end Modes

def otherCase (c : Char) : Char :=
  if c.isUpper then c.toLower else c.toUpper

/-- A set of characters without regard to their case. -/
def inAnyCase (accepts : Char → Bool) (c : Char) : Bool :=
  accepts c || accepts (otherCase c)

/-- A set of characters as the modes understand it. -/
def Modes.fold (modes : Modes) (spot : Spot) (accepts : Char → Bool) :
    Except Flaw (Char → Bool) :=
  if !modes.anyCase then .ok accepts
  else if modes.unicode then .error (.ofSpot .missingCases spot)
  else .ok (inAnyCase accepts)

/-- A set of characters or, if that is asked for, its complement. -/
def Modes.negate (modes : Modes) (spot : Spot) (isNegated : Bool)
    (accepts : Char → Bool) : Except Flaw (Char → Bool) :=
  if !isNegated then .ok accepts
  else if modes.unicode then .ok fun c => !accepts c
  else .error (.ofSpot .brokenText spot)

/-! Meanings -/

inductive Item where
  | letter (c : Char) (isByte : Bool)
  | kind (accepts : Char → Bool) (isNegated : Bool)
  | property (name : String)
  | edge (holds : Option Char → Option Char → Bool)
  | place (holds : Option Char → Option Char → Bool)

/-- Abbreviations that could stand for a property or for one of its values
are taken for the value. -/
def propertyCause (name : String) : Cause :=
  if ["cf", "sc", "lc"].contains name.toLower then .unknownValue
  else .unknownProperty

namespace Item

/-- The characters that an item adds to a class. -/
def members (modes : Modes) (spot : Spot) :
    Item → Except Flaw (Char → Bool)
  | letter c isByte =>
      if modes.unicode || c.toNat < 0x80 then .ok (· == c)
      else if isByte then .error (.ofSpot .brokenText spot)
      else .error (.ofSpot .foreignLetter spot)
  | kind accepts isNegated =>
      if modes.unicode then .error (.ofSpot .missingKinds spot)
      else modes.negate spot isNegated accepts
  | property name =>
      if modes.unicode then .error (.ofSpot (propertyCause name) spot)
      else .error (.ofSpot .foreignLetter spot)
  | edge _ => .error (.ofSpot .placeInClass spot)
  | place _ => .error (.ofSpot .placeInClass spot)

/-- What an item means outside a class. -/
def pattern (modes : Modes) (spot : Spot) : Item → Except Flaw Pattern
  | letter c isByte =>
      if !modes.unicode && isByte && 0x80 ≤ c.toNat then
        .error (.ofSpot .brokenText spot)
      else (modes.fold spot (· == c)).map Pattern.one
  | edge holds => .ok (.place holds)
  | place holds => .ok (.place holds)
  | item => (item.members modes spot).map Pattern.one

/-- Whether an item asks which of all characters form words. -/
def needsWords (modes : Modes) : Item → Bool
  | edge _ => modes.unicode
  | _ => false

end Item

/-! Escapes -/

def isWord (c : Char) : Bool :=
  c.isAlphanum || c == '_'

def isWordSide (side : Option Char) : Bool :=
  side.any isWord

def isWordEdge (before behind : Option Char) : Bool :=
  isWordSide before != isWordSide behind

def isWordStart (before behind : Option Char) : Bool :=
  !isWordSide before && isWordSide behind

def isWordFinish (before behind : Option Char) : Bool :=
  isWordSide before && !isWordSide behind

def isSpace (c : Char) : Bool :=
  c == ' ' || 0x9 ≤ c.toNat && c.toNat ≤ 0xD

def hexValue? (c : Char) : Option Nat :=
  if c.isDigit then some (c.toNat - 48)
  else if 'a' ≤ c && c ≤ 'f' then some (c.toNat - 87)
  else if 'A' ≤ c && c ≤ 'F' then some (c.toNat - 55)
  else none

/-- The character of a code, if there is one. -/
def charOfCode? (code : Nat) : Option Char :=
  if code.isValidChar then some (Char.ofNat code) else none

/-- Reads a code of so many digits. -/
def readCode (start : List Char) (isByte : Bool) (code : Nat) :
    Nat → List Char → Except Flaw (Item × List Char)
  | 0, text =>
      match charOfCode? code with
      | some c => .ok (.letter c isByte, text)
      | none =>
          .error (.ofSpot .invalidCode { start := start, behind := text })
  | _ + 1, [] => .error (.ofSpot .incompleteEscape (.before []))
  | count + 1, c :: rest =>
      match hexValue? c with
      | some digit => readCode start isByte (16 * code + digit) count rest
      | none => .error (.ofSpot .invalidDigit (.first (c :: rest)))

/-- Reads a code that a closing brace ends. -/
def readBracedCode (brace : List Char) (code : Nat) (isEmpty : Bool) :
    List Char → Except Flaw (Item × List Char)
  | [] =>
      .error (.ofSpot .incompleteEscape { start := brace, behind := [] })
  | '}' :: rest =>
      if isEmpty then
        .error (.ofSpot .emptyCode { start := brace, behind := rest })
      else
        match charOfCode? code with
        | some c => .ok (.letter c false, rest)
        | none =>
            .error (.ofSpot .invalidCode
              { start := brace.tail, behind := '}' :: rest })
  | c :: rest =>
      match hexValue? c with
      | some digit => readBracedCode brace (16 * code + digit) false rest
      | none => .error (.ofSpot .invalidDigit (.first (c :: rest)))

/-- Reads the name of a property: one character, or several in braces. -/
def readProperty (text : List Char) : Except Flaw (Item × List Char) :=
  match text with
  | [] => .error (.ofSpot .incompleteEscape (.before []))
  | '\\' :: _ => .error (.ofSpot .invalidProperty (.first text))
  | '{' :: inner =>
      match inner.dropWhile (· != '}') with
      | [] => .error (.ofSpot .incompleteEscape (.before []))
      | _ :: rest =>
          let name := String.ofList (inner.takeWhile (· != '}'))
          .ok (.property name, rest)
  | c :: rest => .ok (.property c.toString, rest)

/-- Reads what may stand in braces behind the escape for a word edge.  Braces
that hold no letters are left to repetition. -/
def readEdge (text behind : List Char) : Except Flaw (Item × List Char) :=
  let isNameChar (c : Char) := c.isAlpha || c == '-'
  match behind with
  | '{' :: inner =>
      let name := inner.takeWhile isNameChar
      let rest := inner.dropWhile isNameChar
      if inner.isEmpty then
        .error (.ofSpot .endlessEdge { start := text, behind := [] })
      else if name.isEmpty then .ok (.edge isWordEdge, behind)
      else if rest.head? ≠ some '}' then
        .error (.ofSpot .unclosedEdge { start := behind, behind := rest })
      else
        match String.ofList name with
        | "start" => .ok (.edge isWordStart, rest.tail)
        | "end" => .ok (.edge isWordFinish, rest.tail)
        | "start-half" =>
            .ok (.edge fun before _ => !isWordSide before, rest.tail)
        | "end-half" =>
            .ok (.edge fun _ after => !isWordSide after, rest.tail)
        | _ => .error (.ofSpot .unknownEdge { start := inner, behind := rest })
  | _ => .ok (.edge isWordEdge, behind)

/-- What a character stands for behind a backslash. -/
def escaped? : Char → Option Item
  | 'a' => some (.letter '\x07' false)
  | 'f' => some (.letter '\x0c' false)
  | 't' => some (.letter '\t' false)
  | 'n' => some (.letter '\n' false)
  | 'r' => some (.letter '\r' false)
  | 'v' => some (.letter '\x0b' false)
  | 'd' => some (.kind Char.isDigit false)
  | 'D' => some (.kind Char.isDigit true)
  | 's' => some (.kind isSpace false)
  | 'S' => some (.kind isSpace true)
  | 'w' => some (.kind isWord false)
  | 'W' => some (.kind isWord true)
  | 'A' => some (.place fun before _ => before.isNone)
  | 'z' => some (.place fun _ behind => behind.isNone)
  | 'B' => some (.edge fun before behind => !isWordEdge before behind)
  | '<' => some (.edge isWordStart)
  | '>' => some (.edge isWordFinish)
  | c =>
      if 0x20 ≤ c.toNat && c.toNat < 0x7F && !c.isAlphanum then
        some (.letter c false)
      else none

/-- Reads an escape, from its backslash on. -/
def readEscape (text : List Char) : Except Flaw (Item × List Char) :=
  match text.tail with
  | [] => .error (.ofSpot .incompleteEscape { start := text, behind := [] })
  | c :: rest =>
      let whole : Spot := { start := text, behind := rest }
      if c.isDigit then .error (.ofSpot .backreference whole)
      else if c = 'p' || c = 'P' then readProperty rest
      else if c = 'b' then readEdge text rest
      else if c = 'x' || c = 'u' || c = 'U' then
        match rest with
        | [] => .error (.ofSpot .incompleteEscape (.before []))
        | '{' :: inner => readBracedCode rest 0 true inner
        | _ =>
            let digits := if c = 'x' then 2 else if c = 'u' then 4 else 8
            readCode rest (c = 'x') 0 digits rest
      else
        match escaped? c with
        | some item => .ok (item, rest)
        | none => .error (.ofSpot .unknownEscape whole)

/-- Reads one item. -/
def readItem (text : List Char) : Except Flaw (Item × List Char) :=
  match text with
  | '\\' :: _ => readEscape text
  | c :: rest => .ok (.letter c false, rest)
  | [] => .error (.ofSpot .incompleteEscape (.before []))

end Pattern

end Text

end LoxExpr
