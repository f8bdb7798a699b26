import LoxExpr.Text.Pattern.Item

/-!
# Character classes

A class lists characters, ranges, items and other classes between square
brackets, and may combine such lists by operators.  Reading keeps the open
classes on a stack.  A flaw of the writing stops it; what cannot be had, since
there is no table for it, is noted and refused when all else is in order.
-/

namespace LoxExpr

namespace Text

namespace Pattern

/-- The characters of a class so far: an operator with its left side, what was
listed since, and the first thing that cannot be had. -/
structure Members where
  pending : Option ((Bool → Bool → Bool) × (Char → Bool))
  listed : Char → Bool
  lack : Option Flaw

namespace Members

def start (lack : Option Flaw) : Members :=
  { pending := none, listed := fun _ => false, lack := lack }

def accepts (members : Members) (c : Char) : Bool :=
  match members.pending with
  | none => members.listed c
  | some (operator, left) => operator (left c) (members.listed c)

def add (members : Members) (added : Except Flaw (Char → Bool)) : Members :=
  match added with
  | .ok accepts =>
      { members with listed := fun c => members.listed c || accepts c }
  | .error flaw => { members with lack := members.lack <|> some flaw }

def combine (members : Members) (operator : Bool → Bool → Bool) : Members :=
  { members with
    pending := some (operator, members.accepts)
    listed := fun _ => false }

end Members

/-- An open class, with the members of the class around it. -/
structure Level where
  opening : Spot
  isNegated : Bool
  outer : Members

def unclosedClass (levels : List Level) : Flaw :=
  { cause := .unclosedClass, spots := (levels.take 1).map Level.opening }

/-- The ASCII classes that have a name. -/
def named? (name : String) : Option (Char → Bool) :=
  match name with
  | "alnum" => some fun c => c.isAlphanum
  | "alpha" => some fun c => c.isAlpha
  | "ascii" => some fun c => c.toNat < 0x80
  | "blank" => some fun c => c == ' ' || c == '\t'
  | "cntrl" => some fun c => c.toNat < 0x20 || c == '\x7f'
  | "digit" => some fun c => c.isDigit
  | "graph" => some fun c => 0x20 < c.toNat && c.toNat < 0x7F
  | "lower" => some fun c => c.isLower
  | "print" => some fun c => 0x20 ≤ c.toNat && c.toNat < 0x7F
  | "punct" =>
      some fun c => 0x20 < c.toNat && c.toNat < 0x7F && !c.isAlphanum
  | "space" => some isSpace
  | "upper" => some fun c => c.isUpper
  | "word" => some isWord
  | "xdigit" => some fun c => (hexValue? c).isSome
  | _ => none

/-- Reads a named class, from its opening bracket on. -/
def readNamed? (modes : Modes) (text : List Char) :
    Option (Except Flaw (Char → Bool) × List Char) :=
  let inner := text.drop 2
  let isNegated := inner.head? = some '^'
  let inner := if isNegated then inner.tail else inner
  match inner.dropWhile (· != ':') with
  | ':' :: ']' :: rest =>
      (named? (String.ofList (inner.takeWhile (· != ':')))).map fun accepts =>
        let spot : Spot := { start := text, behind := rest }
        match modes.fold spot accepts with
        | .error flaw => (.error flaw, rest)
        | .ok folded => (modes.negate spot isNegated folded, rest)
  | _ => none

/-- Opens a class.  Hyphens at its start, or else a closing bracket, are
members. -/
def openClass (outer : Members) (text : List Char) :
    Except Flaw (Level × Members × List Char) :=
  let isNegated := text.tail.head? = some '^'
  let inner := if isNegated then text.tail.tail else text.tail
  let hasHyphen := inner.head? = some '-'
  let hasBracket := inner.head? = some ']'
  let rest :=
    if hasBracket then inner.tail else inner.dropWhile (· = '-')
  if rest.isEmpty then
    let behind := if hasHyphen then text else rest
    .error (.ofSpot .unclosedClass { start := text, behind := behind })
  else
    let listed (c : Char) :=
      hasHyphen && c == '-' || hasBracket && c == ']'
    .ok ({ opening := { start := text, behind := rest }
           isNegated := isNegated
           outer := outer },
      (Members.start outer.lack).add (.ok listed), rest)

/-- What a closed class adds to the one around it. -/
def Level.close (modes : Modes) (level : Level) (members : Members)
    (behind : List Char) : Members :=
  let spot : Spot := { start := level.opening.start, behind := behind }
  let added :=
    match modes.fold spot members.accepts with
    | .error flaw => .error flaw
    | .ok folded => modes.negate spot level.isNegated folded
  { level.outer with lack := members.lack }.add added

/-- Whether a hyphen that stands here makes a range. -/
def startsRange : List Char → Bool
  | '-' :: ']' :: _ => false
  | '-' :: '-' :: _ => false
  | '-' :: _ => true
  | _ => false

/-- The range between two items. -/
def rangeMembers (modes : Modes) (first last : Item)
    (firstSpot lastSpot : Spot) :
    Except Flaw (Except Flaw (Char → Bool)) :=
  match first, last with
  | .letter low _, .letter high _ =>
      if low ≤ high then
        .ok (match first.members modes firstSpot,
            last.members modes lastSpot with
          | .error flaw, _ => .error flaw
          | _, .error flaw => .error flaw
          | _, _ => .ok fun c => low ≤ c && c ≤ high)
      else
        .error (.ofSpot .descendingRange
          { start := firstSpot.start, behind := lastSpot.behind })
  | .letter _ _, _ => .error (.ofSpot .classInRange lastSpot)
  | _, _ => .error (.ofSpot .classInRange firstSpot)

/-- Reads an item or a range of a class. -/
def readRange (modes : Modes) (levels : List Level) (text : List Char) :
    Except Flaw (Except Flaw (Char → Bool) × List Char) :=
  match readItem text with
  | .error flaw => .error flaw
  | .ok (first, rest) =>
      let firstSpot : Spot := { start := text, behind := rest }
      if rest.isEmpty || rest = ['-'] then .error (unclosedClass levels)
      else if startsRange rest then
        match readItem rest.tail with
        | .error flaw => .error flaw
        | .ok (last, behind) =>
            let lastSpot : Spot := { start := rest.tail, behind := behind }
            match rangeMembers modes first last firstSpot lastSpot with
            | .error flaw => .error flaw
            | .ok added => .ok (added, behind)
      else
        match first with
        | .edge _ => .error (.ofSpot .placeInClass firstSpot)
        | .place _ => .error (.ofSpot .placeInClass firstSpot)
        | first => .ok (first.members modes firstSpot, rest)

/-- Reads classes up to the end of the outermost one.  Each step takes a
character at least, so a budget of their number suffices. -/
def readClass (modes : Modes) : Nat → List Level → Members → List Char →
    Except Flaw (Members × List Char)
  | 0, levels, _, _ => .error (unclosedClass levels)
  | budget + 1, levels, members, text =>
      let text := modes.skip text
      let nested :=
        match openClass members text with
        | .error flaw => .error flaw
        | .ok (level, inner, rest) =>
            readClass modes budget (level :: levels) inner rest
      match text with
      | [] => .error (unclosedClass levels)
      | '[' :: ':' :: _ =>
          match readNamed? modes text with
          | some (added, rest) =>
              readClass modes budget levels (members.add added) rest
          | none => nested
      | '[' :: _ => nested
      | ']' :: rest =>
          match levels with
          | [] => .error (unclosedClass levels)
          | level :: outer =>
              let closed := level.close modes members rest
              if outer.isEmpty then .ok (closed, rest)
              else readClass modes budget outer closed rest
      | '&' :: '&' :: rest =>
          readClass modes budget levels (members.combine (· && ·)) rest
      | '-' :: '-' :: rest =>
          readClass modes budget levels
            (members.combine fun left right => left && !right) rest
      | '~' :: '~' :: rest =>
          readClass modes budget levels (members.combine (· != ·)) rest
      | _ =>
          match readRange modes levels text with
          | .error flaw => .error flaw
          | .ok (added, rest) =>
              readClass modes budget levels (members.add added) rest

end Pattern

end Text

end LoxExpr
