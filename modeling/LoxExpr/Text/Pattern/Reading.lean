import LoxExpr.Text.Pattern.Class

/-!
# Reading patterns

A written pattern is a choice of sequences, separated by bars.  Their parts
are items, classes, places and groups, each of which a repetition may follow.
Reading keeps the open groups on a stack and stops at the first flaw of the
writing.  A part that cannot be had is noted, and the first such part decides
if the writing has no flaw.
-/

namespace LoxExpr

namespace Text

namespace Pattern

/-! Repetitions -/

/-- Reads a number among blanks; the flaw is a missing number or one that is
too large. -/
def readCount (text : List Char) : Except Flaw Nat × List Char :=
  let start := text.dropWhile isBlank
  let digits := start.takeWhile Char.isDigit
  let behind := start.dropWhile Char.isDigit
  let rest := behind.dropWhile isBlank
  let spot : Spot := { start := start, behind := behind }
  let value :=
    digits.foldl (fun total c => 10 * total + (c.toNat - 48)) 0
  if digits.isEmpty then (.error (.ofSpot .missingCount spot), rest)
  else if Nat.pow 2 32 ≤ value then
    (.error (.ofSpot .invalidDecimal spot), rest)
  else (.ok value, rest)

/-- Reads the closing brace of counts that start at `start`. -/
def closeCounts (start : List Char) (least : Nat) (most : Option Nat)
    (text : List Char) : Except Flaw ((Nat × Option Nat) × List Char) :=
  match text with
  | '}' :: rest =>
      let behind := if rest.head? = some '?' then rest.tail else rest
      if most.all (least ≤ ·) then .ok ((least, most), behind)
      else
        .error (.ofSpot .descendingCount { start := start, behind := behind })
  | _ => .error (.ofSpot .unclosedCount { start := start, behind := text })

/-- Reads the counts of a repetition, from its opening brace on. -/
def readCounts (text : List Char) :
    Except Flaw ((Nat × Option Nat) × List Char) :=
  let unclosed : Except Flaw ((Nat × Option Nat) × List Char) :=
    .error (.ofSpot .unclosedCount { start := text, behind := [] })
  if text.tail.isEmpty then unclosed
  else
    match readCount text.tail with
    | (_, []) => unclosed
    | (_, [',']) => unclosed
    | (.error flaw, _) => .error flaw
    | (.ok least, ',' :: '}' :: rest) =>
        closeCounts text least none ('}' :: rest)
    | (.ok least, ',' :: rest) =>
        match readCount rest with
        | (.error flaw, _) => .error flaw
        | (.ok most, behind) => closeCounts text least (some most) behind
    | (.ok least, rest) => closeCounts text least (some least) rest

/-! Groups -/

/-- A choice that is being read: its earlier sequences, and the parts of the
current one, the last part first.  A change of modes is a part without a
pattern. -/
structure Branches where
  earlier : Option Pattern
  parts : List (Option Pattern)

namespace Branches

def start : Branches :=
  { earlier := none, parts := [] }

def add (branches : Branches) (part : Option Pattern) : Branches :=
  { branches with parts := part :: branches.parts }

/-- The choice as a whole. -/
def pattern (branches : Branches) : Pattern :=
  let current :=
    (branches.parts.reverse.filterMap id).foldr Pattern.sequence .nothing
  match branches.earlier with
  | none => current
  | some earlier => .choice earlier current

/-- The choice with its current sequence closed. -/
def split (branches : Branches) : Branches :=
  { earlier := some branches.pattern, parts := [] }

/-- The choice with its last part repeated, if it has such a part. -/
def repeatLast? (branches : Branches) (least : Nat) (most : Option Nat) :
    Option Branches :=
  match branches.parts with
  | some part :: rest =>
      some { branches with parts := some (.repeated least most part) :: rest }
  | _ => none

end Branches

/-- An open group, with what surrounds it. -/
structure Group where
  opening : Spot
  modes : Modes
  outer : Branches

/-- Where reading stands. -/
structure State where
  groups : List Group
  modes : Modes
  branches : Branches
  names : List (List Char × Spot)
  lack : Option Flaw
  needsWords : Bool

/-- The flags at the start of a group, the last one first. -/
structure Flags where
  modes : Modes
  isOff : Bool
  seen : List (Char × Spot)

/-- Reads flags up to the colon or the bracket that ends them. -/
def readFlags (flags : Flags) :
    List Char → Except Flaw (Flags × List Char)
  | [] => .error (.ofSpot .missingFlag (.before []))
  | c :: rest =>
      let spot := Spot.first (c :: rest)
      if c = ':' || c = ')' then
        match flags.seen with
        | ('-', last) :: _ => .error (.ofSpot .danglingNegation last)
        | _ => .ok (flags, c :: rest)
      else if c ∉ ['-', 'i', 'm', 's', 'U', 'u', 'R', 'x'] then
        .error (.ofSpot .unknownFlag spot)
      else
        match flags.seen.find? fun flag => flag.1 == c with
        | some (_, first) =>
            let cause : Cause :=
              if c = '-' then .repeatedNegation else .repeatedFlag
            .error { cause := cause, spots := [first, spot] }
        | none =>
            readFlags
              { modes := flags.modes.set c (!flags.isOff)
                isOff := flags.isOff || c = '-'
                seen := (c, spot) :: flags.seen } rest

/-- Reads the name of a group up to its angle bracket. -/
def readName (start : List Char) :
    List Char → Except Flaw (List Char × List Char)
  | [] => .error (.ofSpot .unclosedName (.before []))
  | '>' :: rest =>
      let name := start.take (start.length - (rest.length + 1))
      if name.isEmpty then .error (.ofSpot .emptyName (.before start))
      else .ok (name, rest)
  | c :: rest =>
      let isFirst := start.length = rest.length + 1
      if c = '_' || c.isAlpha ||
          !isFirst && (c.isDigit || c = '.' || c = '[' || c = ']') then
        readName start rest
      else .error (.ofSpot .invalidName (.first (c :: rest)))

namespace State

def start : State :=
  { groups := []
    modes := .start
    branches := .start
    names := []
    lack := none
    needsWords := false }

/-- Adds a part, or notes why it cannot be had.  Such a part can still be
repeated. -/
def add (state : State) (part : Except Flaw Pattern) : State :=
  match part with
  | .ok pattern =>
      { state with branches := state.branches.add (some pattern) }
  | .error flaw =>
      { state with
        branches := state.branches.add (some .nothing)
        lack := state.lack <|> some flaw }

/-- Opens a group in which these modes hold. -/
def enter (state : State) (opening : List Char) (modes : Modes) : State :=
  { state with
    groups :=
      { opening := .first opening
        modes := state.modes
        outer := state.branches } :: state.groups
    modes := modes
    branches := .start }

/-- Opens a group that has a name. -/
def enterNamed (state : State) (text nameText : List Char) :
    Except Flaw (State × List Char) :=
  match readName nameText nameText with
  | .error flaw => .error flaw
  | .ok (name, rest) =>
      let spot : Spot := { start := nameText, behind := '>' :: rest }
      match state.names.find? fun entry => entry.1 == name with
      | some (_, first) =>
          .error { cause := .repeatedName, spots := [first, spot] }
      | none =>
          .ok ({ state.enter text state.modes with
            names := (name, spot) :: state.names }, rest)

/-- Opens a group, from its bracket on, or changes the modes. -/
def openGroup (state : State) (text : List Char) :
    Except Flaw (State × List Char) :=
  let lookAround (behind : List Char) : Except Flaw (State × List Char) :=
    .error (.ofSpot .lookAround { start := text, behind := behind })
  match state.modes.skip text.tail with
  | '?' :: '=' :: rest => lookAround rest
  | '?' :: '!' :: rest => lookAround rest
  | '?' :: '<' :: '=' :: rest => lookAround rest
  | '?' :: '<' :: '!' :: rest => lookAround rest
  | '?' :: 'P' :: '<' :: rest => state.enterNamed text rest
  | '?' :: '<' :: rest => state.enterNamed text rest
  | ['?'] => .error (.ofSpot .unclosedGroup (.first text))
  | '?' :: inner =>
      match readFlags { modes := state.modes, isOff := false, seen := [] }
          inner with
      | .error flaw => .error flaw
      | .ok (flags, ':' :: rest) => .ok (state.enter text flags.modes, rest)
      | .ok (flags, rest) =>
          if flags.seen.isEmpty then
            .error (.ofSpot .missingExpression (.before ('?' :: inner)))
          else
            .ok ({ state with
              modes := flags.modes
              branches := state.branches.add none }, rest.tail)
  | rest => .ok (state.enter text state.modes, rest)

/-- Closes the innermost group, at its closing bracket. -/
def closeGroup (state : State) (text : List Char) :
    Except Flaw (State × List Char) :=
  match state.groups with
  | [] => .error (.ofSpot .unopenedGroup (.first text))
  | group :: groups =>
      .ok ({ state with
        groups := groups
        modes := group.modes
        branches := group.outer.add (some state.branches.pattern) }, text.tail)

/-- Repeats the last part, at a sign of repetition.  A question mark behind
the sign does not change what a text contains. -/
def repeatLast (state : State) (least : Nat) (most : Option Nat)
    (text rest : List Char) : Except Flaw (State × List Char) :=
  match state.branches.repeatLast? least most with
  | none => .error (.ofSpot .missingExpression (.before text))
  | some branches =>
      let rest := if rest.head? = some '?' then rest.tail else rest
      .ok ({ state with branches := branches }, rest)

/-- Repeats the last part as often as the counts in braces say. -/
def repeatCounted (state : State) (text : List Char) :
    Except Flaw (State × List Char) :=
  if (state.branches.repeatLast? 0 none).isNone then
    .error (.ofSpot .missingExpression (.before text))
  else
    match readCounts text with
    | .error flaw => .error flaw
    | .ok ((least, most), rest) =>
        let repeated := state.branches.repeatLast? least most
        .ok ({ state with branches := repeated.getD state.branches }, rest)

/-- Reads a class, from its bracket on. -/
def addClass (state : State) (text : List Char) :
    Except Flaw (State × List Char) :=
  match openClass (.start state.lack) text with
  | .error flaw => .error flaw
  | .ok (level, members, inner) =>
      match readClass state.modes text.length [level] members inner with
      | .error flaw => .error flaw
      | .ok (closed, rest) =>
          .ok ({ state with
            branches := state.branches.add (some (.one closed.accepts))
            lack := closed.lack }, rest)

/-- The pattern for a character of any kind, with the exception of a line
break. -/
def anyLetter (state : State) (text : List Char) : Except Flaw Pattern :=
  if state.modes.unicode then
    .ok (.one fun c => state.modes.dotAll || c != '\n')
  else .error (.ofSpot .brokenText (.first text))

/-- The pattern for the start of a text or of a line. -/
def startPlace (modes : Modes) : Pattern :=
  .place fun before _ =>
    before.all fun c => modes.everyLine && c == '\n'

/-- The pattern for the end of a text or of a line. -/
def endPlace (modes : Modes) : Pattern :=
  .place fun _ behind =>
    behind.all fun c => modes.everyLine && c == '\n'

/-- Reads one part of a pattern that is not at its end. -/
def step (state : State) (text : List Char) :
    Except Flaw (State × List Char) :=
  match text with
  | '(' :: _ => state.openGroup text
  | ')' :: _ => state.closeGroup text
  | '|' :: rest => .ok ({ state with branches := state.branches.split }, rest)
  | '[' :: _ => state.addClass text
  | '?' :: rest => state.repeatLast 0 (some 1) text rest
  | '*' :: rest => state.repeatLast 0 none text rest
  | '+' :: rest => state.repeatLast 1 none text rest
  | '{' :: _ => state.repeatCounted text
  | '.' :: rest => .ok (state.add (state.anyLetter text), rest)
  | '^' :: rest => .ok (state.add (.ok (startPlace state.modes)), rest)
  | '$' :: rest => .ok (state.add (.ok (endPlace state.modes)), rest)
  | _ =>
      match readItem text with
      | .error flaw => .error flaw
      | .ok (item, rest) =>
          let spot : Spot := { start := text, behind := rest }
          let needsWords := state.needsWords || item.needsWords state.modes
          .ok ({ state.add (item.pattern state.modes spot) with
            needsWords := needsWords }, rest)

/-- The greatest size that is accepted. -/
def sizeLimit : Nat :=
  327680

/-- The pattern at the end of its text. -/
def finish (state : State) : Except Flaw Pattern :=
  let pattern := state.branches.pattern
  match state.groups, state.lack with
  | group :: _, _ => .error (.ofSpot .unclosedGroup group.opening)
  | [], some flaw => .error flaw
  | [], none =>
      if sizeLimit < pattern.size then
        .error { cause := .excessiveSize, spots := [] }
      else if state.needsWords then
        .error { cause := .missingEdges, spots := [] }
      else .ok pattern

/-- Reads the rest of a pattern.  Each step takes a character at least, so a
budget of their number suffices. -/
def read (state : State) : Nat → List Char → Except Flaw Pattern
  | 0, _ => state.finish
  | budget + 1, text =>
      match state.modes.skip text with
      | [] => state.finish
      | text =>
          match state.step text with
          | .error flaw => .error flaw
          | .ok (later, rest) => later.read budget rest

end State

/-- The pattern that a text writes down. -/
def ofText (text : List Char) : Except Flaw Pattern :=
  State.start.read (text.length + 1) text

end Pattern

end Text

end LoxExpr
