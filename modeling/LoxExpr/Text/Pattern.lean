/-!
# Patterns

A pattern describes parts of texts.  Matching works on marks, one for each
position of a text from its start to its end: a pattern takes the positions
where a part may start to those where such a part can end.  A text contains a
pattern if some position is reached when a part may start anywhere.
-/

namespace LoxExpr

namespace Text

inductive Pattern where
  | nothing
  | one (accepts : Char → Bool)
  | place (holds : Option Char → Option Char → Bool)
  | sequence (first second : Pattern)
  | choice (first second : Pattern)
  | repeated (least : Nat) (most : Option Nat) (body : Pattern)

namespace Pattern

/-- The characters before and behind each position of a text. -/
def neighbours (text : List Char) : List (Option Char × Option Char) :=
  (none :: text.map some).zip (text.map some ++ [none])

/-- The positions in one of two sets. -/
def union (first second : List Bool) : List Bool :=
  first.zipWith (· || ·) second

def iterate (step : List Bool → List Bool) : Nat → List Bool → List Bool
  | 0, marks => marks
  | count + 1, marks => iterate step count (step marks)

/-- The positions that at most so many steps reach. -/
def spread (step : List Bool → List Bool) : Nat → List Bool → List Bool
  | 0, marks => marks
  | count + 1, marks =>
      let wider := union marks (step marks)
      if wider = marks then marks else spread step count wider

/-- The positions where a part of the text that starts at a mark can end.  A
repetition adds nothing new once it was tried as often as there are
positions. -/
def reach (text : List Char) : Pattern → List Bool → List Bool
  | nothing, marks => marks
  | one accepts, marks =>
      false :: marks.zipWith (fun mark c => mark && accepts c) text
  | place holds, marks =>
      marks.zipWith (fun mark sides => mark && holds sides.1 sides.2)
        (neighbours text)
  | sequence first second, marks => reach text second (reach text first marks)
  | choice first second, marks =>
      union (reach text first marks) (reach text second marks)
  | repeated least most body, marks =>
      let positions := text.length + 1
      let further := most.elim positions fun most => most - least
      spread (reach text body) (min further positions)
        (iterate (reach text body) (min least positions) marks)

/-- The number of single steps in a pattern whose counts are written out. -/
def size : Pattern → Nat
  | nothing => 1
  | one _ => 1
  | place _ => 1
  | sequence first second => first.size + second.size
  | choice first second => first.size + second.size + 1
  | repeated least most body =>
      match most with
      | none => max least 1 * body.size + 1
      | some most => least * body.size + (most - least) * (body.size + 1)

/-- Whether a part of the text is as the pattern says. -/
def isIn (pattern : Pattern) (text : String) : Bool :=
  let text := text.toList
  (reach text pattern (List.replicate (text.length + 1) true)).any id

end Pattern

end Text

end LoxExpr
