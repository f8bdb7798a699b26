/-!
# Similarity of two words

The Jaro similarity compares two words by the characters that they share at
nearby positions.  It is a mean of three quotients: the shared part of either
word, and the part of the shared characters that stands in the same order.
-/

namespace LoxExpr

namespace Text

/-- The position, counted from `start`, of the first character of `word` that
equals `c`, is marked free and stands in the closed window. -/
def findFree (c : Char) (low high start : Nat) :
    List (Char × Bool) → Option Nat
  | [] => none
  | (other, free) :: rest =>
      if low ≤ start && start ≤ high && free && other == c then some start
      else findFree c low high (start + 1) rest

/-- The matched characters of the first word in their order, and the second
word with its matched positions marked as taken. -/
def matchNearby (window : Nat) (position : Nat) :
    List Char → List (Char × Bool) → List Char × List (Char × Bool)
  | [], other => ([], other)
  | c :: rest, other =>
      match findFree c (position - window) (position + window) 0 other with
      | none => matchNearby window (position + 1) rest other
      | some found =>
          let (shared, marked) :=
            matchNearby window (position + 1) rest (other.set found (c, false))
          (c :: shared, marked)

/-- The Jaro similarity of two words, from 0 for words that share nothing to 1
for equal ones. -/
def similarity (first second : String) : Float :=
  let word := first.toList
  let other := second.toList
  let window := max word.length other.length / 2 - 1
  let (shared, marked) := matchNearby window 0 word (other.map (·, true))
  let facing := (marked.filter fun entry => !entry.2).map (·.1)
  let displaced :=
    ((shared.zip facing).filter fun pair => pair.1 != pair.2).length
  let common := shared.length
  let quotient (part whole : Nat) := Float.ofNat part / Float.ofNat whole
  if common = 0 then 0
  else
    (quotient common word.length + quotient common other.length +
      quotient (common - displaced / 2) common) / 3

end Text

end LoxExpr
