import LoxExpr.Proofs.Lexis.Blanking

/-!
# Line numbers

Every token has a number in its scan, and so has every fault.  Both belong to a
piece of the text, and the pieces before this one decide about the number.  The
line of a token is the line on which its lexeme ends.  The line of a fault is
the line of its character, or the last line if a string is open there.
-/

namespace LoxExpr

namespace Lexis

open Piece

def isToken (piece : Piece) : Bool :=
  match piece.role with
  | .token _ _ => true
  | _ => false

section Numbered

variable {α : Type} {item : List Char × Piece → Option α}
  {counted : Piece → Bool}
  (counts : ∀ entry, (item entry).isSome = counted entry.2)

include counts

end Numbered

/-- A piece of a split text is how some rest of it begins. -/
theorem Splits.begins {text : List Char} {front back : List Piece}
    {piece : Piece} (splits : Splits text (front ++ piece :: back)) :
    ∃ here rest, Begins here piece rest ∧ Splits rest back := by
  induction front generalizing text with
  | nil =>
      cases splits with
      | cons begins later => exact ⟨_, _, begins, later⟩
  | cons other front induction =>
      cases splits with
      | cons _ later => exact induction later

section Source

variable (source : String) (index : Nat)

end Source

end Lexis

end LoxExpr
