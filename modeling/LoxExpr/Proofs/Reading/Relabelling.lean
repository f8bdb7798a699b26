import LoxExpr.Proofs.Grammar.Recognition
import LoxExpr.Proofs.Grammar.Relabelling
import LoxExpr.Proofs.Reading.Correspondence
import LoxExpr.Proofs.Reading.Strict

/-!
# Readings of relabelled tokens

A reading decides by the kinds of tokens and takes their literals into its
tree.  If all tokens are exchanged for others of the same kinds and literals,
it goes the same way: it succeeds with the old tree over the new tokens, or it
is refused with the same expectation at the new token.
-/

namespace LoxExpr

/-- The mismatch at the new token. -/
def Mismatch.mapToken (f : Token → Token) (mismatch : Mismatch) : Mismatch :=
  { mismatch with found := f mismatch.found }

/-- Trees that correspond by an exchange of tokens. -/
theorem Expr.Corresponds.eq_mapTokens {f : Token → Token} {tree tree' : Expr}
    (corresponds : tree.Corresponds (fun token token' => token' = f token) Eq
      tree') : tree' = tree.mapTokens f := by
  induction corresponds with
  | literal same => rw [mapTokens, same]
  | group _ inner => rw [mapTokens, inner]
  | unary same _ operand => rw [mapTokens, same, operand]
  | binary _ same _ left right => rw [mapTokens, left, same, right]
  | assign same _ assigned => rw [mapTokens, same, assigned]

namespace Reading

/-- The same place after an exchange of all tokens; an end is still to come. -/
structure Exchanged (f : Token → Token) (tokens tokens' : List Token) :
    Prop where
  map : tokens' = tokens.map f
  hasEnd : HasEnd tokens

namespace Exchanged

variable {f : Token → Token} {tokens tokens' : List Token}

theorem peek (exchanged : Exchanged f tokens tokens') :
    peek tokens' = f (peek tokens) := by
  obtain ⟨rfl, hasEnd⟩ := exchanged
  cases tokens with
  | nil => simp [HasEnd] at hasEnd
  | cons token rest => rfl

theorem advance (relabels : Token.Relabels f)
    (exchanged : Exchanged f tokens tokens') :
    Exchanged f (advance tokens) (advance tokens') where
  map := by
    rw [Reading.advance, Reading.advance, exchanged.peek, relabels.kind]
    split
    · exact exchanged.map
    · rw [exchanged.map, List.map_tail]
  hasEnd := exchanged.hasEnd.advance

theorem correspondence (relabels : Token.Relabels f) :
    Correspondence (fun token token' => token' = f token) Eq
      (Exchanged f) where
  kind := by
    intro token token' same
    rw [same, relabels.kind]
  constant := by
    intro token token' same
    apply rel_eq_of_constant
    rw [same, constant?, constant?, relabels.kind, relabels.literal]
  peek := Exchanged.peek
  advance := Exchanged.advance relabels

end Exchanged

end Reading

open Reading

/-- A token list with an end is read like the list of its new tokens. -/
theorem Expr.ofTokens_map {f : Token → Token} (relabels : Token.Relabels f)
    {front : List Token} {last : Token} (isEnd : last.kind = .endOfInput) :
    ofTokens ((front ++ [last]).map f) =
      ((ofTokens (front ++ [last])).map (mapTokens f)).mapError
        (Mismatch.mapToken f) := by
  have newEnd : (f last).kind = .endOfInput := by rw [relabels.kind, isEnd]
  have closed : Reader.close (front ++ [last]) = front ++ [last] :=
    close_of_end isEnd
  have newClosed : Reader.close ((front ++ [last]).map f) =
      (front ++ [last]).map f := by
    rw [List.map_append, List.map_singleton]
    exact close_of_end newEnd
  have exchanged : Exchanged f (Reader.close (front ++ [last]))
      (Reader.close ((front ++ [last]).map f)) := by
    rw [closed, newClosed]
    exact ⟨rfl, last, by simp, isEnd⟩
  have sameLength : (Reader.close ((front ++ [last]).map f)).length =
      (Reader.close (front ++ [last])).length := by
    rw [closed, newClosed, List.length_map]
  rcases (Exchanged.correspondence relabels).ofTokens exchanged sameLength with
    ⟨tree, tree', reading, reading', trees⟩ |
    ⟨expected, found, found', refused, refused', same⟩
  · rw [reading, reading', trees.eq_mapTokens]
    rfl
  · rw [refused, refused', same]
    rfl

end LoxExpr
