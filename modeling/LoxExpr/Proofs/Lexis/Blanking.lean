import LoxExpr.Proofs.Lexis.Tail
import LoxExpr.Proofs.Run.Course

/-!
# Blanks in place of flaws

A text can be rid of its flaws without a change of anything else.  A character
that no token begins with is replaced by a space, and so is every character of
an open string, but for its line breaks.  A word of a rule in front of a flaw
ends there, and it ends there as well if a space takes the place of the flaw.
So the new text is scanned to the tokens of the old one, on the same lines, and
without a fault.
-/

namespace LoxExpr

namespace Piece

/-- What takes the place of a character of an open string. -/
def spaceFor (c : Char) : Char :=
  if c = '\n' then c else ' '

/-- The text of a piece without its flaw. -/
def blanked : Piece → List Char
  | ⟨_, .flawed (.unexpected _)⟩ => [' ']
  | ⟨text, .flawed .unterminated⟩ => text.map spaceFor
  | ⟨text, _⟩ => text

end Piece

/-- The text with blanks in place of its flaws. -/
def blanked (source : String) : String :=
  String.ofList ((Piece.split source.toList).flatMap Piece.blanked)

namespace Lexis

open Piece

/-- A blank as a piece of its own. -/
def blankPiece (c : Char) : Piece :=
  ⟨[c], .blank⟩

/-- The pieces of a text without its flaw. -/
def blankedPieces (piece : Piece) : List Piece :=
  match piece.role with
  | .flawed _ => piece.blanked.map blankPiece
  | _ => [piece]

section Pieces

variable {word : List Char} {role : Role}

theorem blanked_of_rule (rule : Rule word role) :
    Piece.blanked ⟨word, role⟩ = word := by
  cases role with
  | flawed flaw => exact absurd rfl (rule.ne_flawed flaw)
  | _ => rfl

theorem blankedPieces_of_rule (rule : Rule word role) :
    blankedPieces ⟨word, role⟩ = [⟨word, role⟩] := by
  cases role with
  | flawed flaw => exact absurd rfl (rule.ne_flawed flaw)
  | _ => rfl

theorem blank_spaceFor (c : Char) : Blank (spaceFor c) := by
  unfold spaceFor
  split
  · next isBreak =>
      rw [isBreak]
      decide
  · decide

theorem spaceFor_eq_break_iff {c : Char} : spaceFor c = '\n' ↔ c = '\n' := by
  unfold spaceFor
  split <;> simp_all

theorem lineBreaks_map_spaceFor (text : List Char) :
    lineBreaks (text.map spaceFor) = lineBreaks text := by
  simp [lineBreaks, List.count_eq_countP, List.countP_map, Function.comp_def,
    Bool.beq_eq_decide_eq, spaceFor_eq_break_iff]

theorem Unmatched.ne_break {c : Char} {rest : List Char}
    (unmatched : Unmatched (c :: rest)) : c ≠ '\n' := by
  rintro rfl
  exact unmatched ['\n'] .blank (.blank (by decide)) ⟨rest, rfl⟩

theorem Begins.blanks_of_flawed {text rest : List Char} {piece : Piece}
    {flaw : Flaw} (begins : Begins text piece rest)
    (flawed : piece.role = .flawed flaw) :
    blankedPieces piece = piece.blanked.map blankPiece ∧
      (∀ c ∈ piece.blanked, Blank c) ∧
      lineBreaks piece.blanked = lineBreaks piece.text := by
  cases begins with
  | longest rule => exact absurd flawed (rule.ne_flawed flaw)
  | unterminated =>
      refine ⟨rfl, ?_, lineBreaks_map_spaceFor _⟩
      intro c member
      obtain ⟨d, _, rfl⟩ := List.mem_map.mp member
      exact blank_spaceFor d
  | unexpected unmatched =>
      have sameLine := unmatched.ne_break
      refine ⟨rfl, ?_, ?_⟩
      · intro c member
        cases List.mem_singleton.mp member
        decide
      · simp [Piece.blanked, lineBreaks, sameLine]

end Pieces

/-- The second text is the first one, or it has a space where they differ for
the first time. -/
inductive Masks : List Char → List Char → Prop where
  | same (text : List Char) : Masks text text
  | differs (before : List Char) {c : Char} {after after' : List Char} :
      c ≠ '\n' → Masks (before ++ c :: after) (before ++ ' ' :: after')

theorem Masks.behind {text masked : List Char} (masks : Masks text masked)
    (word : List Char) : Masks (word ++ text) (word ++ masked) := by
  cases masks with
  | same => exact .same _
  | differs before sameLine =>
      rw [← List.append_assoc, ← List.append_assoc]
      exact .differs (word ++ before) sameLine

/-- The new text has a space where the old one has its first flaw. -/
theorem Splits.masks {text : List Char} {pieces : List Piece}
    (splits : Splits text pieces) :
    Masks text (pieces.flatMap Piece.blanked) := by
  induction splits with
  | nil => exact .same []
  | cons begins _ induction =>
      rw [List.flatMap_cons]
      cases begins with
      | longest rule =>
          rw [blanked_of_rule rule]
          exact induction.behind _
      | unterminated => exact .differs [] (by decide)
      | unexpected unmatched => exact .differs [] unmatched.ne_break

section Longest

variable {word other : List Char} {role role' : Role}

/-- No string goes on behind a string. -/
theorem Rule.not_begins_string {content more : List Char}
    (rule : Rule word role) (inner : ∀ c ∈ content, c ≠ '"')
    (proper : more ≠ []) (begins : word ++ more = '"' :: (content ++ ['"'])) :
    False := by
  obtain ⟨head, tail, rfl⟩ := List.exists_cons_of_ne_nil rule.ne_nil
  obtain ⟨rfl, split⟩ := List.cons.inj begins
  have inside : tail <+: content := by
    have begins : tail <+: content ++ ['"'] := ⟨more, split⟩
    rcases List.prefix_concat_iff.mp begins with rfl | inside
    · exact absurd (List.append_right_eq_self.mp split) proper
    · exact inside
  have noQuote : ∀ c ∈ tail, c ≠ '"' :=
    fun c member => inner c (inside.subset member)
  have alone := rule.cut_word
  rw [cut_of_no_quote noQuote] at alone
  have sameRole := congrArg (fun result => result.1.role) alone
  exact rule.ne_flawed .unterminated sameRole.symm

/-- What stands in front of a space in a comment is a comment with any other
character of its line. -/
theorem comment_of_space {before more body : List Char} {c : Char}
    (sameLine : c ≠ '\n') (nonempty : before ≠ [])
    (split : before ++ ' ' :: more = '/' :: '/' :: body)
    (inner : ∀ d ∈ body, d ≠ '\n') : Rule (before ++ [c]) .blank := by
  obtain ⟨head, tail, rfl⟩ := List.exists_cons_of_ne_nil nonempty
  obtain ⟨rfl, behind⟩ := List.cons.inj split
  cases tail with
  | nil => simp at behind
  | cons second others =>
      obtain ⟨rfl, rfl⟩ := List.cons.inj behind
      apply Rule.comment
      rintro d member
      rcases List.mem_append.mp member with inFront | last
      · exact inner d (List.mem_append_left _ inFront)
      · rw [List.mem_singleton.mp last]
        exact sameLine

/-- A space that takes the place of another character lets no longer word
begin the text. -/
theorem Rule.longest_of_masks {rest masked : List Char}
    (rule : Rule word role) (masks : Masks rest masked)
    (longest : ∀ other role', Rule other role' → other <+: word ++ rest →
      other.length ≤ word.length)
    (otherRule : Rule other role') (begins : other <+: word ++ masked) :
    other.length ≤ word.length := by
  cases masks with
  | same => exact longest other role' otherRule begins
  | @differs before c after after' sameLine =>
      rw [← List.append_assoc] at longest begins
      by_cases inFront : other <+: word ++ before
      · exact longest other role' otherRule
          (inFront.trans (List.prefix_append _ _))
      -- The other word reaches over the space.
      obtain ⟨more, rfl⟩ : ∃ more, word ++ before ++ ' ' :: more = other := by
        rw [List.append_cons] at begins
        rcases List.prefix_or_prefix_of_prefix begins
          (List.prefix_append _ after') with short | ⟨more, split⟩
        · rcases List.prefix_concat_iff.mp short with rfl | inside
          · exact ⟨[], rfl⟩
          · exact absurd inside inFront
        · exact ⟨more, by rw [← split]; simp⟩
      have space : ' ' ∈ word ++ before ++ ' ' :: more := by simp
      rcases otherRule.holds_blank (by decide) space with
        ⟨_, single | ⟨body, isComment, inner⟩⟩ |
          ⟨content, _, _, isString, inner⟩
      · have positive := List.length_pos_iff.mpr rule.ne_nil
        rw [single]
        exact positive
      · -- A comment would have taken the other character as well.
        have comment := comment_of_space sameLine
          (List.append_ne_nil_of_left_ne_nil rule.ne_nil before) isComment
          inner
        have bounded := longest _ _ comment ⟨after, by simp⟩
        simp only [List.length_append, List.length_singleton] at bounded
        omega
      · rw [List.append_assoc] at isString
        exact (rule.not_begins_string inner (by simp) isString).elim

end Longest

theorem split_blanks {blanks : List Char} (areBlank : ∀ c ∈ blanks, Blank c)
    (rest : List Char) :
    split (blanks ++ rest) = blanks.map blankPiece ++ split rest := by
  induction blanks with
  | nil => rfl
  | cons c blanks induction =>
      rw [List.forall_mem_cons] at areBlank
      rw [List.cons_append, split_blank areBlank.1, induction areBlank.2]
      rfl

/-- Without their flaws the pieces of a text are the pieces of the new one. -/
theorem Splits.split_blanked {text : List Char} {pieces : List Piece}
    (splits : Splits text pieces) :
    split (pieces.flatMap Piece.blanked) = pieces.flatMap blankedPieces := by
  induction splits with
  | nil => simp [split]
  | @cons text rest piece pieces begins splits induction =>
      have ofFlaw {flaw : Flaw} (flawed : piece.role = .flawed flaw) :
          split ((piece :: pieces).flatMap Piece.blanked) =
            (piece :: pieces).flatMap blankedPieces := by
        obtain ⟨blanks, areBlank, _⟩ := begins.blanks_of_flawed flawed
        rw [List.flatMap_cons, List.flatMap_cons, split_blanks areBlank,
          induction, blanks]
      cases begins with
      | longest rule longest =>
          have stays := Begins.longest rule fun other role' =>
            rule.longest_of_masks splits.masks longest
          have whole := Splits.cons stays (splits_split _)
          rw [List.flatMap_cons, List.flatMap_cons, blanked_of_rule rule,
            blankedPieces_of_rule rule, ← whole.eq_split, induction,
            List.singleton_append]
      | unterminated => exact ofFlaw rfl
      | unexpected => exact ofFlaw rfl

theorem ofPieces_blanks (line : Nat) (blanks : List Char)
    (pieces : List Piece) :
    Scan.ofPieces line (blanks.map blankPiece ++ pieces) =
      Scan.ofPieces (line + lineBreaks blanks) pieces := by
  induction blanks generalizing line with
  | nil => rfl
  | cons c blanks induction =>
      have behind : (blankPiece c).endLine line + lineBreaks blanks =
          line + lineBreaks (c :: blanks) := by
        rw [endLine, Nat.add_assoc, blankPiece, ← lineBreaks_append]
        rfl
      rw [List.map_cons, List.cons_append, Scan.ofPieces, induction, behind]
      rfl

/-- Without their flaws the pieces contribute what they did, but no fault. -/
theorem Splits.ofPieces_blanked {text : List Char} {pieces : List Piece}
    (splits : Splits text pieces) (line : Nat) :
    Scan.ofPieces line (pieces.flatMap blankedPieces) =
      { Scan.ofPieces line pieces with faults := [] } := by
  induction splits generalizing line with
  | nil => rfl
  | @cons text rest piece pieces begins _ induction =>
      have ofFlaw {flaw : Flaw} (flawed : piece.role = .flawed flaw) :
          Scan.ofPieces line ((piece :: pieces).flatMap blankedPieces) =
            { Scan.ofPieces line (piece :: pieces) with faults := [] } := by
        obtain ⟨blanks, _, sameLines⟩ := begins.blanks_of_flawed flawed
        rw [List.flatMap_cons, blanks, ofPieces_blanks, sameLines, induction,
          Scan.ofPieces, item?, flawed]
        rfl
      cases begins with
      | @longest word rest role rule =>
          rw [List.flatMap_cons, blankedPieces_of_rule rule,
            List.singleton_append, Scan.ofPieces, Scan.ofPieces, induction]
          cases role with
          | flawed flaw => exact absurd rfl (rule.ne_flawed flaw)
          | blank => rfl
          | token kind literal => rfl
      | unterminated => exact ofFlaw rfl
      | unexpected => exact ofFlaw rfl

/-- The scan of a text without its flaws is the old one without its faults. -/
theorem scan_blanked (source : String) :
    scan (blanked source) = { scan source with faults := [] } := by
  have splits := splits_split source.toList
  have scanned := splits.ofPieces_blanked 1
  rw [← splits.split_blanked] at scanned
  rw [scan, Scanner.scan, Scanner.ofSource, blanked, String.toList_ofList]
  exact scanned

/-- A text with blanks in place of its flaws, which are the pieces that the
scan reports, is scanned without a fault to the same tokens.  So its run has
the same result, and reports the same events but for the lexical faults that
stand in front of them. -/
theorem run_blanked (source : String) :
    (∃ pieces, Splits source.toList pieces ∧
        (scan source).faults = (placed [] pieces).filterMap faultOf? ∧
        (blanked source).toList = pieces.flatMap Piece.blanked) ∧
      (scan (blanked source)).faults = [] ∧
      (scan (blanked source)).tokens = (scan source).tokens ∧
      (scan (blanked source)).line = (scan source).line ∧
      (run (blanked source)).result = (run source).result ∧
      (run source).events =
        (scan source).faults.map (fun fault => .error fault.message) ++
          (run (blanked source)).events := by
  have scanned := scan_blanked source
  refine ⟨⟨split source.toList, splits_split _, ?_, ?_⟩, ?_, ?_, ?_, ?_, ?_⟩
  · rw [faults_scan]
    rfl
  · rw [blanked, String.toList_ofList]
  · rw [scanned]
  · rw [scanned]
  · rw [scanned]
  · rw [run, run, scanned]
    rfl
  · rw [events_run, events_run, scanned]
    rfl

end Lexis

end LoxExpr
