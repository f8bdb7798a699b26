import Mathlib.Data.List.Forall2
import LoxExpr.Command.Prompt
import LoxExpr.Proofs.Lexis.Tail
import LoxExpr.Proofs.Reading.Relabelling
import LoxExpr.Proofs.Run.ReadBack

/-!
# The last line of a text

A conversation runs a line without the blanks at its end, and a file may hold
the same line with them and with its line break.  The runs have the same
result and report the same events, except that the end of the file is on a
line of its own.  Only what is said about the end of the input tells on which
line that is.
-/

namespace LoxExpr

open Piece (lineBreaks)

/-- The event is an error about the end of the input. -/
def Event.AboutEnd (event : Event) : Prop :=
  ∃ fault : Fault, fault.AboutEnd ∧ event = .error fault.message

/-- The same event, or an error about the end of the input that names the line
`new` in place of the line `old`. -/
inductive Event.EndMoves (old new : Nat) : Event → Event → Prop where
  | same {event : Event} :
      ¬ event.AboutEnd → EndMoves old new event event
  | atEnd {fault : Fault} :
      fault.AboutEnd → fault.line = old →
      EndMoves old new (.error fault.message)
        (.error (fault.endOn new).message)

namespace Fault

/-- The fault is about a character or a lexeme of the text. -/
def AboutText : Fault → Prop
  | .lexical _ flaw => flaw ≠ .unterminated
  | .grammatical _ place _ => ∃ lexeme, place = "'" ++ lexeme ++ "'"
  | .runtime _ place _ => ∃ lexeme, place = "'" ++ lexeme ++ "'"
  | .unsupported _ place _ => ∃ lexeme, place = "'" ++ lexeme ++ "'"

theorem suffix_toList_append {ending : List Char} {text : String}
    (isEnding : ending <:+ text.toList) (start : String) :
    ending <:+ (start ++ text).toList := by
  rw [String.toList_append]
  exact isEnding.trans (List.suffix_append _ _)

theorem message_of_aboutEnd {fault : Fault} (aboutEnd : fault.AboutEnd) :
    ['t', '.'] <:+ fault.message.toList ∨
      ['n', 'd'] <:+ fault.message.toList := by
  cases fault with
  | lexical line flaw =>
      left
      cases aboutEnd
      have detail : ['t', '.'] <:+ (Flaw.detail .unterminated).toList := by
        decide
      simp only [message]
      exact suffix_toList_append detail _
  | grammatical line place detail =>
      right
      cases aboutEnd
      have place : ['n', 'd'] <:+ "end".toList := by decide
      simp only [message]
      exact suffix_toList_append place _
  | runtime => exact aboutEnd.elim
  | unsupported => exact aboutEnd.elim

theorem message_of_aboutText {fault : Fault} (aboutText : fault.AboutText) :
    ['\'', '.'] <:+ fault.message.toList ∨
      ['\''] <:+ fault.message.toList := by
  cases fault with
  | lexical line flaw =>
      left
      cases flaw with
      | unexpected character =>
          have closing : ['\'', '.'] <:+ "'.".toList := by decide
          simp only [message]
          apply suffix_toList_append
          unfold detail Flaw.detail
          exact suffix_toList_append closing _
      | unterminated => exact absurd rfl aboutText
  | grammatical line place detail | runtime line place detail
  | unsupported line place detail =>
      right
      obtain ⟨lexeme, rfl⟩ := aboutText
      have closing : ['\''] <:+ "'".toList := by decide
      simp only [message]
      apply suffix_toList_append
      exact suffix_toList_append closing _

/-- The messages tell by their last characters what they are about. -/
theorem not_aboutEnd_message {fault : Fault} (aboutText : fault.AboutText) :
    ¬ (Event.error fault.message).AboutEnd := by
  rintro ⟨other, aboutEnd, same⟩
  have sameMessage : fault.message = other.message := by simpa using same
  have ofEnd := message_of_aboutEnd aboutEnd
  have ofText := message_of_aboutText aboutText
  rw [sameMessage] at ofText
  -- One of two endings of a text ends the other, but no two of these do.
  rcases ofEnd with ofEnd | ofEnd <;> rcases ofText with ofText | ofText
  all_goals
    have comparable := List.suffix_or_suffix_of_suffix ofEnd ofText
    revert comparable
    decide

end Fault

theorem quoted_ne_end (lexeme : String) : "'" ++ lexeme ++ "'" ≠ "end" := by
  intro same
  have first := congrArg (fun text => text.toList.head?) same
  simp at first

theorem Token.place_of_not_end {token : Token}
    (inner : token.kind ≠ .endOfInput) :
    token.place = "'" ++ token.lexeme ++ "'" := by
  rw [place, if_neg inner]

theorem Token.place_eq_end_iff {token : Token} :
    token.place = "end" ↔ token.kind = .endOfInput := by
  constructor
  · intro atEnd
    by_contra inner
    rw [place_of_not_end inner] at atEnd
    exact quoted_ne_end token.lexeme atEnd
  · intro isEnd
    rw [place, if_pos isEnd]

theorem Token.endOn_relabels (line : Nat) :
    Token.Relabels (Token.endOn line) :=
  ⟨fun _ => rfl, fun _ => rfl⟩

/-- The fault of a mismatch moves with the token that ends the input. -/
theorem Mismatch.fault_mapToken_endOn (line : Nat) (mismatch : Mismatch) :
    (mismatch.mapToken (Token.endOn line)).fault =
      mismatch.fault.endOn line := by
  obtain ⟨expected, found⟩ := mismatch
  have samePlace : (found.endOn line).place = found.place := rfl
  simp only [fault, mapToken, Token.grammaticalFault, Fault.endOn, samePlace,
    Token.place_eq_end_iff]
  rfl

/-- A mismatch is found at the end of the input or at a lexeme. -/
theorem Mismatch.fault_aboutEnd_or_aboutText (mismatch : Mismatch) :
    mismatch.fault.AboutEnd ∨ mismatch.fault.AboutText := by
  by_cases isEnd : mismatch.found.kind = .endOfInput
  · exact .inl (Token.place_eq_end_iff.mpr isEnd)
  · exact .inr ⟨_, Token.place_of_not_end isEnd⟩

namespace Fault

theorem line_endOn {fault : Fault} (aboutEnd : fault.AboutEnd)
    (line : Nat) : (fault.endOn line).line = line := by
  cases fault with
  | lexical old flaw =>
      have isOpen : flaw = .unterminated := aboutEnd
      simp [endOn, isOpen, Fault.line]
  | grammatical old place detail =>
      have atEnd : place = "end" := aboutEnd
      simp [endOn, atEnd, Fault.line]
  | runtime => exact aboutEnd.elim
  | unsupported => exact aboutEnd.elim

theorem endOn_of_aboutText {fault : Fault} (aboutText : fault.AboutText)
    (line : Nat) : fault.endOn line = fault := by
  cases fault with
  | lexical old flaw =>
      have notOpen : flaw ≠ .unterminated := aboutText
      simp [endOn, notOpen]
  | grammatical old place detail =>
      obtain ⟨lexeme, rfl⟩ := aboutText
      simp [endOn, quoted_ne_end]
  | _ => rfl

/-- An error on its line, beside the same error if the input ends on another
one. -/
theorem endMoves {fault : Fault} {old : Nat}
    (placed : fault.endOn old = fault)
    (sorted : fault.AboutEnd ∨ fault.AboutText) (new : Nat) :
    Event.EndMoves old new (.error fault.message)
      (.error (fault.endOn new).message) := by
  rcases sorted with aboutEnd | aboutText
  · apply Event.EndMoves.atEnd aboutEnd
    rw [← placed]
    exact line_endOn aboutEnd old
  · rw [endOn_of_aboutText aboutText]
    exact .same (not_aboutEnd_message aboutText)

end Fault

theorem endMoves_faults (source : String) (new : Nat) :
    List.Forall₂ (Event.EndMoves (1 + lineBreaks source.toList) new)
      ((scan source).faults.map fun fault => .error fault.message)
      (((scan source).faults.map (Fault.endOn new)).map
        fun fault => .error fault.message) := by
  have sameLines := Lexis.faults_scan_endOn source
  rw [List.map_map, List.forall₂_map_left_iff, List.forall₂_map_right_iff,
    List.forall₂_same]
  intro fault member
  have placed : fault.endOn (1 + lineBreaks source.toList) = fault :=
    List.map_inj_left.mp (sameLines.trans (List.map_id _).symm) fault member
  apply fault.endMoves placed
  obtain ⟨line, flaw, rfl⟩ := Lexis.lexical_of_mem_faults member
  exact Decidable.em (flaw = .unterminated)

section Evaluation

variable {tree : Expr} {stuck : Stuck}

/-- No token of a tree ends the input. -/
theorem Expr.Composed.mapTokens_endOn {sort : Value → Prop}
    (composed : tree.Composed sort) (line : Nat) :
    tree.mapTokens (Token.endOn line) = tree := by
  induction tree with
  | literal value => rfl
  | group inner induction => rw [mapTokens, induction composed]
  | unary operator operand induction =>
      obtain ⟨⟨_, isSign⟩, operandComposed⟩ := composed
      have inner : operator.kind ≠ .endOfInput := by
        rcases isSign with isSign | isSign <;> simp [isSign]
      rw [mapTokens, Token.endOn_of_inner inner, induction operandComposed]
  | binary left operator right leftInduction rightInduction =>
      obtain ⟨leftComposed, ⟨_, symbol, isSymbol, _⟩, rightComposed⟩ :=
        composed
      have inner : operator.kind ≠ .endOfInput := by simp [isSymbol]
      rw [mapTokens, Token.endOn_of_inner inner, leftInduction leftComposed,
        rightInduction rightComposed]
  | assign name assigned induction =>
      obtain ⟨⟨_, isName⟩, assignedComposed⟩ := composed
      have inner : name.kind ≠ .endOfInput := by simp [isName]
      rw [mapTokens, Token.endOn_of_inner inner, induction assignedComposed]

/-- So the evaluation of the tree is not stuck at the end of the input. -/
theorem Expr.Composed.inner_of_evaluate {sort : Value → Prop}
    (composed : tree.Composed sort) (result : tree.evaluate = .error stuck) :
    stuck.token.kind ≠ .endOfInput := by
  -- The tree stays when the end moves, and so does the token it is stuck at.
  intro isEnd
  have same := evaluate_mapTokens
    (Token.endOn_relabels (stuck.token.line + 1)) tree
  rw [composed.mapTokens_endOn, result] at same
  have sameStuck := Except.error.inj same
  have sameLine := congrArg (fun stuck => stuck.token.line) sameStuck
  simp [Stuck.mapToken, Token.endOn, isEnd] at sameLine

theorem Stuck.aboutText_of_report {fault : Fault}
    (inner : stuck.token.kind ≠ .endOfInput)
    (reported : stuck.report = .ok fault) : fault.AboutText := by
  unfold report at reported
  split at reported <;> cases reported
  · exact ⟨_, Token.place_of_not_end inner⟩
  · exact ⟨_, Token.place_of_not_end inner⟩

end Evaluation

/-- Behind its scan the run of an expression says nothing about the end of the
input. -/
theorem Course.not_aboutEnd {source : String} {tree : Expr}
    {events : List Event} {logs : List (Stage × String)}
    {result : Option Value}
    (course : Course (scan source).tokens events logs result)
    (reading : Expr.ofTokens (scan source).tokens = .ok tree) :
    ∀ event ∈ events, ¬ event.AboutEnd := by
  have composed := Expr.composed_of_reading reading
  have noInfo (text : String) : ¬ (Event.info text).AboutEnd := by
    rintro ⟨fault, _, same⟩
    cases same
  cases course with
  | refused refused =>
      rw [reading] at refused
      cases refused
  | @stuck tree' stuck fault reading' result reported =>
      cases reading.symm.trans reading'
      have aboutText :=
        Stuck.aboutText_of_report (composed.inner_of_evaluate result) reported
      simp [noInfo, Fault.not_aboutEnd_message aboutText]
  | finished => simp [noInfo]

theorem runTokens_of_mismatch {tokens : List Token} {mismatch : Mismatch}
    (reading : Expr.ofTokens tokens = .error mismatch) :
    (runTokens tokens).events = [.error mismatch.fault.message] ∧
      (runTokens tokens).result = none := by
  have course := course_runTokens tokens
  generalize (runTokens tokens).events = events at course ⊢
  generalize (runTokens tokens).logs = logs at course
  generalize (runTokens tokens).result = result at course ⊢
  cases course with
  | refused refused =>
      cases reading.symm.trans refused
      exact ⟨rfl, rfl⟩
  | stuck accepted => cases reading.symm.trans accepted
  | finished accepted => cases reading.symm.trans accepted

section Break

variable (source : String)

/-- The tokens of a text, with their end on any line, are read as they are. -/
theorem ofTokens_endOn (line : Nat) :
    Expr.ofTokens ((scan source).tokens.map (Token.endOn line)) =
      (Expr.ofTokens (scan source).tokens).mapError
        (Mismatch.mapToken (Token.endOn line)) := by
  have isEnd : (Token.endOfInput (1 + lineBreaks source.toList)).kind =
      .endOfInput := rfl
  rw [Lexis.tokens_scan, Expr.ofTokens_map (Token.endOn_relabels line) isEnd,
    ← Lexis.tokens_scan]
  cases reading : Expr.ofTokens (scan source).tokens with
  | error mismatch => rfl
  | ok tree =>
      have composed := Expr.composed_of_reading reading
      exact congrArg Except.ok (composed.mapTokens_endOn line)

/-- A mismatch at the end of the input is on the last line. -/
theorem fault_endOn_of_mismatch {mismatch : Mismatch}
    (reading : Expr.ofTokens (scan source).tokens = .error mismatch) :
    mismatch.fault.endOn (1 + lineBreaks source.toList) =
      mismatch.fault := by
  -- The end is moved to where it is.
  have reread := ofTokens_endOn source (1 + lineBreaks source.toList)
  rw [Lexis.tokens_scan_endOn, reading] at reread
  have same := Except.error.inj reread
  rw [← Mismatch.fault_mapToken_endOn, ← same]

/-- With a line break at its end a text has the same result and reports the
same events, but the input ends one line further down. -/
theorem run_break :
    (run (source ++ "\n")).result = (run source).result ∧
      List.Forall₂
        (Event.EndMoves (1 + lineBreaks source.toList)
          (2 + lineBreaks source.toList))
        (run source).events (run (source ++ "\n")).events := by
  have reread := ofTokens_endOn source (2 + lineBreaks source.toList)
  have faults := endMoves_faults source (2 + lineBreaks source.toList)
  have result (text : String) :
      (run text).result = (runTokens (scan text).tokens).result := rfl
  rw [← Lexis.tokens_scan_break] at reread
  rw [← Lexis.faults_scan_break] at faults
  rw [events_run, events_run, result, result]
  cases reading : Expr.ofTokens (scan source).tokens with
  | ok tree =>
      have same : runTokens (scan (source ++ "\n")).tokens =
          runTokens (scan source).tokens := by
        rw [runTokens, runTokens, reread, reading]
        rfl
      have inText := (course_runTokens _).not_aboutEnd reading
      rw [same]
      refine ⟨rfl, List.rel_append faults ?_⟩
      rw [List.forall₂_same]
      intro event member
      exact .same (inText event member)
  | error mismatch =>
      rw [reading] at reread
      obtain ⟨events, noResult⟩ := runTokens_of_mismatch reading
      obtain ⟨events', noResult'⟩ := runTokens_of_mismatch reread
      have placed := fault_endOn_of_mismatch source reading
      rw [events, events', noResult, noResult']
      refine ⟨rfl, List.rel_append faults ?_⟩
      rw [Mismatch.fault_mapToken_endOn]
      exact .cons (Fault.endMoves placed
        mismatch.fault_aboutEnd_or_aboutText _) .nil

end Break

theorem Text.trimEnd_append_blank {c : Char} (blank : isBlank c = true)
    (text : List Char) : trimEnd (text ++ [c]) = trimEnd text := by
  simp [trimEnd, blank]

theorem Prompt.steps_line {source : String}
    (nonempty : Text.trimEnd source.toList ≠ []) :
    steps (source ++ "\n") =
      [.run (String.ofList (Text.trimEnd source.toList)), .reset] := by
  have trimmed : Text.trimEnd (source ++ "\n").toList =
      Text.trimEnd source.toList := by
    rw [String.toList_append]
    exact Text.trimEnd_append_blank (by decide) source.toList
  simp only [steps, trimmed, List.isEmpty_iff, nonempty, if_false]

/-- A line that has no blanks but spaces, tabs and carriage returns behind its
text is run in a conversation without them.  With them and with its line break
it has the same result and reports the same events; only what is about the end
of the input is on line 2 instead of line 1.  Such blanks do not change the
scan of any text. -/
theorem run_line_agrees_trimmed :
    (∀ (source : String) (blanks : List Char),
      '\n' ∉ source.toList → Text.trimEnd source.toList ≠ [] →
      source.toList = Text.trimEnd source.toList ++ blanks →
      (∀ c ∈ blanks, Lexis.Space c) →
      let trimmed := String.ofList (Text.trimEnd source.toList)
      Prompt.steps (source ++ "\n") = [.run trimmed, .reset] ∧
        (run (source ++ "\n")).result = (run trimmed).result ∧
        List.Forall₂ (Event.EndMoves 1 2)
          (run trimmed).events (run (source ++ "\n")).events) ∧
      ∀ text blanks : String, (∀ c ∈ blanks.toList, Lexis.Space c) →
        scan (text ++ blanks) = scan text ∧
          (scan (text ++ blanks)).records.filterMap Record.event? =
            (scan text).records.filterMap Record.event? := by
  constructor
  · intro source blanks oneLine nonempty trailing spaces trimmed
    have whole : source = trimmed ++ String.ofList blanks := by
      rw [← String.toList_inj, String.toList_append]
      simpa [trimmed] using trailing
    have scanned : scan source = scan trimmed := by
      rw [whole]
      exact Lexis.scan_append_spaces trimmed (by simpa using spaces)
    have sameRun : run source = run trimmed := by rw [run, run, scanned]
    have noBreak : lineBreaks source.toList = 0 :=
      List.count_eq_zero.mpr oneLine
    have behind := run_break source
    rw [noBreak, sameRun] at behind
    exact ⟨Prompt.steps_line nonempty, behind⟩
  · intro text blanks spaces
    have scanned := Lexis.scan_append_spaces text spaces
    exact ⟨scanned, congrArg (·.records.filterMap Record.event?) scanned⟩

/-- A string that is left open in front of blanks, where an operand is
missing, and a point behind a numeral. -/
theorem run_line_agrees_trimmed_openString :
    Prompt.steps ("1 + \"ab \t" ++ "\n") = [.run "1 + \"ab", .reset] ∧
      (run ("1 + \"ab \t" ++ "\n")).result = (run "1 + \"ab").result ∧
      List.Forall₂ (Event.EndMoves 1 2) (run "1 + \"ab").events
        (run ("1 + \"ab \t" ++ "\n")).events ∧
      (run "1 + \"ab").events =
        [.error "Line 1: Unterminated string at end of input.",
          .error "Line 1: Expected expression. at end"] ∧
      scan ("12." ++ " \t\r") = scan "12." := by
  have trimmed : String.ofList (Text.trimEnd "1 + \"ab \t".toList) =
      "1 + \"ab" := by
    decide +kernel
  obtain ⟨lines, texts⟩ := run_line_agrees_trimmed
  have line := lines "1 + \"ab \t" [' ', '\t'] (by decide +kernel)
    (by decide +kernel) (by decide +kernel) (by simp [Lexis.Space])
  rw [trimmed] at line
  obtain ⟨steps, result, events⟩ := line
  exact ⟨steps, result, events, by decide +kernel,
    (texts "12." " \t\r" (by simp [Lexis.Space])).1⟩

end LoxExpr
