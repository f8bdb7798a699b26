import LoxExpr.Command.Program
import LoxExpr.Proofs.Evaluation.Kinds
import LoxExpr.Proofs.Run.Course

/-!
# The exit code of a file

A text is accepted when the lexical rules, the grammar and the rules for kinds
accept it.  None of them evaluates anything.  The exit code of a file tells
exactly whether its text is accepted.
-/

namespace LoxExpr

/-- Every piece of the text is a word, its tokens form an expression, and the
expression assigns nothing and has a kind. -/
def Accepted (source : String) : Prop :=
  ∃ pieces tree kind,
    Lexis.Splits source.toList pieces ∧
      (∀ piece ∈ pieces, Lexis.Rule piece.text piece.role) ∧
      Grammar.Derives .expression
        ((Lexis.placed [] pieces).filterMap Lexis.tokenOf?) tree ∧
      tree.AssignFree ∧ tree.HasKind kind

theorem accepted_iff {source : String} :
    Accepted source ↔
      (run source).result.isSome ∧ (scan source).faults = [] := by
  rw [Option.isSome_iff_exists, Lexis.faults_eq_nil_iff]
  simp only [result_run_eq_some_iff, ofTokens_scan_eq_ok_iff]
  constructor
  · rintro ⟨pieces, tree, kind, splits, rules, derives, _, hasKind⟩
    obtain rfl := splits.eq_split
    obtain ⟨value, result, _⟩ := hasKind.evaluates
    exact ⟨⟨value, tree, derives, result⟩, rules⟩
  · rintro ⟨⟨value, tree, derives, result⟩, rules⟩
    have hasKind := Expr.hasKind_of_evaluate result
    exact ⟨_, tree, _, Lexis.splits_split source.toList, rules, derives,
      hasKind.assignFree, hasKind⟩

namespace Program

theorem code_sourceReport (shown : LogView) (source : String) :
    (sourceReport shown source).code =
      if (Session.start.step (.run source)).session.hadError then 65
      else 0 := rfl

theorem fileReport_of_text (shown : LogView) (name : String)
    {bytes : ByteArray} {source : String}
    (isText : String.fromUTF8? bytes = some source) :
    fileReport shown name (.ok bytes) = sourceReport shown source := by
  simp only [fileReport, decode, isText]

/-- The exit code of a file with a text is 0 if the text is accepted and 65
otherwise.  Whether a tree has a value does not depend on what its literals
are, as long as their kinds stay the same. -/
theorem code_fileReport (shown : LogView) (name : String)
    (bytes : ByteArray) (source : String)
    (isText : String.fromUTF8? bytes = some source) :
    ((fileReport shown name (.ok bytes)).code = 0 ↔ Accepted source) ∧
      ((fileReport shown name (.ok bytes)).code = 65 ↔ ¬ Accepted source) ∧
      ∀ tree tree' : Expr, tree.Alike tree' →
        ((∃ value, tree.evaluate = .ok value) ↔
          ∃ value, tree'.evaluate = .ok value) := by
  have accepted : (Session.start.step (.run source)).session.hadError =
      false ↔ Accepted source := by
    rw [hadError_step_run, accepted_iff]
    exact and_iff_right rfl
  rw [fileReport_of_text shown name isText, code_sourceReport, ← accepted]
  refine ⟨?_, ?_, ?_⟩
  · cases (Session.start.step (.run source)).session.hadError <;> simp
  · cases (Session.start.step (.run source)).session.hadError <;> simp
  · intro tree tree' alike
    exact ⟨Expr.evaluates_of_alike alike, Expr.evaluates_of_alike alike.symm⟩

/-- A quotient of two numbers, which are not looked at. -/
def quotient (left right : Float) : Expr :=
  .binary (.literal (.number left)) ⟨.operator .over, "/", none, 1⟩
    (.literal (.number right))

theorem code_quotient_by_zero :
    String.fromUTF8? "1 / 0".toUTF8 = some "1 / 0" ∧
      (fileReport (fun _ _ => true) "quotient" (.ok "1 / 0".toUTF8)).code =
        0 ∧
      Accepted "1 / 0" ∧
      (quotient 1 2).Alike (quotient 0 0) ∧
      ∃ value, (quotient 0 0).evaluate = .ok value := by
  have isText : String.fromUTF8? "1 / 0".toUTF8 = some "1 / 0" := by decide
  have code : (fileReport (fun _ _ => true) "quotient"
      (.ok "1 / 0".toUTF8)).code = 0 := by
    rw [fileReport_of_text _ _ isText]
    decide +kernel
  have alike : (quotient 1 2).Alike (quotient 0 0) :=
    .binary (.literal rfl) (.literal rfl)
  obtain ⟨zeroIff, _, kindsOnly⟩ :=
    code_fileReport (fun _ _ => true) "quotient" _ _ isText
  exact ⟨isText, code, zeroIff.mp code, alike,
    (kindsOnly _ _ alike).mp ⟨_, rfl⟩⟩

end Program

end LoxExpr
