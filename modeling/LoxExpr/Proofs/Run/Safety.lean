import LoxExpr.Proofs.Evaluation.Regular
import LoxExpr.Proofs.Reading.Strict
import LoxExpr.Run

/-!
# Runs without defects

No run ends with a defective tree, and no reading on the way looks at a place
without a token.
-/

namespace LoxExpr

namespace Run

theorem ending_after (run : Run) (earlier : List Record) :
    (run.after earlier).ending = run.ending := rfl

end Run

theorem Expr.ending_run (tree : Expr) :
    tree.run.ending = tree.interpret.ending := rfl

/-- A tree with a value or a fault does not end its run by a defect. -/
theorem Expr.Regular.ending_ne_defective {tree : Expr}
    (regular : tree.Regular) (defect : Defect) :
    tree.run.ending ≠ .defective defect := by
  have reportable := regular.reportable_evaluate
  rw [Expr.ending_run, Expr.interpret]
  cases result : tree.evaluate with
  | ok value => simp
  | error stuck =>
      rw [result] at reportable
      obtain ⟨fault, reported⟩ := reportable
      simp [reported]

theorem ending_runTokens_ne_defective (tokens : List Token)
    (defect : Defect) : (runTokens tokens).ending ≠ .defective defect := by
  rw [runTokens, Run.ending_after]
  cases result : Expr.ofTokens tokens with
  | ok tree =>
      have regular := Expr.regular_of_ofTokens result
      exact regular.ending_ne_defective defect
  | error mismatch => simp

/-- A run cannot break down.  No run of a text meets a defective node; no
reading of a token list looks at a place without a token; what is read is
regular; and a regular tree has a value or a fault. -/
theorem run_safe :
    (∀ source defect, (run source).ending ≠ .defective defect) ∧
      (∀ tokens,
        Reading.Strict.ofTokens tokens = some (Expr.ofTokens tokens)) ∧
      (∀ tokens tree, Expr.ofTokens tokens = .ok tree → tree.Regular) ∧
      ∀ tree : Expr, tree.Regular → Reportable tree.evaluate := by
  refine ⟨?_, Reading.Strict.ofTokens_eq_some, ?_, ?_⟩
  · intro source defect
    exact ending_runTokens_ne_defective (scan source).tokens defect
  · intro tokens tree result
    exact Expr.regular_of_ofTokens result
  · intro tree regular
    exact regular.reportable_evaluate

theorem mixedTokens_reportable :
    ∃ tree, Expr.ofTokens Expr.mixedTokens = .ok tree ∧ tree.Regular ∧
      Reportable tree.evaluate := by
  have regular := run_safe.2.2.1 Expr.mixedTokens _ rfl
  exact ⟨_, rfl, regular, run_safe.2.2.2 _ regular⟩

end LoxExpr
