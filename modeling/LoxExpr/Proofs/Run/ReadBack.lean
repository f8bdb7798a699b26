import LoxExpr.Proofs.Evaluation.Failure
import LoxExpr.Proofs.Grammar.Rendering
import LoxExpr.Proofs.Run.Course

/-!
# Trees that read back

What is shown to a user as the result of parsing is a text of the language
again, as long as it shows no string and no infinity.  It is scanned without a
fault and read as the tree that it shows, up to groups and lines.  Groups do
not matter for evaluation, and lines only for the line of a failure.
-/

namespace LoxExpr

open Lexis

/-- The fault on another line. -/
def Fault.onLine (line : Nat) : Fault → Fault
  | .lexical _ flaw => .lexical line flaw
  | .grammatical _ place detail => .grammatical line place detail
  | .runtime _ place detail => .runtime line place detail
  | .unsupported _ place feature => .unsupported line place feature

theorem Token.onLine_relabels (line : Nat) :
    Token.Relabels (Token.onLine line) :=
  ⟨fun _ => rfl, fun _ => rfl⟩

theorem Stuck.report_onLine (line : Nat) (stuck : Stuck) :
    (stuck.mapToken (Token.onLine line)).report =
      stuck.report.map (Fault.onLine line) := by
  obtain ⟨token, obstacle⟩ := stuck
  cases obstacle <;> rfl

namespace Expr

theorem ungroup_shown (tree : Expr) :
    tree.shown.ungroup = tree.ungroup.mapTokens (Token.onLine 1) := by
  induction tree with
  | literal value => rfl
  | group inner induction => exact induction
  | unary operator operand induction =>
      simp only [shown, ungroup, mapTokens, induction]
  | binary left operator right leftInduction rightInduction =>
      simp only [shown, ungroup, mapTokens, leftInduction, rightInduction]
  | assign name assigned induction =>
      simp only [shown, ungroup, mapTokens, induction]

theorem evaluate_ungroup (tree : Expr) :
    tree.ungroup.evaluate = tree.evaluate := by
  induction tree with
  | literal value => rfl
  | group inner induction => exact induction
  | unary operator operand induction =>
      rw [ungroup, evaluate, evaluate, induction]
  | binary left operator right leftInduction rightInduction =>
      rw [ungroup, evaluate, evaluate, leftInduction, rightInduction]
  | assign name assigned induction => rfl

/-- The tree that is read from the text of a tree evaluates like it, but is
stuck on the first line. -/
theorem evaluate_shown (tree : Expr) :
    tree.shown.evaluate =
      tree.evaluate.mapError (Stuck.mapToken (Token.onLine 1)) := by
  rw [← evaluate_ungroup, ungroup_shown,
    evaluate_mapTokens (Token.onLine_relabels 1), evaluate_ungroup]

theorem failure?_shown (tree : Expr) :
    tree.shown.failure? = tree.failure?.map (Fault.onLine 1) := by
  have moved := failure?_mapTokens (Token.onLine_relabels 1)
    (Stuck.report_onLine 1) tree
  rwa [failure?, evaluate_mapTokens (Token.onLine_relabels 1),
    ← evaluate_shown] at moved

theorem mapTokens_onLine_onLine (line other : Nat) (tree : Expr) :
    (tree.mapTokens (Token.onLine other)).mapTokens (Token.onLine line) =
      tree.mapTokens (Token.onLine line) := by
  induction tree with
  | literal value => rfl
  | group inner induction => simp only [mapTokens, induction]
  | unary operator operand induction =>
      simp only [mapTokens, induction, Token.onLine]
  | binary left operator right leftInduction rightInduction =>
      simp only [mapTokens, leftInduction, rightInduction, Token.onLine]
  | assign name assigned induction =>
      simp only [mapTokens, induction, Token.onLine]

section Composed

variable {sort : Value → Prop} {tree : Expr}

/-- A tree stays composed without its groups and on one line. -/
theorem Composed.ungroup_onLine (composed : tree.Composed sort) (line : Nat) :
    (tree.ungroup.mapTokens (Token.onLine line)).Composed sort := by
  induction tree with
  | literal value => exact composed
  | group inner induction => exact induction composed
  | unary operator operand induction =>
      exact ⟨composed.1, induction composed.2⟩
  | binary left operator right leftInduction rightInduction =>
      exact ⟨leftInduction composed.1, composed.2.1,
        rightInduction composed.2.2⟩
  | assign name assigned induction =>
      exact ⟨composed.1, induction composed.2⟩

/-- A tree of spelled tokens equals itself if its literals do. -/
theorem Composed.beq_self (composed : tree.Composed sort)
    (literals : ∀ value, sort value → (value == value) = true) :
    (tree == tree) = true := by
  change tree.isEqual tree = true
  induction tree with
  | literal value => exact literals value composed
  | group inner induction => exact induction composed
  | unary operator operand induction =>
      rw [isEqual, Bool.and_eq_true]
      exact ⟨composed.1.1.beq_self, induction composed.2⟩
  | binary left operator right leftInduction rightInduction =>
      rw [isEqual, Bool.and_eq_true, Bool.and_eq_true]
      exact ⟨⟨leftInduction composed.1, composed.2.1.1.beq_self⟩,
        rightInduction composed.2.2⟩
  | assign name assigned induction =>
      rw [isEqual, Bool.and_eq_true]
      exact ⟨composed.1.1.beq_self, induction composed.2⟩

end Composed

theorem composed_of_reading {source : String} {tree : Expr}
    (reading : ofTokens (scan source).tokens = .ok tree) :
    tree.Composed IsConstant := by
  have derives := ofTokens_scan_eq_ok_iff.mp reading
  exact derives.composed (fun _ => spelled_of_mem_tokens) trivial

theorem ofTokens_render {tree : Expr} (composed : tree.Composed IsDisplayed) :
    (scan tree.render).faults = [] ∧
      ofTokens (scan tree.render).tokens = .ok tree.shown := by
  obtain ⟨words, spells, derives⟩ := composed.shows
  obtain ⟨noFault, scanned⟩ := spells.scan
  refine ⟨noFault, ?_⟩
  rw [scanned]
  exact ofTokens_of_derives rfl (.expression_of_unary (.primary derives))

theorem interpret_of_value {tree : Expr} {value : Value}
    (result : tree.evaluate = .ok value) :
    tree.interpret =
      { records := [.logged .evaluation ("evaluated to " ++ value.inspect)]
        ending := .finished value } := by
  rw [interpret, result]

theorem interpret_of_failure {tree : Expr} {fault : Fault}
    (fails : tree.failure? = some fault) :
    tree.interpret =
      { records := [.error fault], ending := .reported } := by
  obtain ⟨stuck, result, reported⟩ := failure?_eq_some_iff.mp fails
  simp only [interpret, result, reported]

end Expr

/-- What a text is read as is shown as a text that is scanned without an error
and read as the same tree, up to groups and lines.  Both trees have the same
value, or they fail with the same fault, the second one on its first line. -/
theorem render_reads_back {source : String} {tree : Expr}
    (reading : Expr.ofTokens (scan source).tokens = .ok tree)
    (noString : ∀ content, .string content ∉ tree.literals)
    (finite : ∀ number, .number number ∈ tree.literals →
      number.isInf = false) :
    (scan tree.render).faults = [] ∧
      (scan tree.render).records.filterMap Record.event? = [] ∧
      ∃ reread, Expr.ofTokens (scan tree.render).tokens = .ok reread ∧
        reread.ungroup.mapTokens (Token.onLine 0) =
          tree.ungroup.mapTokens (Token.onLine 0) ∧
        (reread.ungroup.mapTokens (Token.onLine 0) ==
          tree.ungroup.mapTokens (Token.onLine 0)) = true ∧
        ((∃ value, tree.interpret.result = some value ∧
            reread.interpret = tree.interpret) ∨
          ∃ fault,
            tree.interpret =
              { records := [.error fault], ending := .reported } ∧
            reread.interpret =
              { records := [.error (fault.onLine 1)]
                ending := .reported }) := by
  have composed := Expr.composed_of_reading reading
  have displayed : tree.Composed IsDisplayed := by
    apply composed.of_literals
    rintro value member ⟨token, spelled, constant⟩
    apply spelled.displays constant
    · rintro content rfl
      exact noString content member
    · rintro number rfl
      exact finite number member
  obtain ⟨noFault, rereading⟩ := Expr.ofTokens_render displayed
  have same : tree.shown.ungroup.mapTokens (Token.onLine 0) =
      tree.ungroup.mapTokens (Token.onLine 0) := by
    rw [Expr.ungroup_shown, Expr.mapTokens_onLine_onLine]
  have equal := (composed.ungroup_onLine 0).beq_self
    (fun _ constant => constant.beq_self)
  have regular := Expr.regular_of_ofTokens reading
  refine ⟨noFault, ?_, tree.shown, rereading, same, ?_, ?_⟩
  · rw [Lexis.events_records, noFault, List.map_nil]
  · rw [same]
    exact equal
  · rcases regular.value_or_failure with ⟨value, result⟩ | ⟨fault, fails⟩
    · left
      have again : tree.shown.evaluate = .ok value := by
        rw [tree.evaluate_shown, result]
        rfl
      rw [Expr.interpret_of_value result, Expr.interpret_of_value again]
      exact ⟨value, rfl, rfl⟩
    · right
      have again : tree.shown.failure? = some (fault.onLine 1) := by
        rw [tree.failure?_shown, fails]
        rfl
      exact ⟨fault, Expr.interpret_of_failure fails,
        Expr.interpret_of_failure again⟩

/-- Neither a string nor an infinite number. -/
def Value.isPlain : Value → Bool
  | .string _ => false
  | .number real => !real.isInf
  | _ => true

/-- A comparison of a comparison with a sum that has no value is shown on one
line and fails there in the same way. -/
theorem render_reads_back_comparison :
    ∃ tree reread fault,
      Expr.ofTokens (scan "(-1.50 <= 2)\n== nil + 0.1").tokens = .ok tree ∧
        tree.render = "((((- 1.5) <= 2)) == (nil + 0.1))" ∧
        (scan tree.render).faults = [] ∧
        Expr.ofTokens (scan tree.render).tokens = .ok reread ∧
        tree.interpret.events = [.error
          "Line 2: Operands must both be strings or numbers. at '+'"] ∧
        tree.interpret.records = [.error fault] ∧
        reread.interpret.records = [.error (fault.onLine 1)] := by
  have shown : (Expr.ofTokens
        (scan "(-1.50 <= 2)\n== nil + 0.1").tokens).toOption.map (fun tree =>
          (tree.literals.all Value.isPlain, tree.render,
            tree.interpret.events, tree.interpret.result.isSome)) =
      some (true, "((((- 1.5) <= 2)) == (nil + 0.1))",
        [.error "Line 2: Operands must both be strings or numbers. at '+'"],
        false) := by
    decide +kernel
  cases reading : Expr.ofTokens
      (scan "(-1.50 <= 2)\n== nil + 0.1").tokens with
  | error mismatch =>
      rw [reading] at shown
      cases shown
  | ok tree =>
      rw [reading] at shown
      simp only [Except.toOption, Option.map_some, Option.some.injEq,
        Prod.mk.injEq, List.all_eq_true] at shown
      obtain ⟨plain, render, events, noResult⟩ := shown
      have noString (content : String) :
          .string content ∉ tree.literals := by
        intro member
        cases plain _ member
      have finite (number : Float)
          (member : .number number ∈ tree.literals) :
          number.isInf = false := by
        simpa [Value.isPlain] using plain _ member
      obtain ⟨noFault, _, reread, rereading, _, _, outcome⟩ :=
        render_reads_back reading noString finite
      rcases outcome with ⟨value, result, _⟩ | ⟨fault, failed, again⟩
      · rw [result] at noResult
        cases noResult
      · exact ⟨tree, reread, fault, rfl, render, noFault, rereading, events,
          by rw [failed], by rw [again]⟩

end LoxExpr
