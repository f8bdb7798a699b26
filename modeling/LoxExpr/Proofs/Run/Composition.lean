import LoxExpr.Proofs.Evaluation.Failure
import LoxExpr.Proofs.Grammar.Embedding
import LoxExpr.Proofs.Lexis.Enclosure
import LoxExpr.Proofs.Run.Course

/-!
# Composition of texts

The run of a text that is composed of expressions is composed of their runs.
Parentheses around an expression change nothing.  Two expressions joined by an
operator have the value of the operation at their values.  Without a value
they report the first failure in the order of evaluation, behind all lexical
faults of both.  This needs texts that are expressions on their own.
-/

namespace LoxExpr

open Piece (lineBreaks)

def Event.error? : Event → Option String
  | .error text => some text
  | _ => none

/-- The texts of the errors that a run reports. -/
def Run.errors (run : Run) : List String :=
  run.events.filterMap Event.error?

/-- The fault on which the evaluation of a text ends, if the text is an
expression without a value. -/
def failure? (source : String) : Option Fault :=
  (Expr.ofTokens (scan source).tokens).toOption.bind Expr.failure?

/-- A text that is an expression on its own and leaves no string open. -/
structure SelfContained (source : String) : Prop where
  parses : ∃ tree, Expr.ofTokens (scan source).tokens = .ok tree
  closed : Lexis.Closed source

/-- The failures of two texts that are joined by an operator. -/
inductive JoinFailure (left word : String) (symbol : Operator)
    (right : String) : Fault → Prop where
  | ofLeft {fault : Fault} :
      failure? left = some fault →
      JoinFailure left word symbol right fault
  | ofRight {x : Value} {fault : Fault} :
      (run left).result = some x → failure? right = some fault →
      JoinFailure left word symbol right
        (fault.raise (1 + lineBreaks left.toList))
  | ofSign {x y : Value} {operation : Value → Value → Except Objection Value}
      {objection : Objection} :
      (run left).result = some x → (run right).result = some y →
      symbol.operation? = some operation →
      operation x y = .error objection →
      JoinFailure left word symbol right
        (.runtime (2 + lineBreaks left.toList) ("'" ++ word ++ "'")
          objection.detail)

theorem Token.raise_relabels (lines : Nat) :
    Token.Relabels (Token.raise lines) :=
  ⟨fun _ => rfl, fun _ => rfl⟩

theorem Stuck.report_raise (lines : Nat) (stuck : Stuck) :
    (stuck.mapToken (Token.raise lines)).report =
      stuck.report.map (Fault.raise lines) := by
  obtain ⟨token, obstacle⟩ := stuck
  cases obstacle <;> rfl

section Reading

variable {source : String} {tree : Expr}

theorem failure?_of_reading
    (reading : Expr.ofTokens (scan source).tokens = .ok tree) :
    failure? source = tree.failure? := by
  rw [failure?, reading]
  rfl

theorem result_of_reading
    (reading : Expr.ofTokens (scan source).tokens = .ok tree)
    {value : Value} :
    (run source).result = some value ↔ tree.evaluate = .ok value := by
  rw [result_run_eq_some_iff, reading]
  simp

theorem errors_runTokens {tokens : List Token}
    (reading : Expr.ofTokens tokens = .ok tree) :
    (runTokens tokens).errors = tree.failure?.toList.map Fault.message := by
  have regular := Expr.regular_of_ofTokens reading
  simp only [Run.errors, runTokens, reading]
  rcases regular.value_or_failure with ⟨value, result⟩ | ⟨fault, fails⟩
  · rw [Expr.run_of_value result, Expr.failure?_of_value result]
    rfl
  · obtain ⟨stuck, result, reported⟩ := Expr.failure?_eq_some_iff.mp fails
    rw [Expr.run_of_fault result reported, fails]
    rfl

/-- An expression reports its lexical faults and its failure. -/
theorem errors_of_reading
    (reading : Expr.ofTokens (scan source).tokens = .ok tree) :
    (run source).errors =
      ((scan source).faults ++ tree.failure?.toList).map Fault.message := by
  have behind := errors_runTokens reading
  rw [Run.errors] at behind ⊢
  rw [events_run, List.filterMap_append, behind, List.map_append]
  simp [List.filterMap_map, Function.comp_def, Event.error?]

theorem ofTokens_enclosed (closed : Lexis.Closed source)
    (reading : Expr.ofTokens (scan source).tokens = .ok tree) :
    Expr.ofTokens (scan (enclosed source)).tokens = .ok (.group tree) := by
  have derives := ofTokens_scan_eq_ok_iff.mp reading
  rw [Lexis.tokens_scan_enclosed closed]
  exact Expr.ofTokens_of_derives rfl
    (.expression_of_unary (.primary (.group rfl derives rfl)))

end Reading

section Joined

variable {left word right : String} {symbol : Operator}
  {leftTree rightTree : Expr}

/-- The tree of two joined texts, which has the right one on later lines. -/
def joinedTree (left word : String) (symbol : Operator)
    (leftTree rightTree : Expr) : Expr :=
  .binary (.group leftTree)
    (Token.sign symbol word (2 + lineBreaks left.toList))
    (.group (rightTree.mapTokens (Token.raise (1 + lineBreaks left.toList))))

theorem ofTokens_joined
    (isWord : (word.toList, Token.Kind.operator symbol) ∈ Lexis.symbols)
    (binds : symbol.precedence?.isSome = true)
    (leftClosed : Lexis.Closed left) (rightClosed : Lexis.Closed right)
    (leftReading : Expr.ofTokens (scan left).tokens = .ok leftTree)
    (rightReading : Expr.ofTokens (scan right).tokens = .ok rightTree) :
    Expr.ofTokens (scan (joined left word right)).tokens =
      .ok (joinedTree left word symbol leftTree rightTree) := by
  have leftDerives := ofTokens_scan_eq_ok_iff.mp leftReading
  have rightDerives := (ofTokens_scan_eq_ok_iff.mp rightReading).mapTokens
    (Token.raise_relabels (1 + lineBreaks left.toList))
  obtain ⟨closingLine, lastLine, tokens⟩ :=
    Lexis.tokens_scan_joined leftClosed rightClosed isWord
  rw [tokens]
  exact Expr.ofTokens_of_derives rfl
    (.joined rfl binds (.primary (.group rfl leftDerives rfl))
      (.primary (.group rfl rightDerives rfl)))

theorem evaluate_joinedTree_eq_ok_iff {value : Value} :
    (joinedTree left word symbol leftTree rightTree).evaluate = .ok value ↔
      ∃ x y operation, leftTree.evaluate = .ok x ∧
        rightTree.evaluate = .ok y ∧ symbol.operation? = some operation ∧
        operation x y = .ok value := by
  have raised (y : Value) : (rightTree.mapTokens
        (Token.raise (1 + lineBreaks left.toList))).evaluate = .ok y ↔
      rightTree.evaluate = .ok y :=
    Expr.evaluate_mapTokens_eq_ok_iff (Token.raise_relabels _)
  rw [joinedTree, Expr.evaluate_binary_eq_ok_iff]
  simp only [Expr.evaluate, raised, Token.applyBinary_eq_ok_iff]
  constructor
  · rintro ⟨x, y, leftResult, rightResult, _, operation, isSymbol, found,
      outcome⟩
    cases isSymbol
    exact ⟨x, y, operation, leftResult, rightResult, found, outcome⟩
  · rintro ⟨x, y, operation, leftResult, rightResult, found, outcome⟩
    exact ⟨x, y, leftResult, rightResult, symbol, operation, rfl, found,
      outcome⟩

/-- The failure of the joined tree, from the runs of the two texts. -/
theorem joinFailure_of_failure? {fault : Fault}
    (binds : symbol.precedence?.isSome = true)
    (leftReading : Expr.ofTokens (scan left).tokens = .ok leftTree)
    (rightReading : Expr.ofTokens (scan right).tokens = .ok rightTree)
    (fails : (joinedTree left word symbol leftTree rightTree).failure? =
      some fault) :
    JoinFailure left word symbol right fault := by
  have raised := Token.raise_relabels (1 + lineBreaks left.toList)
  rcases Expr.failure?_binary fails with leftFails |
    ⟨x, leftResult, rightFails⟩ |
    ⟨x, y, stuck, leftResult, rightResult, applied, reported⟩
  · apply JoinFailure.ofLeft
    rwa [failure?_of_reading leftReading]
  · have moved : (rightTree.mapTokens
        (Token.raise (1 + lineBreaks left.toList))).failure? = some fault :=
      rightFails
    rw [Expr.failure?_mapTokens raised (Stuck.report_raise _)] at moved
    obtain ⟨own, ownFails, rfl⟩ := Option.map_eq_some_iff.mp moved
    apply JoinFailure.ofRight
    · exact (result_of_reading leftReading).mpr leftResult
    · rwa [failure?_of_reading rightReading]
  · have rightValue : rightTree.evaluate = .ok y :=
      (Expr.evaluate_mapTokens_eq_ok_iff raised).mp rightResult
    obtain ⟨operation, found⟩ :=
      Option.isSome_iff_exists.mp (symbol.operation?_isSome.trans binds)
    simp only [Token.applyBinary, Token.sign, found] at applied
    cases outcome : operation x y with
    | ok value =>
        rw [outcome] at applied
        cases applied
    | error objection =>
        rw [outcome] at applied
        cases applied
        cases reported
        exact .ofSign ((result_of_reading leftReading).mpr leftResult)
          ((result_of_reading rightReading).mpr rightValue) found outcome

end Joined

/-- Runs of texts that are expressions on their own compose.  Such a text
reports its lexical faults and its failure, and it has the same result and the
same errors between parentheses.  Two such texts that an operator joins have
the value of its operation at their values, and report their lexical faults
only.  If there is no such value they report one failure more. -/
theorem run_composes :
    (∀ source, SelfContained source →
      (run source).errors =
          ((scan source).faults ++ (failure? source).toList).map
            Fault.message ∧
        (run (enclosed source)).result = (run source).result ∧
        (run (enclosed source)).errors = (run source).errors) ∧
      ∀ left word symbol right,
        (word.toList, Token.Kind.operator symbol) ∈ Lexis.symbols →
        symbol.precedence?.isSome = true →
        SelfContained left → SelfContained right →
        let whole := run (joined left word right)
        let faults := (scan left).faults ++
          (scan right).faults.map (Fault.raise (1 + lineBreaks left.toList))
        (∀ value, whole.result = some value ↔
          ∃ x y operation, (run left).result = some x ∧
            (run right).result = some y ∧
            symbol.operation? = some operation ∧
            operation x y = .ok value) ∧
          (whole.result.isSome → whole.errors = faults.map Fault.message) ∧
          (whole.result = none → ∃ fault,
            JoinFailure left word symbol right fault ∧
              whole.errors = (faults ++ [fault]).map Fault.message) := by
  constructor
  · rintro source ⟨⟨tree, reading⟩, closed⟩
    have enclosedReading := ofTokens_enclosed closed reading
    refine ⟨?_, ?_, ?_⟩
    · rw [errors_of_reading reading, failure?_of_reading reading]
    · ext value
      rw [result_of_reading enclosedReading, result_of_reading reading,
        Expr.evaluate]
    · rw [errors_of_reading enclosedReading, errors_of_reading reading,
        Lexis.faults_scan_enclosed closed]
      rfl
  · rintro left word symbol right isWord binds
      ⟨⟨leftTree, leftReading⟩, leftClosed⟩
      ⟨⟨rightTree, rightReading⟩, rightClosed⟩
    have reading := ofTokens_joined isWord binds leftClosed rightClosed
      leftReading rightReading
    have errors := errors_of_reading reading
    rw [Lexis.faults_scan_joined leftClosed rightClosed isWord] at errors
    have regular := Expr.regular_of_ofTokens reading
    refine ⟨?_, ?_, ?_⟩
    · intro value
      simp only [result_of_reading reading, evaluate_joinedTree_eq_ok_iff,
        result_of_reading leftReading, result_of_reading rightReading]
    · intro hasResult
      obtain ⟨value, result⟩ := Option.isSome_iff_exists.mp hasResult
      have evaluated := (result_of_reading reading).mp result
      rw [errors, Expr.failure?_of_value evaluated]
      simp
    · intro noResult
      rcases regular.value_or_failure with ⟨value, evaluated⟩ | ⟨fault, fails⟩
      · have result := (result_of_reading reading).mpr evaluated
        rw [noResult] at result
        cases result
      · refine ⟨fault, ?_, ?_⟩
        · exact joinFailure_of_failure? binds leftReading rightReading fails
        · rw [errors, fails]
          rfl

theorem selfContained_of_scan {source : String}
    (parses : (Expr.ofTokens (scan source).tokens).toOption.isSome = true)
    (closed : ∀ fault ∈ (scan source).faults,
      fault.detail ≠ Flaw.unterminated.detail) : SelfContained source := by
  refine ⟨?_, ?_⟩
  · cases reading : Expr.ofTokens (scan source).tokens with
    | ok tree => exact ⟨tree, rfl⟩
    | error mismatch =>
        rw [reading] at parses
        cases parses
  · intro line member
    exact closed _ member rfl

/-- A number with a stray character and a comment is compared with a sum that
has no value. -/
theorem run_composes_comparison :
    SelfContained "1 @ // one" ∧ SelfContained "2 +\nnil" ∧
      (run (enclosed "1 @ // one")).errors =
        ["Line 1: Unexpected character '@'."] ∧
      ∃ fault, JoinFailure "1 @ // one" "<" .less "2 +\nnil" fault ∧
        (run (joined "1 @ // one" "<" "2 +\nnil")).errors =
          ["Line 1: Unexpected character '@'.", fault.message] ∧
        fault.message =
          "Line 2: Operands must both be strings or numbers. at '+'" := by
  have left : SelfContained "1 @ // one" :=
    selfContained_of_scan (by decide +kernel) (by decide +kernel)
  have right : SelfContained "2 +\nnil" :=
    selfContained_of_scan (by decide +kernel) (by decide +kernel)
  have leftErrors : (run "1 @ // one").errors =
      ["Line 1: Unexpected character '@'."] := by decide +kernel
  have noResult :
      (run (joined "1 @ // one" "<" "2 +\nnil")).result = none := by
    rw [← Option.isNone_iff_eq_none]
    decide +kernel
  have messages : (run (joined "1 @ // one" "<" "2 +\nnil")).errors =
      ["Line 1: Unexpected character '@'.",
        "Line 2: Operands must both be strings or numbers. at '+'"] := by
    decide +kernel
  obtain ⟨enclosing, joining⟩ := run_composes
  obtain ⟨_, _, sameErrors⟩ := enclosing "1 @ // one" left
  obtain ⟨_, _, fails⟩ := joining "1 @ // one" "<" .less "2 +\nnil"
    (by decide) rfl left right
  obtain ⟨fault, failure, errors⟩ := fails noResult
  rw [messages] at errors
  have leftFaults : (scan "1 @ // one").faults =
      [.lexical 1 (.unexpected '@')] := by decide +kernel
  have rightFaults : (scan "2 +\nnil").faults = [] := by decide +kernel
  rw [leftFaults, rightFaults] at errors
  have message : fault.message =
      "Line 2: Operands must both be strings or numbers. at '+'" := by
    simpa using (List.cons.inj (List.cons.inj errors).2).1.symm
  refine ⟨left, right, sameErrors.trans leftErrors, fault, failure, ?_,
    message⟩
  rw [messages, message]

end LoxExpr
