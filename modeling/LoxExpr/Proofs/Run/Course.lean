import LoxExpr.Proofs.Lexis.Tokenization
import LoxExpr.Proofs.Run.Safety
import LoxExpr.Session

/-!
# The course of a run

Behind its scan a run goes one of three ways.  It is refused by the grammar, it
gets stuck while its tree is evaluated, or it finishes with a value.  Each way
leaves its own events and log records, and only the last one has a result.
-/

namespace LoxExpr

/-- The stage and the text of a log record. -/
def Record.log? : Record → Option (Stage × String)
  | .told _ => none
  | .logged stage text => some (stage, text)

namespace Run

def logs (run : Run) : List (Stage × String) :=
  run.records.filterMap Record.log?

theorem events_after (run : Run) (earlier : List Record) :
    (run.after earlier).events =
      earlier.filterMap Record.event? ++ run.events :=
  List.filterMap_append

theorem logs_after (run : Run) (earlier : List Record) :
    (run.after earlier).logs =
      earlier.filterMap Record.log? ++ run.logs :=
  List.filterMap_append

end Run

/-- The fault of a node without a value. -/
def Fault.IsOfEvaluation : Fault → Prop
  | .runtime _ _ _ => True
  | .unsupported _ _ _ => True
  | _ => False

theorem Stuck.isOfEvaluation_of_report {stuck : Stuck} {fault : Fault}
    (reported : stuck.report = .ok fault) : fault.IsOfEvaluation := by
  unfold Stuck.report at reported
  split at reported <;> cases reported <;> trivial

/-- How a run goes on with the tokens of its scan: the events it reports, the
records it logs, and its result. -/
inductive Course (tokens : List Token) :
    List Event → List (Stage × String) → Option Value → Prop where
  | refused {mismatch : Mismatch} {line : Nat} {place detail : String} :
      Expr.ofTokens tokens = .error mismatch →
      mismatch.fault = .grammatical line place detail →
      Course tokens [.error mismatch.fault.message] [] none
  | stuck {tree : Expr} {stuck : Stuck} {fault : Fault} :
      Expr.ofTokens tokens = .ok tree →
      tree.evaluate = .error stuck → stuck.report = .ok fault →
      fault.IsOfEvaluation →
      Course tokens
        [.info ("Parse result: " ++ tree.render), .error fault.message]
        [(.reading, "parsed " ++ tree.render)] none
  | finished {tree : Expr} {value : Value} :
      Expr.ofTokens tokens = .ok tree → tree.evaluate = .ok value →
      Course tokens
        [.info ("Parse result: " ++ tree.render),
          .info ("Run result: " ++ value.display)]
        [(.reading, "parsed " ++ tree.render),
          (.evaluation, "evaluated to " ++ value.inspect)]
        (some value)

theorem Expr.run_of_value {tree : Expr} {value : Value}
    (result : tree.evaluate = .ok value) :
    tree.run =
      { records :=
          [.told (.info ("Parse result: " ++ tree.render)),
            .logged .evaluation ("evaluated to " ++ value.inspect),
            .told (.info ("Run result: " ++ value.display))]
        ending := .finished value } := by
  simp [run, interpret, result]

theorem Expr.run_of_fault {tree : Expr} {stuck : Stuck} {fault : Fault}
    (result : tree.evaluate = .error stuck)
    (reported : stuck.report = .ok fault) :
    tree.run =
      { records :=
          [.told (.info ("Parse result: " ++ tree.render)), .error fault]
        ending := .reported } := by
  simp [run, interpret, result, reported]

/-- Every token list takes one of the courses, because what is read from it is
regular. -/
theorem course_runTokens (tokens : List Token) :
    Course tokens (runTokens tokens).events (runTokens tokens).logs
      (runTokens tokens).result := by
  unfold runTokens
  cases reading : Expr.ofTokens tokens with
  | error mismatch => exact .refused reading rfl
  | ok tree =>
      have reportable :=
        (Expr.regular_of_ofTokens reading).reportable_evaluate
      cases result : tree.evaluate with
      | ok value =>
          simp only [Expr.run_of_value result]
          exact .finished reading result
      | error stuck =>
          rw [result] at reportable
          obtain ⟨fault, reported⟩ := reportable
          simp only [Expr.run_of_fault result reported]
          exact .stuck reading result reported
            (Stuck.isOfEvaluation_of_report reported)

namespace Course

variable {tokens : List Token} {events : List Event}
  {logs : List (Stage × String)} {result : Option Value}

theorem no_warning (course : Course tokens events logs result)
    (text : String) : .warning text ∉ events := by
  cases course <;> simp

theorem countP_isError (course : Course tokens events logs result) :
    events.countP Event.isError = if result.isSome then 0 else 1 := by
  cases course <;> rfl

theorem any_isError (course : Course tokens events logs result) :
    events.any Event.isError = result.isNone := by
  cases course <;> rfl

theorem result_eq_some_iff (course : Course tokens events logs result)
    {value : Value} :
    result = some value ↔
      ∃ tree, Expr.ofTokens tokens = .ok tree ∧
        tree.evaluate = .ok value := by
  cases course with
  | refused reading => simp [reading]
  | stuck reading evaluated => simp [reading, evaluated]
  | finished reading evaluated => simp [reading, evaluated]

end Course

theorem Scan.logs_records (scan : Scan) :
    scan.records.filterMap Record.log? =
      [(.scanning, "scanned " ++ toString scan.tokens.length ++
        " tokens over " ++ toString scan.line ++ " lines")] := by
  simp [records, Record.log?, List.filterMap_map, Function.comp_def,
    Record.error]

theorem events_run (source : String) :
    (run source).events =
      (scan source).faults.map (fun fault => .error fault.message) ++
        (runTokens (scan source).tokens).events := by
  rw [run, Run.events_after, Lexis.events_records]

theorem logs_run (source : String) :
    (run source).logs =
      (.scanning, "scanned " ++ toString (scan source).tokens.length ++
        " tokens over " ++ toString (scan source).line ++ " lines") ::
        (runTokens (scan source).tokens).logs := by
  rw [run, Run.logs_after, Scan.logs_records]
  rfl

theorem countP_isError_faults (faults : List Fault) :
    (faults.map fun fault => Event.error fault.message).countP
      Event.isError = faults.length := by
  simp [List.countP_map, Function.comp_def, Event.isError]

theorem any_isError_faults (faults : List Fault) :
    (faults.map fun fault => Event.error fault.message).any
      Event.isError = !faults.isEmpty := by
  cases faults <;> simp [Event.isError]

/-- A session without errors stays so exactly when no fault of the run is
lexical and the run has a result. -/
theorem hadError_step_run (session : Session) (source : String) :
    (session.step (.run source)).session.hadError = false ↔
      session.hadError = false ∧ (run source).result.isSome ∧
        (scan source).faults = [] := by
  have course := course_runTokens (scan source).tokens
  have noted : (session.step (.run source)).session.hadError =
      (session.hadError || (run source).events.any Event.isError) := rfl
  have result : (run source).result =
      (runTokens (scan source).tokens).result := rfl
  rw [noted, events_run, List.any_append, any_isError_faults,
    course.any_isError, result]
  cases (runTokens (scan source).tokens).result <;> simp

/-- A text is read into the tree that the grammar derives from its tokens. -/
theorem ofTokens_scan_eq_ok_iff {source : String} {tree : Expr} :
    Expr.ofTokens (scan source).tokens = .ok tree ↔
      Grammar.Derives .expression
        ((Lexis.placed [] (Piece.split source.toList)).filterMap
          Lexis.tokenOf?) tree := by
  rw [Lexis.scan_eq]
  constructor
  · exact Expr.derives_of_ofTokens rfl
      (Lexis.splits_split source.toList).inner_tokens
  · exact Expr.ofTokens_of_derives rfl

theorem result_run_eq_some_iff {source : String} {value : Value} :
    (run source).result = some value ↔
      ∃ tree, Expr.ofTokens (scan source).tokens = .ok tree ∧
        tree.evaluate = .ok value :=
  (course_runTokens (scan source).tokens).result_eq_some_iff

/-- A run in any session reports its lexical faults and then takes one of the
courses.  It never warns; it reports one error for each lexical fault and one
more if it has no result; and the session holds no error afterwards exactly
when it held none before, no fault is lexical and there is a result. -/
theorem run_follows_course (session : Session) (source : String) :
    let faults := (scan source).faults
    let outcome := session.step (.run source)
    ∃ told logged result,
      Course (scan source).tokens told logged result ∧
        (∀ fault ∈ faults, ∃ line flaw, fault = .lexical line flaw) ∧
        outcome.events =
          faults.map (fun fault => .error fault.message) ++ told ∧
        outcome.records.filterMap Record.log? =
          (.scanning, "scanned " ++ toString (scan source).tokens.length ++
            " tokens over " ++ toString (scan source).line ++ " lines") ::
            logged ∧
        outcome.ending.bind Ending.value? = result ∧
        (∀ text, .warning text ∉ outcome.events) ∧
        outcome.events.countP Event.isError =
          faults.length + (if result.isSome then 0 else 1) ∧
        (outcome.session.hadError = false ↔
          session.hadError = false ∧ result.isSome ∧ faults = []) := by
  have course := course_runTokens (scan source).tokens
  have events : (session.step (.run source)).events = _ := events_run source
  refine ⟨_, _, _, course, fun fault => Lexis.lexical_of_mem_faults, events,
    logs_run source, rfl, ?_, ?_, ?_⟩
  · intro text
    simp [events, course.no_warning text]
  · rw [events, List.countP_append, countP_isError_faults,
      course.countP_isError]
  · exact hadError_step_run session source

end LoxExpr
