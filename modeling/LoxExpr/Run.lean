import LoxExpr.Expr.Evaluation
import LoxExpr.Expr.Reader
import LoxExpr.Scan

/-!
# Runs

A run takes a text through scanning, reading and evaluation.  It leaves a list
of records, which are events for the user and log records, in the order in
which they arose, and it ends with a value or without one.  Lexical faults do
not end a run; a fault of reading or evaluation does.
-/

namespace LoxExpr

/-- What a user is told. -/
inductive Event where
  | error (text : String)
  | warning (text : String)
  | info (text : String)
deriving DecidableEq, Repr

def Event.isError : Event → Bool
  | .error _ => true
  | _ => false

/-- The stage that a log record comes from. -/
inductive Stage where
  | scanning
  | reading
  | evaluation
deriving DecidableEq, Repr

/-- The name under which the records of a stage are logged. -/
def Stage.target : Stage → String
  | .scanning => "loxide::syntax::lexer"
  | .reading => "loxide::syntax::parser"
  | .evaluation => "loxide::runtime::eval"

inductive Record where
  | told (event : Event)
  | logged (stage : Stage) (text : String)
deriving DecidableEq, Repr

def Record.event? : Record → Option Event
  | .told event => some event
  | .logged _ _ => none

def Record.error (fault : Fault) : Record :=
  .told (.error fault.message)

/-- The lexical faults of a scan, and its size. -/
def Scan.records (scan : Scan) : List Record :=
  scan.faults.map Record.error ++
    [.logged .scanning
      ("scanned " ++ toString scan.tokens.length ++ " tokens over " ++
        toString scan.line ++ " lines")]

/-- How a run, or a part of it, ends. -/
inductive Ending where
  | finished (value : Value)
  | reported
  | defective (defect : Defect)

def Ending.value? : Ending → Option Value
  | .finished value => some value
  | _ => none

structure Run where
  records : List Record
  ending : Ending

namespace Run

def events (run : Run) : List Event :=
  run.records.filterMap Record.event?

def result (run : Run) : Option Value :=
  run.ending.value?

/-- The run with earlier records in front. -/
def after (run : Run) (earlier : List Record) : Run :=
  { run with records := earlier ++ run.records }

end Run

/-- What reading a token list adds to the records. -/
def Reading.records : Except Mismatch Expr → List Record
  | .ok tree => [.logged .reading ("parsed " ++ tree.render)]
  | .error mismatch => [.error mismatch.fault]

/-- The evaluation of a tree, with its records. -/
def Expr.interpret (tree : Expr) : Run :=
  match tree.evaluate with
  | .ok value =>
      { records := [.logged .evaluation ("evaluated to " ++ value.inspect)]
        ending := .finished value }
  | .error stuck =>
      match stuck.report with
      | .ok fault => { records := [.error fault], ending := .reported }
      | .error defect => { records := [], ending := .defective defect }

/-- The run of a tree: it is shown, evaluated, and its value is shown. -/
def Expr.run (tree : Expr) : Run :=
  let interpreted := tree.interpret
  let shown : List Record :=
    [.told (.info ("Parse result: " ++ tree.render))]
  let answer : List Record :=
    match interpreted.ending with
    | .finished value =>
        [.told (.info ("Run result: " ++ value.display))]
    | _ => []
  { records := shown ++ interpreted.records ++ answer
    ending := interpreted.ending }

/-- The run of a token list. -/
def runTokens (tokens : List Token) : Run :=
  let reading := Expr.ofTokens tokens
  let run : Run :=
    match reading with
    | .ok tree => tree.run
    | .error _ => { records := [], ending := .reported }
  run.after (Reading.records reading)

/-- The run of a text. -/
def run (source : String) : Run :=
  let scan := scan source
  (runTokens scan.tokens).after scan.records

end LoxExpr
