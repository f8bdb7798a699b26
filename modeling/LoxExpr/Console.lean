import LoxExpr.Session

/-!
# The console

What is told to a user is printed on one of two streams, errors and warnings
on the one for diagnostics and information on the one for answers.  Log
records share the stream for diagnostics.
-/

namespace LoxExpr

inductive Stream where
  | answers
  | diagnostics
deriving DecidableEq, Repr

/-- A text with the stream it is printed on. -/
structure Print where
  stream : Stream
  text : String
deriving DecidableEq, Repr

/-- All that is printed on one stream. -/
def Print.textOn (stream : Stream) (prints : List Print) : String :=
  String.join ((prints.filter (·.stream = stream)).map Print.text)

namespace Print

theorem textOn_append (stream : Stream) (earlier later : List Print) :
    textOn stream (earlier ++ later) =
      textOn stream earlier ++ textOn stream later := by
  simp [textOn]

end Print

def Event.print : Event → Print
  | .error text => ⟨.diagnostics, "Error: " ++ text ++ "\n"⟩
  | .warning text => ⟨.diagnostics, "Warning: " ++ text ++ "\n"⟩
  | .info text => ⟨.answers, "Info: " ++ text ++ "\n"⟩

/-- The line of a log record.  Further lines of its text are indented. -/
def Stage.logLine (stage : Stage) (text : String) : String :=
  let indented :=
    text.toList.flatMap fun c =>
      if c = '\n' then ['\n', ' ', ' ', ' ', ' '] else [c]
  "[DEBUG " ++ stage.target ++ "] " ++ String.ofList indented ++ "\n"

/-- Which log records are shown, by their stage and their text. -/
abbrev LogView := Stage → String → Bool

/-- What a record prints, if the log shows what `shown` selects. -/
def Record.prints (shown : LogView) : Record → List Print
  | .told event => [event.print]
  | .logged stage text =>
      if shown stage text then [⟨.diagnostics, stage.logLine text⟩] else []

/-- What a step of a session prints. -/
def Session.Outcome.prints (shown : LogView)
    (outcome : Session.Outcome) : List Print :=
  outcome.records.flatMap (Record.prints shown)

end LoxExpr
