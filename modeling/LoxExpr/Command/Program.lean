import LoxExpr.Command.LogFilter
import LoxExpr.Command.Options
import LoxExpr.Command.Prompt

/-!
# The program

The arguments decide between a file and a conversation.  The exit code tells
whether a file could be run (0), could not be read (1), held an error (65), or
whether the arguments were refused (2).
-/

namespace LoxExpr

/-- Why a file cannot be read. -/
inductive ReadFault where
  | missing
  | directory
  | notDirectory
  | notText
  | other (reason : String)
deriving DecidableEq, Repr

def ReadFault.reason : ReadFault → String
  | .missing => "No such file or directory (os error 2)"
  | .directory => "Is a directory (os error 21)"
  | .notDirectory => "Not a directory (os error 20)"
  | .notText => "stream did not contain valid UTF-8"
  | .other reason => reason

/-- What the program prints, and its exit code. -/
structure Report where
  prints : List Print
  code : Nat
deriving DecidableEq, Repr

/-- A report with earlier prints in front. -/
def Report.after (earlier : List Print) (report : Report) : Report :=
  { report with prints := earlier ++ report.prints }

namespace Program

/-- How the log is kept: which records are shown, and what is printed ahead of
all else about its settings. -/
structure Log where
  warnings : List Print
  shown : LogView

/-- What the arguments and the log settings amount to. -/
inductive Plan where
  | finish (report : Report)
  | runFile (log : Log) (name : String)
  | converse (log : Log)

/-- The log for a setting.  Verbose output shows all stages for which the
setting has no level of their own. -/
def log (verbose : Bool) (setting : Option String) : Log :=
  let (filter, complaints) := LogFilter.ofText (setting.getD "")
  let filter := if verbose then filter.withDefault .debug else filter
  { warnings := complaints.map fun complaint =>
      ⟨.diagnostics, complaint.text⟩
    shown := filter.shows }

def plan (arguments : List String) (logSetting : Option String) : Plan :=
  match Options.ofArguments arguments with
  | .help => .finish { prints := [⟨.answers, Options.helpText⟩], code := 0 }
  | .refuse refusal =>
      .finish { prints := [⟨.diagnostics, refusal.text⟩], code := 2 }
  | .start options =>
      let log := log options.verbose logSetting
      match options.file with
      | some name => .runFile log name
      | none => .converse log

/-- The text of a file, from its bytes. -/
def decode (content : Except ReadFault ByteArray) : Except ReadFault String :=
  match content with
  | .error fault => .error fault
  | .ok bytes =>
      match String.fromUTF8? bytes with
      | some source => .ok source
      | none => .error .notText

/-- The report on a file with this text. -/
def sourceReport (shown : LogView) (source : String) : Report :=
  let outcome := Session.start.step (.run source)
  { prints := outcome.prints shown
    code := if outcome.session.hadError then 65 else 0 }

/-- The report on a file of this name and content. -/
def fileReport (shown : LogView) (name : String)
    (content : Except ReadFault ByteArray) : Report :=
  match decode content with
  | .ok source => sourceReport shown source
  | .error fault =>
      let complaint :=
        "Failed to read " ++ Text.quoted name ++ ": " ++ fault.reason ++ "\n"
      { prints := [⟨.diagnostics, complaint⟩], code := 1 }

/-- The report on a conversation with this input.  If the stream for answers
takes nothing, no line is read. -/
def promptReport (shown : LogView) (refusal : Option WriteFault)
    (input : List UInt8) : Report :=
  match refusal with
  | some fault => { prints := [Prompt.writeComplaint fault], code := 0 }
  | none =>
      let turns := Prompt.turns shown .start (Prompt.lines input)
      { prints := turns.flatMap Prompt.Turn.prints, code := 0 }

end Program

end LoxExpr
