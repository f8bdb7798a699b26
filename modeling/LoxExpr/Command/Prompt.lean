import LoxExpr.Console
import LoxExpr.Text.Blank

/-!
# The prompt

Without a file the program converses: it writes a prompt, reads a line, runs
it without the blanks at its end, and starts again.  Every line is a program
of its own; a line of blanks is none.  The conversation ends with the input,
with a line that is not UTF-8, or when the prompt cannot be written.
-/

namespace LoxExpr

/-- Why something cannot be written. -/
inductive WriteFault where
  | noProgress
  | closed
  | noSpace
deriving DecidableEq, Repr

def WriteFault.reason : WriteFault → String
  | .noProgress => "failed to write whole buffer"
  | .closed => "closed"
  | .noSpace => "No space left on device (os error 28)"

/-- A place to write to.  It takes `room` bytes, or any number of them, and
refuses more; handing on what it took may fail as well. -/
structure Outlet where
  room : Option Nat
  refusal : WriteFault
  flushFault : Option WriteFault
deriving DecidableEq, Repr

namespace Prompt

def text : String :=
  "> "

/-- What arrives of the prompt at an outlet, and the fault if it does not
arrive as a whole. -/
def write (outlet : Outlet) : String × Option WriteFault :=
  match outlet.room with
  | none => (text, outlet.flushFault)
  | some room =>
      if room < text.utf8ByteSize then
        (String.ofList (text.toList.take room), some outlet.refusal)
      else (text, outlet.flushFault)

/-- The lines of an input, each with its line break; the last one may lack
it. -/
def lines : List UInt8 → List (List UInt8)
  | [] => []
  | byte :: rest =>
      if byte = 10 then [byte] :: lines rest
      else
        match lines rest with
        | [] => [[byte]]
        | line :: later => (byte :: line) :: later

/-- The text of a line, if it is UTF-8. -/
def decode? (line : List UInt8) : Option String :=
  String.fromUTF8? (ByteArray.mk line.toArray)

/-- The steps that a line asks for.  Whatever it was, the session forgets its
errors afterwards. -/
def steps (line : String) : List Session.Step :=
  let source := Text.trimEnd line.toList
  if source.isEmpty then [.reset]
  else [.run (String.ofList source), .reset]

def writeComplaint (fault : WriteFault) : Print :=
  ⟨.diagnostics, "Failed to write prompt: " ++ fault.reason ++ "\n"⟩

def readComplaint : Print :=
  ⟨.diagnostics,
    "Failed to read input: stream did not contain valid UTF-8\n"⟩

/-- What is printed in answer to one line, and the session with which the
conversation goes on, if it does. -/
def respond (shown : LogView) (session : Session) (line : List UInt8) :
    List Print × Option Session :=
  match decode? line with
  | none => ([readComplaint], none)
  | some source =>
      let outcomes := session.steps (steps source)
      (outcomes.flatMap (Session.Outcome.prints shown),
        some (session.afterOutcomes outcomes))

/-- One prompt of a conversation: the session when it is written, and what is
printed up to the next one. -/
structure Turn where
  session : Session
  prints : List Print
deriving DecidableEq, Repr

/-- All turns of a conversation in which these lines follow. -/
def turns (shown : LogView) (session : Session) :
    List (List UInt8) → List Turn
  | [] => [⟨session, [⟨.answers, text⟩]⟩]
  | line :: later =>
      let (prints, next) := respond shown session line
      ⟨session, ⟨.answers, text⟩ :: prints⟩ ::
        match next with
        | none => []
        | some session => turns shown session later

end Prompt

end LoxExpr
