import LoxExpr.Command.Program

/-!
# The command line

The outer layer of the program: it reads arguments, environment, files and
standard input, and prints what the library answers.
-/

namespace LoxExpr

namespace Main

def emit (print : Print) : IO Unit := do
  match print.stream with
  | .answers => (← IO.getStdout).putStr print.text
  | .diagnostics => (← IO.getStderr).putStr print.text

def finish (report : Report) : IO UInt32 := do
  report.prints.forM emit
  return report.code.toUInt32

/-- The bytes of the next line of standard input; none at its end. -/
partial def readLine (line : ByteArray) : IO ByteArray := do
  let byte ← (← IO.getStdin).read 1
  let line := line ++ byte
  if byte.isEmpty || byte.toList == [10] then return line
  else readLine line

def writePrompt : IO (Option WriteFault) := do
  try
    let out ← IO.getStdout
    out.putStr Prompt.text
    out.flush
    return none
  catch _ => return some .noSpace

partial def converse (shown : LogView) (session : Session) :
    IO Unit := do
  match ← writePrompt with
  | some fault => emit (Prompt.writeComplaint fault)
  | none =>
      let line ← readLine ByteArray.empty
      if line.isEmpty then return
      let (prints, next) := Prompt.respond shown session line.toList
      prints.forM emit
      match next with
      | none => return
      | some session => converse shown session

def systemReason (code : UInt32) (details : String) : String :=
  details ++ " (os error " ++ toString code ++ ")"

def readFault : IO.Error → ReadFault
  | .noFileOrDirectory .. => .missing
  | .inappropriateType _ code _ =>
      if code = 21 then .directory else .notDirectory
  | .permissionDenied _ code details => .other (systemReason code details)
  | .invalidArgument _ code details => .other (systemReason code details)
  | error => .other (toString error)

def readFile (name : String) : IO (Except ReadFault ByteArray) := do
  try
    return .ok (← IO.FS.readBinFile name)
  catch error => return .error (readFault error)

def start (arguments : List String) : IO UInt32 := do
  match Program.plan arguments (← IO.getEnv "RUST_LOG") with
  | .finish report => finish report
  | .runFile log name =>
      let report := Program.fileReport log.shown name (← readFile name)
      finish (report.after log.warnings)
  | .converse log =>
      log.warnings.forM emit
      converse log.shown .start
      return 0

end Main

end LoxExpr

def main (arguments : List String) : IO UInt32 :=
  LoxExpr.Main.start arguments
