import LoxExpr.Text.Similarity
import LoxExpr.Text.Visible

/-!
# Command-line arguments

The program takes one file and one flag, and explains itself on request.
Arguments are looked at from left to right, and the first one that cannot be
accepted decides what the user is told.  A file name is accepted only when the
next flag, or the end, is reached.
-/

namespace LoxExpr

/-- A well-formed command line. -/
structure Options where
  verbose : Bool
  file : Option String
deriving DecidableEq, Repr

namespace Options

inductive Flag where
  | verbose
  | help
deriving DecidableEq, Repr

def Flag.name : Flag → String
  | .verbose => "verbose"
  | .help => "help"

def Flag.ofName? (name : String) : Option Flag :=
  [Flag.verbose, .help].find? (·.name == name)

def Flag.ofLetter? : Char → Option Flag
  | 'v' => some .verbose
  | 'h' => some .help
  | _ => none

/-- The flag whose name resembles an unknown one most, if one resembles it at
all, and the last one of equals. -/
def Flag.resembling? (name : String) : Option Flag :=
  let likeness (flag : Flag) := Text.similarity name flag.name
  let similar := [Flag.verbose, .help].filter fun flag => likeness flag > 0.7
  similar.foldl
    (fun best flag =>
      match best with
      | none => some flag
      | some other =>
          if likeness other ≤ likeness flag then some flag else best)
    none

/-- What a pattern of use says about the file: it may follow, it was given, or
the file and the flag for verbose output are named together. -/
inductive Usage.Place where
  | optional
  | given
  | joint
deriving DecidableEq, Repr

def Usage.Place.text : Usage.Place → String
  | .optional => "[FILE]"
  | .given => "<FILE>"
  | .joint => "<FILE|--verbose>"

/-- A pattern of correct use, fitted to the arguments that were accepted. -/
structure Usage where
  flags : List Flag
  file : Usage.Place
deriving DecidableEq, Repr

/-- The pattern when nothing was accepted. -/
def Usage.general : Usage :=
  { flags := [], file := .optional }

def Usage.text (usage : Usage) : String :=
  if usage = .general then "loxide [OPTIONS] [FILE]"
  else
    "loxide" ++ String.join (usage.flags.map fun flag => " --" ++ flag.name) ++
      " " ++ usage.file.text

inductive Tip where
  | similar (flag : Flag)
  | escape (argument : String)
deriving DecidableEq, Repr

/-- The text of a tip, in which arguments appear as a terminal shows them. -/
def Tip.text : Tip → String
  | .similar flag => "a similar argument exists: '--" ++ flag.name ++ "'"
  | .escape argument =>
      let argument := Text.visible argument
      "to pass '" ++ argument ++ "' as a value, use '-- " ++ argument ++ "'"

/-- Why a command line is refused. -/
inductive Refusal where
  | unexpected (argument : String) (tip : Option Tip) (usage : Usage)
  | needlessValue (value : String) (flag : Flag) (usage : Usage)
  | repeated (flag : Flag)
  | emptyFile
deriving DecidableEq, Repr

namespace Refusal

/-- The reason, in which arguments appear as a terminal shows them. -/
def summary : Refusal → String
  | .unexpected argument _ _ =>
      "unexpected argument '" ++ Text.visible argument ++ "' found"
  | .needlessValue value flag _ =>
      "unexpected value '" ++ Text.visible value ++ "' for '--" ++
        flag.name ++ "' found; no more were expected"
  | .repeated flag =>
      "the argument '--" ++ flag.name ++ "' cannot be used multiple times"
  | .emptyFile => "a value is required for '[FILE]' but none was supplied"

def tip? : Refusal → Option Tip
  | .unexpected _ tip _ => tip
  | _ => none

def usage? : Refusal → Option Usage
  | .unexpected _ _ usage => some usage
  | .needlessValue _ _ usage => some usage
  | .repeated _ => some .general
  | .emptyFile => none

/-- What the user is told, paragraph by paragraph. -/
def text (refusal : Refusal) : String :=
  "error: " ++ refusal.summary ++ "\n\n" ++
    (refusal.tip?.elim "" fun tip => "  tip: " ++ tip.text ++ "\n\n") ++
    (refusal.usage?.elim "" fun usage => "Usage: " ++ usage.text ++ "\n\n") ++
    "For more information, try '--help'.\n"

end Refusal

def helpText : String :=
  "Lexer, parser and tree-walking evaluator for Lox expressions\n\n" ++
  "Usage: " ++ Usage.general.text ++ "\n\n" ++
  "Arguments:\n" ++
  "  [FILE]  Script to evaluate. " ++
  "Starts an interactive prompt when omitted\n\n" ++
  "Options:\n" ++
  "  -v, --verbose  Enable debug logging of every pipeline stage\n" ++
  "  -h, --help     Print help\n"

/-- What a command line asks for. -/
inductive Request where
  | start (options : Options)
  | help
  | refuse (refusal : Refusal)
deriving DecidableEq, Repr

/-- The arguments that have been read so far.  A file name stays pending until
a flag or the end follows it. -/
structure Progress where
  verbose : Bool
  file : Option String
  isPending : Bool
deriving DecidableEq, Repr

namespace Progress

def start : Progress :=
  { verbose := false, file := none, isPending := false }

/-- Accepts a pending file name, unless it is empty. -/
def settle (progress : Progress) : Except Refusal Progress :=
  if progress.isPending && progress.file = some "" then .error .emptyFile
  else .ok { progress with isPending := false }

/-- The usage pattern after these arguments and one more flag. -/
def usage (progress : Progress) (flag : Option Flag) : Usage :=
  let seen := if progress.verbose then [Flag.verbose] else []
  let added := flag.toList.filter fun flag => !seen.contains flag
  { flags := seen ++ added
    file :=
      if progress.file.isSome && !progress.isPending then .given
      else .optional }

/-- The usage pattern for a flag that was given a value.  Once output is
verbose the file and that flag are named together, and neither alone. -/
def valueUsage (progress : Progress) (flag : Flag) : Usage :=
  if progress.verbose then
    { flags := [flag].filter (· ≠ .verbose), file := .joint }
  else progress.usage (some flag)

/-- Reads a known flag; a call for help ends the reading at once. -/
def addFlag (progress : Progress) (flag : Flag) : Except Request Progress :=
  match progress.settle with
  | .error refusal => .error (.refuse refusal)
  | .ok settled =>
      match flag with
      | .help => .error .help
      | .verbose =>
          if settled.verbose then .error (.refuse (.repeated .verbose))
          else .ok { settled with verbose := true }

def addFile (progress : Progress) (name : String) :
    Except Request Progress :=
  match progress.file with
  | some _ => .error (.refuse (.unexpected name none .general))
  | none => .ok { progress with file := some name, isPending := true }

/-- Reads the letters behind a single hyphen. -/
def addLetters (progress : Progress) : List Char → Except Request Progress
  | [] => .ok progress
  | letter :: rest =>
      match Flag.ofLetter? letter with
      | some flag =>
          match progress.addFlag flag with
          | .ok later => later.addLetters rest
          | .error request => .error request
      | none =>
          let argument := String.ofList ['-', letter]
          .error (.refuse
            (.unexpected argument (some (.escape argument)) .general))

/-- Reads the word behind two hyphens; it may have a value behind an equal
sign. -/
def addWord (progress : Progress) (word : List Char) :
    Except Request Progress :=
  let name := String.ofList (word.takeWhile (· != '='))
  match Flag.ofName? name, word.dropWhile (· != '=') with
  | some flag, [] => progress.addFlag flag
  | some flag, _ :: value =>
      .error (.refuse (.needlessValue (String.ofList value) flag
        (progress.valueUsage flag)))
  | none, _ =>
      let argument := "--" ++ name
      let similar := Flag.resembling? name
      let tip :=
        match similar with
        | some flag => Tip.similar flag
        | none => Tip.escape argument
      .error (.refuse (.unexpected argument (some tip)
        ({ progress with isPending := false }.usage similar)))

/-- Reads one argument while flags are still allowed. -/
def add (progress : Progress) (argument : String) :
    Except Request Progress :=
  match argument.toList with
  | '-' :: '-' :: word => progress.addWord word
  | '-' :: letter :: letters => progress.addLetters (letter :: letters)
  | _ => progress.addFile argument

def finish (progress : Progress) : Request :=
  match progress.settle with
  | .error refusal => .refuse refusal
  | .ok settled => .start { verbose := settled.verbose, file := settled.file }

/-- Reads the arguments behind a double hyphen, all of which are files. -/
def addFiles (progress : Progress) : List String → Request
  | [] => progress.finish
  | name :: rest =>
      match progress.addFile name with
      | .ok later => later.addFiles rest
      | .error request => request

def addAll (progress : Progress) : List String → Request
  | [] => progress.finish
  | argument :: rest =>
      if argument = "--" then progress.addFiles rest
      else
        match progress.add argument with
        | .ok later => later.addAll rest
        | .error request => request

end Progress

/-- What a list of arguments asks for. -/
def ofArguments (arguments : List String) : Request :=
  Progress.start.addAll arguments

end Options

end LoxExpr
