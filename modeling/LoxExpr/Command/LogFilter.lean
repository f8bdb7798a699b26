import LoxExpr.Console
import LoxExpr.Text.Pattern.Reading

/-!
# Log filters

A filter is a list of directives, and a pattern for the texts of records if
it has one.  A directive sets the level of the log targets that begin with its
path, or of all targets if it has none.  Of the directives that apply to a
target the one with the longest path decides, and the later one of two with
paths of the same length.  Every record of the program is of the level `debug`.

A written filter lists its directives with commas between them.  A stroke may
follow, and behind it the pattern.
-/

namespace LoxExpr

/-- The levels from the most silent to the most talkative one. -/
inductive LogFilter.Level where
  | off
  | error
  | warn
  | info
  | debug
  | trace
deriving DecidableEq, Repr

structure LogFilter.Directive where
  path : Option String
  level : LogFilter.Level
deriving DecidableEq, Repr

structure LogFilter where
  directives : List LogFilter.Directive
  pattern : Option Text.Pattern

namespace LogFilter

namespace Level

def name : Level → String
  | .off => "off"
  | .error => "error"
  | .warn => "warn"
  | .info => "info"
  | .debug => "debug"
  | .trace => "trace"

def ofName? (name : String) : Option Level :=
  [off, error, warn, info, debug, trace].find? (·.name == name.toLower)

/-- Whether records of the level `debug` pass. -/
def showsDebug : Level → Bool
  | .debug => true
  | .trace => true
  | _ => false

end Level

/-- What of a written filter is passed over. -/
inductive Complaint where
  | invalid (text : String)
  | manyStrokes (text : String)
  | pattern (whole : List Char) (flaw : Text.Pattern.Flaw)
deriving DecidableEq, Repr

def Complaint.text : Complaint → String
  | .invalid text =>
      "warning: invalid logging spec '" ++ text ++ "', ignoring it\n"
  | .manyStrokes text =>
      "warning: invalid logging spec '" ++ text ++
        "', ignoring it (too many '/'s)\n"
  | .pattern whole flaw =>
      "warning: invalid regex filter - " ++ flaw.text whole ++ "\n"

namespace Directive

def appliesTo (target : String) (directive : Directive) : Bool :=
  match directive.path with
  | none => true
  | some path => target.startsWith path

/-- The length of the path; a missing path counts as an empty one. -/
def pathLength (directive : Directive) : Nat :=
  match directive.path with
  | none => 0
  | some path => path.length

/-- A directive is a level, a path, or a path with its level behind an equal
sign.  A path alone shows everything below it. -/
def ofText (text : String) : Except Complaint Directive :=
  match text.splitOn "=" with
  | [word] =>
      match Level.ofName? word with
      | some level => .ok { path := none, level := level }
      | none => .ok { path := some word, level := .trace }
  | [path, word] =>
      let word := String.ofList (Text.trim word.toList)
      if word = "" then .ok { path := some path, level := .trace }
      else
        match Level.ofName? word with
        | some level => .ok { path := some path, level := level }
        | none => .error (.invalid word)
  | _ => .error (.invalid text)

/-- The directives with one more, which takes the place of the one with the
same path. -/
def insert (directive : Directive) : List Directive → List Directive
  | [] => [directive]
  | other :: rest =>
      if other.path = directive.path then directive :: rest
      else other :: insert directive rest

end Directive

/-- The directives of a comma-separated text, or complaints in their place. -/
def readDirectives (text : String) : List (Except Complaint Directive) :=
  let parts :=
    (text.splitOn ",").map fun part => String.ofList (Text.trim part.toList)
  (parts.filter (· ≠ "")).map Directive.ofText

/-- The filter of these directives, with the complaints among them. -/
def ofDirectives (parts : List (Except Complaint Directive)) :
    LogFilter × List Complaint :=
  parts.foldl
    (fun (filter, complaints) part =>
      match part with
      | .ok directive =>
          ({ filter with
            directives := directive.insert filter.directives }, complaints)
      | .error complaint => (filter, complaints ++ [complaint]))
    ({ directives := [], pattern := none }, [])

/-- The filter that a text describes, and what is passed over in it. -/
def ofText (text : String) : LogFilter × List Complaint :=
  match text.splitOn "/" with
  | [parts] => ofDirectives (readDirectives parts)
  | [parts, pattern] =>
      let (filter, complaints) := ofDirectives (readDirectives parts)
      let whole := pattern.toList
      match Text.Pattern.ofText whole with
      | .ok pattern => ({ filter with pattern := some pattern }, complaints)
      | .error flaw => (filter, complaints ++ [.pattern whole flaw])
  | _ => ({ directives := [], pattern := none }, [.manyStrokes text])

/-- The filter with its level for all targets set. -/
def withDefault (filter : LogFilter) (level : Level) : LogFilter :=
  let directive : Directive := { path := none, level := level }
  { filter with directives := directive.insert filter.directives }

/-- The directive that decides about a target. -/
def deciding? (filter : LogFilter) (target : String) : Option Directive :=
  (filter.directives.filter (Directive.appliesTo target)).foldl
    (fun best directive =>
      match best with
      | none => some directive
      | some other =>
          if other.pathLength ≤ directive.pathLength then some directive
          else best)
    none

/-- Whether a record of this stage and text is shown. -/
def shows (filter : LogFilter) (stage : Stage) (text : String) : Bool :=
  match filter.deciding? stage.target with
  | none => false
  | some directive =>
      directive.level.showsDebug && filter.pattern.all (·.isIn text)

end LogFilter

end LoxExpr
