import LoxExpr.Token

/-!
# Faults

A fault is what a diagnostic reports as an error.  There are four kinds, one
for each way in which a text fails to have a value: a piece of it is no token,
its tokens form no expression, an operator rejects its operands, or a
construct has no meaning here.
-/

namespace LoxExpr

/-- Why a piece of a text is no token. -/
inductive Flaw where
  | unexpected (character : Char)
  | unterminated
deriving DecidableEq, Repr

def Flaw.detail : Flaw → String
  | .unexpected character =>
      "Unexpected character '" ++ String.singleton character ++ "'."
  | .unterminated => "Unterminated string at end of input."

inductive Fault where
  | lexical (line : Nat) (flaw : Flaw)
  | grammatical (line : Nat) (place detail : String)
  | runtime (line : Nat) (place detail : String)
  | unsupported (line : Nat) (place feature : String)
deriving DecidableEq, Repr

namespace Fault

def line : Fault → Nat
  | .lexical line _ => line
  | .grammatical line _ _ => line
  | .runtime line _ _ => line
  | .unsupported line _ _ => line

/-- The place that a fault names; a lexical fault has only its line. -/
def place? : Fault → Option String
  | .lexical _ _ => none
  | .grammatical _ place _ => some place
  | .runtime _ place _ => some place
  | .unsupported _ place _ => some place

def detail : Fault → String
  | .lexical _ flaw => flaw.detail
  | .grammatical _ _ detail => detail
  | .runtime _ _ detail => detail
  | .unsupported _ _ feature => feature

/-- The line of text that reports a fault. -/
def message (fault : Fault) : String :=
  let start := "Line " ++ toString fault.line ++ ": " ++ fault.detail
  match fault with
  | .lexical _ _ => start
  | .grammatical _ place _ => start ++ " at " ++ place
  | .runtime _ place _ => start ++ " at " ++ place
  | .unsupported _ place _ => start ++ " is not supported at " ++ place

end Fault

namespace Token

def grammaticalFault (token : Token) (detail : String) : Fault :=
  .grammatical token.line token.place detail

def runtimeFault (token : Token) (detail : String) : Fault :=
  .runtime token.line token.place detail

def unsupportedFault (token : Token) (feature : String) : Fault :=
  .unsupported token.line token.place feature

end Token

end LoxExpr
