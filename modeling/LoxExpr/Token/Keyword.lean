/-!
# Keywords

Sixteen words are reserved.  Only `true`, `false` and `nil` have a meaning in
an expression; the others are kept apart from identifiers.
-/

namespace LoxExpr

inductive Keyword where
  | andWord
  | classWord
  | elseWord
  | falseWord
  | forWord
  | funWord
  | ifWord
  | nilWord
  | orWord
  | printWord
  | returnWord
  | superWord
  | thisWord
  | trueWord
  | varWord
  | whileWord
deriving DecidableEq, Repr

namespace Keyword

def word : Keyword → String
  | .andWord => "and"
  | .classWord => "class"
  | .elseWord => "else"
  | .falseWord => "false"
  | .forWord => "for"
  | .funWord => "fun"
  | .ifWord => "if"
  | .nilWord => "nil"
  | .orWord => "or"
  | .printWord => "print"
  | .returnWord => "return"
  | .superWord => "super"
  | .thisWord => "this"
  | .trueWord => "true"
  | .varWord => "var"
  | .whileWord => "while"

def all : List Keyword :=
  [.andWord, .classWord, .elseWord, .falseWord, .forWord, .funWord, .ifWord,
    .nilWord, .orWord, .printWord, .returnWord, .superWord, .thisWord,
    .trueWord, .varWord, .whileWord]

/-- The keyword that is spelled like this, if there is one. -/
def ofWord? (word : String) : Option Keyword :=
  all.find? (·.word == word)

/-- The name of a keyword in diagnostics about malformed trees. -/
def name (keyword : Keyword) : String :=
  keyword.word.capitalize

theorem mem_all (keyword : Keyword) : keyword ∈ all := by
  cases keyword <;> decide

theorem ofWord?_eq_some_iff {word : String} {keyword : Keyword} :
    ofWord? word = some keyword ↔ keyword.word = word := by
  constructor
  · intro found
    simpa using List.find?_some found
  · rintro rfl
    cases keyword <;> decide

end Keyword

end LoxExpr
