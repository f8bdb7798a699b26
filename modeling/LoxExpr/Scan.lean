import LoxExpr.Piece

/-!
# Scans

A scan is what a text amounts to for the grammar: its tokens, closed by the
token for the end of input, the faults of its flawed pieces, and its number of
lines.  A token or a fault carries the line on which its piece ends.  A scanner
delivers the same items one at a time and can be asked for the rest at any
moment.
-/

namespace LoxExpr

namespace Piece

/-- The line on which a piece ends that begins on line `line`. -/
def endLine (line : Nat) (piece : Piece) : Nat :=
  line + lineBreaks piece.text

/-- The token or the fault of a piece that begins on line `line`. -/
def item? (line : Nat) (piece : Piece) : Option (Except Fault Token) :=
  match piece.role with
  | .blank => none
  | .token kind literal =>
      some (.ok
        { kind := kind
          lexeme := String.ofList piece.text
          literal := literal
          line := piece.endLine line })
  | .flawed flaw => some (.error (.lexical (piece.endLine line) flaw))

end Piece

structure Scan where
  tokens : List Token
  faults : List Fault
  line : Nat

namespace Scan

/-- The scan of an empty rest. -/
def finish (line : Nat) : Scan :=
  { tokens := [Token.endOfInput line], faults := [], line := line }

/-- The scan with one more item in front. -/
def push (scan : Scan) : Option (Except Fault Token) → Scan
  | none => scan
  | some (.ok token) => { scan with tokens := token :: scan.tokens }
  | some (.error fault) => { scan with faults := fault :: scan.faults }

def ofPieces (line : Nat) : List Piece → Scan
  | [] => finish line
  | piece :: rest =>
      (ofPieces (piece.endLine line) rest).push (piece.item? line)

theorem line_push (scan : Scan) (item : Option (Except Fault Token)) :
    (scan.push item).line = scan.line := by
  rcases item with _ | (fault | token) <;> rfl

/-- The last line is the first one plus the line breaks in between. -/
theorem line_ofPieces (line : Nat) (pieces : List Piece) :
    (ofPieces line pieces).line =
      line + Piece.lineBreaks (pieces.flatMap Piece.text) := by
  induction pieces generalizing line with
  | nil => rfl
  | cons piece rest induction =>
      rw [ofPieces, line_push, induction, List.flatMap_cons,
        Piece.lineBreaks_append, Piece.endLine, Nat.add_assoc]

theorem getLast?_push {scan : Scan} (nonempty : scan.tokens ≠ [])
    (item : Option (Except Fault Token)) :
    (scan.push item).tokens.getLast? = scan.tokens.getLast? := by
  rcases item with _ | (fault | token)
  · rfl
  · rfl
  · exact List.getLast?_cons_of_ne_nil nonempty

theorem tokens_push_ne_nil {scan : Scan} (nonempty : scan.tokens ≠ [])
    (item : Option (Except Fault Token)) :
    (scan.push item).tokens ≠ [] := by
  rcases item with _ | (fault | token)
  · exact nonempty
  · exact nonempty
  · exact List.cons_ne_nil _ _

theorem tokens_ofPieces_ne_nil (line : Nat) (pieces : List Piece) :
    (ofPieces line pieces).tokens ≠ [] := by
  induction pieces generalizing line with
  | nil => exact List.cons_ne_nil _ _
  | cons piece rest induction =>
      exact tokens_push_ne_nil (induction _) _

/-- A scan ends with the token for the end of input, on its last line. -/
theorem getLast?_ofPieces (line : Nat) (pieces : List Piece) :
    (ofPieces line pieces).tokens.getLast? =
      some (Token.endOfInput (ofPieces line pieces).line) := by
  induction pieces generalizing line with
  | nil => rfl
  | cons piece rest induction =>
      rw [ofPieces, getLast?_push (tokens_ofPieces_ne_nil _ _), line_push]
      exact induction _

end Scan

/-- A text that is being scanned: what is left of it, and the line on which
that begins. -/
structure Scanner where
  rest : List Char
  line : Nat

namespace Scanner

def ofSource (source : String) : Scanner :=
  { rest := source.toList, line := 1 }

/-- The first token or fault of a text that begins on line `line`, if any,
and the scanner behind it. -/
def nextOf (line : Nat) :
    List Char → Option (Except Fault Token) × Scanner
  | [] => (none, { rest := [], line := line })
  | head :: tail =>
      let piece := (Piece.cut head tail).1
      let rest := (Piece.cut head tail).2
      match piece.item? line with
      | some item => (some item, { rest := rest, line := piece.endLine line })
      | none => nextOf (piece.endLine line) rest
termination_by text => text.length
decreasing_by exact Piece.length_cut_rest head tail

def next (scanner : Scanner) : Option (Except Fault Token) × Scanner :=
  nextOf scanner.line scanner.rest

/-- The scan of everything that is left. -/
def scan (scanner : Scanner) : Scan :=
  Scan.ofPieces scanner.line (Piece.split scanner.rest)

/-- The items of `count` steps, and the scanner behind them. -/
def take : Nat → Scanner → List (Option (Except Fault Token)) × Scanner
  | 0, scanner => ([], scanner)
  | count + 1, scanner =>
      let (item, behind) := scanner.next
      let (items, last) := take count behind
      (item :: items, last)

end Scanner

/-- The scan of a whole text. -/
def scan (source : String) : Scan :=
  (Scanner.ofSource source).scan

theorem line_scan (source : String) :
    (scan source).line = 1 + Piece.lineBreaks source.toList := by
  rw [scan, Scanner.scan, Scan.line_ofPieces, Piece.flatMap_split]
  rfl

end LoxExpr
