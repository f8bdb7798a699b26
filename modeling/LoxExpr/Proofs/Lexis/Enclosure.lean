import LoxExpr.Proofs.Lexis.Seam

/-!
# Enclosed texts

A text without an open string can be put between parentheses if the closing
one stands on a line of its own, and two such texts can be joined by an
operator.  The scans of the new texts are put together from those of the old
ones.
-/

namespace LoxExpr

/-- The text between parentheses, the closing one on its own line. -/
def enclosed (source : String) : String :=
  "(" ++ source ++ "\n)"

/-- Two enclosed texts with a word between them. -/
def joined (left word right : String) : String :=
  enclosed left ++ " " ++ word ++ " " ++ enclosed right

namespace Token

def opening (line : Nat) : Token :=
  { kind := .leftParen, lexeme := "(", literal := none, line := line }

def closing (line : Nat) : Token :=
  { kind := .rightParen, lexeme := ")", literal := none, line := line }

/-- An operator that is spelled like this. -/
def sign (symbol : Operator) (word : String) (line : Nat) : Token :=
  { kind := .operator symbol, lexeme := word, literal := none, line := line }

end Token

namespace Lexis

open Piece

/-- No string of the text is open at its end. -/
def Closed (source : String) : Prop :=
  ∀ line, .lexical line .unterminated ∉ (scan source).faults

theorem Closed.split {source : String} (closed : Closed source) :
    ∀ piece ∈ split source.toList,
      piece.role ≠ .flawed .unterminated := by
  intro piece member isOpen
  rw [← map_snd_placed [] (Piece.split source.toList)] at member
  obtain ⟨⟨before, text, role⟩, isPlaced, rfl⟩ := List.mem_map.mp member
  cases isOpen
  apply closed (1 + lineBreaks (before ++ text))
  rw [faults_scan]
  exact List.mem_filterMap.mpr ⟨_, isPlaced, rfl⟩

theorem toList_enclosed (source : String) :
    (enclosed source).toList = '(' :: (source.toList ++ ['\n', ')']) := by
  simp [enclosed]

theorem lineBreaks_enclosed (source : String) :
    lineBreaks (enclosed source).toList = lineBreaks source.toList + 1 := by
  simp [toList_enclosed, lineBreaks]

section Enclosed

variable {source : String} (closed : Closed source)
  (before rest : List Char)

include closed

theorem split_enclosed :
    split ((enclosed source).toList ++ rest) =
      (⟨['('], .token .leftParen none⟩ :: (split source.toList ++
        [⟨['\n'], .blank⟩, ⟨[')'], .token .rightParen none⟩])) ++
        split rest := by
  have opens (rest : List Char) : split ('(' :: rest) =
      ⟨['('], .token .leftParen none⟩ :: split rest :=
    split_symbol rfl (by decide) (fun _ => rfl) rest
  have closes (rest : List Char) : split (')' :: rest) =
      ⟨[')'], .token .rightParen none⟩ :: split rest :=
    split_symbol rfl (by decide) (fun _ => rfl) rest
  have isBlank : Blank '\n' := by decide
  rw [toList_enclosed, List.cons_append, List.append_assoc, opens,
    List.cons_append, split_append_break _ _ closed.split,
    split_blank isBlank, List.cons_append, closes]
  simp

theorem tokens_enclosed :
    contents tokenOf? before ((enclosed source).toList ++ rest) =
      Token.opening (1 + lineBreaks before) ::
        (contents tokenOf? before source.toList ++
          Token.closing (2 + lineBreaks before + lineBreaks source.toList) ::
            contents tokenOf? (before ++ (enclosed source).toList) rest) := by
  have inside : contents tokenOf? (before ++ ['(']) source.toList =
      contents tokenOf? before source.toList := by
    rw [tokens_behind, tokens_behind before]
    simp [lineBreaks]
  have openingLine : lineBreaks (before ++ ['(']) = lineBreaks before := by
    simp [lineBreaks]
  have closingLine :
      1 + lineBreaks (before ++ '(' :: (source.toList ++ ['\n', ')'])) =
        2 + lineBreaks before + lineBreaks source.toList := by
    rw [← toList_enclosed, lineBreaks_append, lineBreaks_enclosed]
    omega
  rw [contents_of_split _ _ (split_enclosed closed rest), ← inside]
  simp [placed, placed_append, flatMap_split, tokenOf?, contents,
    List.filterMap_cons, toList_enclosed, openingLine, closingLine,
    Token.opening, Token.closing]

theorem faults_enclosed :
    contents faultOf? before ((enclosed source).toList ++ rest) =
      contents faultOf? before source.toList ++
        contents faultOf? (before ++ (enclosed source).toList) rest := by
  have inside : contents faultOf? (before ++ ['(']) source.toList =
      contents faultOf? before source.toList := by
    rw [faults_behind, faults_behind before]
    simp [lineBreaks]
  rw [contents_of_split _ _ (split_enclosed closed rest), ← inside]
  simp [placed, placed_append, flatMap_split, faultOf?, contents,
    List.filterMap_cons, toList_enclosed]

end Enclosed

section Spaced

variable {word : String} {symbol : Operator}
  (isWord : (word.toList, Token.Kind.operator symbol) ∈ symbols)

include isWord

theorem lineBreaks_symbol : lineBreaks word.toList = 0 := by
  have listed : ∀ entry ∈ symbols, lineBreaks entry.1 = 0 := by decide
  exact listed _ isWord

theorem split_spaced (rest : List Char) :
    split (' ' :: (word.toList ++ ' ' :: rest)) =
      [⟨[' '], .blank⟩, ⟨word.toList, .token (.operator symbol) none⟩,
        ⟨[' '], .blank⟩] ++ split rest := by
  have isBlank : Blank ' ' := by decide
  have rule := Rule.symbol isWord
  rw [split_blank isBlank,
    rule.split_append ((Stop.of_blank isBlank).stops rest),
    split_blank isBlank]
  rfl

theorem tokens_spaced (before rest : List Char) :
    contents tokenOf? before (' ' :: (word.toList ++ ' ' :: rest)) =
      Token.sign symbol word (1 + lineBreaks before) ::
        contents tokenOf? (before ++ ' ' :: (word.toList ++ [' '])) rest := by
  have noBreak := lineBreaks_symbol isWord
  have front : lineBreaks (before ++ ' ' :: word.toList) =
      lineBreaks before := by
    simpa [lineBreaks] using noBreak
  rw [contents_of_split _ _ (split_spaced isWord rest)]
  simp [placed, tokenOf?, List.filterMap_cons, Token.sign, front]

theorem faults_spaced (before rest : List Char) :
    contents faultOf? before (' ' :: (word.toList ++ ' ' :: rest)) =
      contents faultOf? (before ++ ' ' :: (word.toList ++ [' '])) rest := by
  rw [contents_of_split _ _ (split_spaced isWord rest)]
  simp [placed, faultOf?, List.filterMap_cons]

end Spaced

section Scans

variable {left right word : String} {symbol : Operator}

theorem toList_joined (left word right : String) :
    (joined left word right).toList =
      (enclosed left).toList ++
        ' ' :: (word.toList ++ ' ' :: ((enclosed right).toList ++ [])) := by
  simp [joined]

theorem contents_nil {α : Type} (item : List Char × Piece → Option α)
    (before : List Char) : contents item before [] = [] := by
  simp [contents, split, placed]

/-- The lines in front of the right one of two joined texts. -/
theorem lineBreaks_before_right
    (isWord : (word.toList, Token.Kind.operator symbol) ∈ symbols) :
    lineBreaks ((enclosed left).toList ++ ' ' :: (word.toList ++ [' '])) =
      1 + lineBreaks left.toList := by
  have noBreak := lineBreaks_symbol isWord
  have spaced : lineBreaks (' ' :: (word.toList ++ [' '])) = 0 := by
    simpa [lineBreaks] using noBreak
  rw [lineBreaks_append, lineBreaks_enclosed, spaced]
  omega

theorem tokens_scan_enclosed (closed : Closed left) :
    (scan (enclosed left)).tokens =
      (Token.opening 1 :: (contents tokenOf? [] left.toList ++
        [Token.closing (2 + lineBreaks left.toList)])) ++
        [Token.endOfInput (2 + lineBreaks left.toList)] := by
  have tokens := tokens_enclosed closed [] []
  have lastLine : 1 + lineBreaks (enclosed left).toList =
      2 + lineBreaks left.toList := by
    rw [lineBreaks_enclosed]
    omega
  rw [List.append_nil, contents_nil] at tokens
  rw [tokens_scan, tokens, lastLine]
  rfl

theorem faults_scan_enclosed (closed : Closed left) :
    (scan (enclosed left)).faults = (scan left).faults := by
  have faults := faults_enclosed closed [] []
  rw [List.append_nil, contents_nil, List.append_nil] at faults
  rw [faults_scan, faults, faults_scan]

theorem tokens_scan_joined (leftClosed : Closed left)
    (rightClosed : Closed right)
    (isWord : (word.toList, Token.Kind.operator symbol) ∈ symbols) :
    ∃ closingLine lastLine, (scan (joined left word right)).tokens =
      ((Token.opening 1 :: (contents tokenOf? [] left.toList ++
          [Token.closing (2 + lineBreaks left.toList)])) ++
        Token.sign symbol word (2 + lineBreaks left.toList) ::
          (Token.opening (2 + lineBreaks left.toList) ::
            ((contents tokenOf? [] right.toList).map
              (Token.raise (1 + lineBreaks left.toList)) ++
              [Token.closing closingLine]))) ++
        [Token.endOfInput lastLine] := by
  have signLine : 1 + lineBreaks (enclosed left).toList =
      2 + lineBreaks left.toList := by
    rw [lineBreaks_enclosed]
    omega
  have openingLine : 1 + (1 + lineBreaks left.toList) =
      2 + lineBreaks left.toList := by omega
  rw [tokens_scan, toList_joined, tokens_enclosed leftClosed,
    tokens_spaced isWord, tokens_enclosed rightClosed, contents_nil,
    tokens_behind _ right.toList, List.nil_append, signLine,
    lineBreaks_before_right isWord, openingLine]
  simp only [List.cons_append, List.append_assoc]
  exact ⟨_, _, rfl⟩

theorem faults_scan_joined (leftClosed : Closed left)
    (rightClosed : Closed right)
    (isWord : (word.toList, Token.Kind.operator symbol) ∈ symbols) :
    (scan (joined left word right)).faults =
      (scan left).faults ++ (scan right).faults.map
        (Fault.raise (1 + lineBreaks left.toList)) := by
  rw [faults_scan, toList_joined, faults_enclosed leftClosed,
    faults_spaced isWord, faults_enclosed rightClosed, contents_nil,
    List.append_nil, faults_behind _ right.toList, List.nil_append,
    lineBreaks_before_right isWord, faults_scan, faults_scan]

end Scans

end Lexis

end LoxExpr
