import LoxExpr.Proofs.Lexis.Seam

/-!
# Spacing

What stands between the lexemes of a text has no meaning of its own.  Tokens
can be taken out of their text and their lexemes laid out anew, with other
blanks and comments around them.  As long as a blank follows each token, the
new text is scanned to the same tokens, and without a fault.  The flawed pieces
of the old text are left behind with its blanks.
-/

namespace LoxExpr

/-- The token on another line. -/
def Token.onLine (line : Nat) (token : Token) : Token :=
  { token with line := line }

namespace Lexis

open Piece

/-- Blanks and comments in any order, each comment with its line break. -/
inductive Trivia : List Char → Prop where
  | nil : Trivia []
  | blank {c : Char} {rest : List Char} :
      Blank c → Trivia rest → Trivia (c :: rest)
  | comment {body rest : List Char} :
      (∀ c ∈ body, c ≠ '\n') → Trivia rest →
      Trivia ('/' :: '/' :: (body ++ '\n' :: rest))

/-- At the end of a text the last comment needs no line break. -/
inductive FinalTrivia : List Char → Prop where
  | closed {text : List Char} : Trivia text → FinalTrivia text
  | comment {text body : List Char} :
      Trivia text → (∀ c ∈ body, c ≠ '\n') →
      FinalTrivia (text ++ '/' :: '/' :: body)

def StartsBlank (text : List Char) : Prop :=
  ∃ c rest, text = c :: rest ∧ Blank c

/-- What may stand behind a token, if these lexemes are still to come. -/
inductive LaidBehind : List String → List Char → Prop where
  | last {ending : List Char} :
      FinalTrivia ending → ending = [] ∨ StartsBlank ending →
      LaidBehind [] ending
  | next {gap text : List Char} {lexeme : String} {lexemes : List String} :
      Trivia gap → StartsBlank gap → LaidBehind lexemes text →
      LaidBehind (lexeme :: lexemes) (gap ++ (lexeme.toList ++ text))

/-- A text that consists of these lexemes and of trivia around them. -/
inductive LaidOut : List String → List Char → Prop where
  | nothing {text : List Char} : FinalTrivia text → LaidOut [] text
  | lexemes {leading text : List Char} {lexeme : String}
      {lexemes : List String} :
      Trivia leading → LaidBehind lexemes text →
      LaidOut (lexeme :: lexemes) (leading ++ (lexeme.toList ++ text))

/-- The lexeme of a token is a word of the rule for its kind and literal. -/
def Spelled (token : Token) : Prop :=
  Rule token.lexeme.toList (.token token.kind token.literal)

/-- The token of a piece, as if it stood on this line. -/
def tokenOn? (line : Nat) : Piece → Option Token
  | ⟨text, .token kind literal⟩ =>
      some
        { kind := kind
          lexeme := String.ofList text
          literal := literal
          line := line }
  | _ => none

theorem tokenOn?_of_blank {piece : Piece} (blank : piece.role = .blank)
    (line : Nat) : tokenOn? line piece = none := by
  obtain ⟨text, role⟩ := piece
  cases blank
  rfl

theorem map_onLine_tokens (line : Nat) (before : List Char)
    (pieces : List Piece) :
    ((placed before pieces).filterMap tokenOf?).map (Token.onLine line) =
      pieces.filterMap (tokenOn? line) := by
  have placedOn (entry : List Char × Piece) :
      (tokenOf? entry).map (Token.onLine line) = tokenOn? line entry.2 := by
    obtain ⟨before, text, role⟩ := entry
    cases role <;> rfl
  have numbered : pieces.filterMap (tokenOn? line) =
      ((placed before pieces).map Prod.snd).filterMap (tokenOn? line) := by
    rw [map_snd_placed]
  rw [numbered, List.filterMap_map, List.map_filterMap, funext placedOn]
  rfl

theorem spelled_of_mem_tokens {before text : List Char} {token : Token}
    (member : token ∈ contents tokenOf? before text) : Spelled token := by
  obtain ⟨⟨front, word, role⟩, isPlaced, found⟩ :=
    List.mem_filterMap.mp member
  cases role with
  | token kind literal =>
      cases found
      have rule := (splits_split text).rule_of_token
        (mem_of_mem_placed isPlaced) rfl
      simpa [Spelled] using rule
  | _ => cases found

/-- All pieces of the text are words of rules, and their tokens are these ones
if lines do not count. -/
structure Reads (text : List Char) (tokens : List Token) : Prop where
  rules : ∀ piece ∈ split text, Rule piece.text piece.role
  tokens : ∀ line, (split text).filterMap (tokenOn? line) =
    tokens.map (Token.onLine line)

namespace Reads

variable {text : List Char} {tokens : List Token}

theorem nil : Reads [] [] := by
  constructor <;> simp [split]

/-- Pieces that are no tokens leave the tokens of the rest. -/
theorem behind_blanks {rest : List Char} {pieces : List Piece}
    (cuts : split text = pieces ++ split rest)
    (blanks : ∀ piece ∈ pieces, Rule piece.text piece.role ∧
      piece.role = .blank)
    (reads : Reads rest tokens) : Reads text tokens := by
  constructor
  · intro piece member
    rw [cuts] at member
    rcases List.mem_append.mp member with inFront | behind
    · exact (blanks piece inFront).1
    · exact reads.rules piece behind
  · intro line
    have noToken : pieces.filterMap (tokenOn? line) = [] := by
      rw [List.filterMap_eq_nil_iff]
      intro piece member
      exact tokenOn?_of_blank (blanks piece member).2 line
    rw [cuts, List.filterMap_append, noToken, List.nil_append,
      reads.tokens line]

theorem blank {c : Char} (isBlank : Blank c) (reads : Reads text tokens) :
    Reads (c :: text) tokens := by
  have cuts : split (c :: text) = [⟨[c], .blank⟩] ++ split text :=
    split_blank isBlank text
  apply reads.behind_blanks cuts
  intro piece member
  cases List.mem_singleton.mp member
  exact ⟨.blank isBlank, rfl⟩

/-- A comment reaches to the end of the line or of the text. -/
theorem comment {body : List Char} (inner : ∀ c ∈ body, c ≠ '\n')
    (ends : ∀ c ∈ text.head?, c = '\n') (reads : Reads text tokens) :
    Reads ('/' :: '/' :: (body ++ text)) tokens := by
  have inside : ∀ c ∈ body, (c != '\n') = true := by simpa using inner
  have taken : (body ++ text).takeWhile (· != '\n') = body := by
    cases text with
    | nil => rw [List.append_nil, List.takeWhile_eq_self_iff.mpr inside]
    | cons c text =>
        cases ends c rfl
        exact takeWhile_append_cons inside rfl
  have whole := cut_text '/' ('/' :: (body ++ text))
  have piece : (cut '/' ('/' :: (body ++ text))).1 =
      ⟨'/' :: '/' :: body, .blank⟩ := by
    rw [cut_slashes]
    simp [cutComment, taken]
  rw [piece] at whole
  have rest : (cut '/' ('/' :: (body ++ text))).2 = text := by
    simpa using whole
  have cuts : split ('/' :: '/' :: (body ++ text)) =
      [⟨'/' :: '/' :: body, .blank⟩] ++ split text := by
    rw [split, piece, rest, List.singleton_append]
  apply reads.behind_blanks cuts
  intro piece member
  cases List.mem_singleton.mp member
  exact ⟨.comment inner, rfl⟩

theorem trivia {gap : List Char} (trivial : Trivia gap)
    (reads : Reads text tokens) : Reads (gap ++ text) tokens := by
  induction trivial with
  | nil => exact reads
  | blank isBlank _ induction => exact induction.blank isBlank
  | comment inner _ induction =>
      have rest := (induction.blank (by decide : Blank '\n')).comment inner
        (by simp)
      simpa using rest

theorem finalTrivia {ending : List Char} (trivial : FinalTrivia ending) :
    Reads ending [] := by
  cases trivial with
  | closed trivial => simpa using nil.trivia trivial
  | comment trivial inner =>
      have rest := nil.comment inner (by simp)
      rw [List.append_nil] at rest
      exact rest.trivia trivial

/-- A piece that is a token comes before the tokens of the rest. -/
theorem piece {rest : List Char} {token : Token}
    (spelled : Spelled token)
    (cuts : split text =
      ⟨token.lexeme.toList, .token token.kind token.literal⟩ :: split rest)
    (reads : Reads rest tokens) : Reads text (token :: tokens) := by
  constructor
  · intro piece member
    rw [cuts] at member
    rcases List.mem_cons.mp member with rfl | behind
    · exact spelled
    · exact reads.rules piece behind
  · intro line
    rw [cuts, List.map_cons, ← reads.tokens line]
    simp [tokenOn?, Token.onLine]

theorem token {token : Token} (spelled : Spelled token) (stops : Stops text)
    (reads : Reads text tokens) :
    Reads (token.lexeme.toList ++ text) (token :: tokens) :=
  reads.piece spelled (Rule.split_append spelled stops)

/-- The scan of a text that reads as these tokens. -/
theorem scan {source : String} (reads : Reads source.toList tokens) :
    (scan source).faults = [] ∧
      ∃ same, (LoxExpr.scan source).tokens = same ++
          [Token.endOfInput (1 + lineBreaks source.toList)] ∧
        ∀ line, same.map (Token.onLine line) =
          tokens.map (Token.onLine line) := by
  refine ⟨(faults_eq_nil_iff source).mpr reads.rules, _,
    tokens_scan source, ?_⟩
  intro line
  rw [contents, map_onLine_tokens, reads.tokens line]

end Reads

theorem StartsBlank.stops {text : List Char} (starts : StartsBlank text)
    (rest : List Char) : Stops (text ++ rest) := by
  obtain ⟨c, others, rfl, blank⟩ := starts
  exact (Stop.of_blank blank).stops _

theorem LaidBehind.stops {lexemes : List String} {text : List Char}
    (laid : LaidBehind lexemes text) : Stops text := by
  cases laid with
  | last _ apart =>
      rcases apart with rfl | starts
      · exact stops_nil
      · simpa using starts.stops []
  | next _ starts _ => exact starts.stops _

theorem LaidBehind.reads {tokens : List Token} {text : List Char}
    (laid : LaidBehind (tokens.map Token.lexeme) text)
    (spelled : ∀ token ∈ tokens, Spelled token) : Reads text tokens := by
  -- By induction on the tokens, because the layout only knows their lexemes.
  induction tokens generalizing text with
  | nil =>
      cases laid with
      | last trivial _ => exact .finalTrivia trivial
  | cons token tokens induction =>
      cases laid with
      | next trivial _ behind =>
          have rest := induction behind
            (fun token member => spelled token (.tail _ member))
          exact (rest.token (spelled token (.head _)) behind.stops).trivia
            trivial

theorem LaidOut.reads {tokens : List Token} {text : List Char}
    (laid : LaidOut (tokens.map Token.lexeme) text)
    (spelled : ∀ token ∈ tokens, Spelled token) : Reads text tokens := by
  cases tokens with
  | nil =>
      cases laid with
      | nothing trivial => exact .finalTrivia trivial
  | cons token tokens =>
      cases laid with
      | lexemes trivial behind =>
          have rest := behind.reads
            (fun token member => spelled token (.tail _ member))
          exact (rest.token (spelled token (.head _)) behind.stops).trivia
            trivial

/-- The tokens of any text are found again, up to their lines and without an
error, in every layout of their lexemes. -/
theorem scan_laidOut {source text : String} {tokens : List Token} {line : Nat}
    (scanned : (scan source).tokens = tokens ++ [Token.endOfInput line])
    (laid : LaidOut (tokens.map Token.lexeme) text.toList) :
    (∃ same, (scan text).tokens = same ++
        [Token.endOfInput (1 + lineBreaks text.toList)] ∧
      same.map (Token.onLine 0) = tokens.map (Token.onLine 0)) ∧
      (scan text).faults = [] ∧
      (scan text).records.filterMap Record.event? = [] := by
  have inner : tokens = contents tokenOf? [] source.toList := by
    rw [tokens_scan] at scanned
    exact (List.append_inj_left' scanned rfl).symm
  have reads : Reads text.toList tokens := by
    apply laid.reads
    intro token member
    rw [inner] at member
    exact spelled_of_mem_tokens member
  obtain ⟨noFault, same, rescanned, agree⟩ := reads.scan
  refine ⟨⟨same, rescanned, agree 0⟩, noFault, ?_⟩
  rw [events_records, noFault, List.map_nil]

/-- A numeral, a sign and a string with slashes in it, next to a stray
character at first, are laid out on four lines with comments. -/
theorem scan_laidOut_comments :
    (scan "1.5@+\"//\"").faults = [.lexical 1 (.unexpected '@')] ∧
      (scan "// sum\n1.5\t//\n+\r\n\"//\" // end").faults = [] ∧
      ∃ tokens same,
        (scan "1.5@+\"//\"").tokens = tokens ++ [Token.endOfInput 1] ∧
        tokens.map Token.lexeme = ["1.5", "+", "\"//\""] ∧
        (scan "// sum\n1.5\t//\n+\r\n\"//\" // end").tokens =
          same ++ [Token.endOfInput 4] ∧
        same.map (Token.onLine 0) = tokens.map (Token.onLine 0) := by
  have scanned := tokens_scan "1.5@+\"//\""
  have lexemes : (contents tokenOf? [] "1.5@+\"//\"".toList).map
      Token.lexeme = ["1.5", "+", "\"//\""] := by
    decide +kernel
  have comment (body : List Char) (inner : ∀ c ∈ body, c ≠ '\n') :
      Trivia ('/' :: '/' :: (body ++ ['\n'])) :=
    .comment inner .nil
  have sum : Trivia "// sum\n".toList := comment " sum".toList (by simp)
  have tab : Trivia "\t//\n".toList :=
    .blank (by decide) (comment [] (by simp))
  have breaks : Trivia "\r\n".toList :=
    .blank (by decide) (.blank (by decide) .nil)
  have ending : FinalTrivia ([' '] ++ '/' :: '/' :: " end".toList) :=
    .comment (.blank (by decide) .nil) (by simp)
  have laid : LaidOut ["1.5", "+", "\"//\""]
      "// sum\n1.5\t//\n+\r\n\"//\" // end".toList :=
    .lexemes sum (.next tab ⟨_, _, rfl, by decide⟩
      (.next breaks ⟨_, _, rfl, by decide⟩
        (.last ending (.inr ⟨_, _, rfl, by decide⟩))))
  rw [← lexemes] at laid
  obtain ⟨⟨same, rescanned, agree⟩, noFault, _⟩ := scan_laidOut scanned laid
  exact ⟨by decide +kernel, noFault, _, same, scanned, lexemes, rescanned,
    agree⟩

end Lexis

end LoxExpr
