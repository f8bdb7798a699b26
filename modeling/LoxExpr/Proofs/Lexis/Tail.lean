import LoxExpr.Proofs.Lexis.Seam

/-!
# Blanks at the end of a text

A blank at the end of a text adds nothing to its tokens, wherever the text
breaks off: an open string takes it, a comment takes it if it is no line break,
and any other piece ends in front of it.  A line break changes the last line,
which is the line of the end of input and of a string that is left open.
-/

namespace LoxExpr

/-- A string is open at the end of the input, or the grammar asks for more
there. -/
def Fault.AboutEnd : Fault → Prop
  | .lexical _ flaw => flaw = .unterminated
  | .grammatical _ place _ => place = "end"
  | _ => False

/-- The fault, on this line if it is about the end of the input. -/
def Fault.endOn (line : Nat) (fault : Fault) : Fault :=
  match fault with
  | .lexical old flaw =>
      .lexical (if flaw = .unterminated then line else old) flaw
  | .grammatical old place detail =>
      .grammatical (if place = "end" then line else old) place detail
  | fault => fault

/-- The token, on this line if it ends the input. -/
def Token.endOn (line : Nat) (token : Token) : Token :=
  { token with
    line := if token.kind = .endOfInput then line else token.line }

theorem Token.endOn_of_inner {token : Token}
    (inner : token.kind ≠ .endOfInput) (line : Nat) :
    token.endOn line = token := by
  simp [endOn, inner]

namespace Lexis

open Piece

section Cut

/-- Only a quote opens a string, and none closes it. -/
theorem no_quote_of_unterminated {head : Char} {tail : List Char}
    (isOpen : (cut head tail).1.role = .flawed .unterminated) :
    head = '"' ∧ ∀ c ∈ tail, c ≠ '"' := by
  rcases cut_explained head tail with rule | ⟨rfl, _⟩ | ⟨_, result⟩
  · exact absurd isOpen (rule.ne_flawed _)
  · refine ⟨rfl, ?_⟩
    rw [cut_quote, cutString] at isOpen
    cases dropped : tail.dropWhile (· != '"') with
    | nil => simpa using List.dropWhile_eq_nil_iff.mp dropped
    | cons quote rest => simp [dropped] at isOpen
  · rw [result] at isOpen
    cases isOpen

theorem cut_of_no_quote {tail : List Char} (noQuote : ∀ c ∈ tail, c ≠ '"') :
    cut '"' tail = (⟨'"' :: tail, .flawed .unterminated⟩, []) := by
  have inside : ∀ c ∈ tail, (c != '"') = true := by simpa using noQuote
  have taken : tail.takeWhile (· != '"') = tail :=
    List.takeWhile_eq_self_iff.mpr inside
  have dropped : tail.dropWhile (· != '"') = [] :=
    List.dropWhile_eq_nil_iff.mpr inside
  rw [cut_quote]
  simp only [cutString, taken, dropped]

/-- A piece that counts as blank is a blank or a comment. -/
theorem comment_of_blank_role {head : Char} {tail : List Char}
    (notBlank : ¬ Blank head) (blankRole : (cut head tail).1.role = .blank) :
    ∃ body, head = '/' ∧ tail = '/' :: body := by
  rcases cut_explained head tail with rule | ⟨_, result⟩ | ⟨_, result⟩
  · have whole := cut_text head tail
    rw [blankRole] at rule
    generalize (cut head tail).1.text = word at rule whole
    cases rule with
    | blank blank =>
        obtain ⟨rfl, _⟩ := List.cons.inj whole
        exact absurd blank notBlank
    | @comment body _ =>
        obtain ⟨rfl, behind⟩ := List.cons.inj whole
        exact ⟨_, rfl, behind.symm⟩
  · rw [result] at blankRole
    cases blankRole
  · rw [result] at blankRole
    cases blankRole

/-- The piece grows by this character, and nothing is left of the text. -/
def Grows (c head : Char) (tail : List Char) (role : Role) : Prop :=
  cut head tail = (⟨head :: tail, role⟩, []) ∧
    cut head (tail ++ [c]) = (⟨head :: tail ++ [c], role⟩, [])

/-- A comment takes the next character until its line has ended. -/
theorem cut_comment_append {c : Char} (sameLine : c ≠ '\n')
    (body : List Char) :
    cut '/' ('/' :: body ++ [c]) =
        ((cut '/' ('/' :: body)).1, (cut '/' ('/' :: body)).2 ++ [c]) ∨
      Grows c '/' ('/' :: body) .blank := by
  have inside : (c != '\n') = true := by simpa using sameLine
  cases dropped : body.dropWhile (· != '\n') with
  | nil =>
      right
      have whole : ∀ d ∈ body, (d != '\n') = true :=
        List.dropWhile_eq_nil_iff.mp dropped
      have taken : body.takeWhile (· != '\n') = body :=
        List.takeWhile_eq_self_iff.mpr whole
      constructor
      · simp [cut_slashes, cutComment, taken, dropped]
      · simp [cut_slashes, cutComment, taken, dropped, inside,
          List.takeWhile_append, List.dropWhile_append]
  | cons lineBreak rest =>
      left
      have shorter : (body.takeWhile (· != '\n')).length ≠ body.length := by
        have whole := congrArg List.length
          (List.takeWhile_append_dropWhile (p := (· != '\n')) (l := body))
        rw [dropped, List.length_append, List.length_cons] at whole
        omega
      apply cut_append_of_piece
      simp [cut_slashes, cutComment, List.takeWhile_append, shorter]

/-- What a blank does at the end of a text: the first piece ends in front of
it, or this piece is the last one and takes it. -/
theorem cut_append_blank {c : Char} (blank : Blank c) (head : Char)
    (tail : List Char) :
    ((cut head tail).1.role ≠ .flawed .unterminated ∧
        cut head (tail ++ [c]) =
          ((cut head tail).1, (cut head tail).2 ++ [c])) ∨
      Grows c head tail (.flawed .unterminated) ∨
      Grows c head tail .blank := by
  by_cases isOpen : (cut head tail).1.role = .flawed .unterminated
  · right
    left
    obtain ⟨rfl, noQuote⟩ := no_quote_of_unterminated isOpen
    have stillNone : ∀ d ∈ tail ++ [c], d ≠ '"' := by
      rw [List.forall_mem_append, List.forall_mem_singleton]
      refine ⟨noQuote, ?_⟩
      rintro rfl
      exact absurd blank (by decide)
    exact ⟨cut_of_no_quote noQuote, cut_of_no_quote stillNone⟩
  by_cases apart : c = '\n' ∨ (cut head tail).1.role ≠ .blank
  · exact .inl ⟨isOpen, cut_append_stop (.of_blank blank) isOpen apart []⟩
  -- A blank in front ends at once, so only a comment could go on.
  obtain ⟨sameLine, blankRole⟩ := not_or.mp apart
  rw [not_not] at blankRole
  by_cases headBlank : Blank head
  · left
    simp [cut_of_blank headBlank]
  · obtain ⟨body, rfl, rfl⟩ := comment_of_blank_role headBlank blankRole
    rcases cut_comment_append sameLine body with ends | grows
    · exact .inl ⟨isOpen, ends⟩
    · exact .inr (.inr grows)

end Cut

/-- How the pieces of a text change with a blank at its end.  It is a piece of
its own, or an open string or a comment takes it. -/
inductive Trailed (c : Char) : List Piece → List Piece → Prop where
  | apart : Trailed c [] [⟨[c], .blank⟩]
  | intoString (text : List Char) :
      Trailed c [⟨text, .flawed .unterminated⟩]
        [⟨text ++ [c], .flawed .unterminated⟩]
  | intoComment (text : List Char) :
      Trailed c [⟨text, .blank⟩] [⟨text ++ [c], .blank⟩]
  | behind {piece : Piece} {pieces pieces' : List Piece} :
      piece.role ≠ .flawed .unterminated → Trailed c pieces pieces' →
      Trailed c (piece :: pieces) (piece :: pieces')

theorem trailed_split {c : Char} (blank : Blank c) (text : List Char) :
    Trailed c (split text) (split (text ++ [c])) := by
  fun_induction split text with
  | case1 =>
      rw [List.nil_append, split_blank blank, split]
      exact .apart
  | case2 head tail induction =>
      rw [List.cons_append, split]
      rcases cut_append_blank blank head tail with ⟨closed, apart⟩ |
        ⟨alone, taken⟩ | ⟨alone, taken⟩
      · rw [apart]
        exact .behind closed induction
      · rw [alone, taken]
        simp only [split]
        exact .intoString _
      · rw [alone, taken]
        simp only [split]
        exact .intoComment _

/-- Only an open string has a fault about the end of the input. -/
theorem map_endOn_faultOf? (before : List Char) {piece : Piece}
    (closed : piece.role ≠ .flawed .unterminated) (line : Nat) :
    (faultOf? (before, piece)).map (Fault.endOn line) =
      faultOf? (before, piece) := by
  obtain ⟨text, role⟩ := piece
  cases role with
  | flawed flaw =>
      have other : flaw ≠ .unterminated := by
        rintro rfl
        exact closed rfl
      simp [faultOf?, Fault.endOn, other]
  | _ => rfl

namespace Trailed

variable {c : Char} {pieces pieces' : List Piece}

theorem tokens (trailed : Trailed c pieces pieces') (before : List Char) :
    (placed before pieces').filterMap tokenOf? =
      (placed before pieces).filterMap tokenOf? := by
  induction trailed generalizing before with
  | behind _ _ induction =>
      simp only [placed, List.filterMap_cons, induction]
  | _ => rfl

/-- An open string ends with the text, and its fault with it. -/
theorem faults (trailed : Trailed c pieces pieces') (before : List Char) :
    (placed before pieces').filterMap faultOf? =
      ((placed before pieces).filterMap faultOf?).map (Fault.endOn
        (1 + lineBreaks (before ++ pieces.flatMap Piece.text ++ [c]))) := by
  induction trailed generalizing before with
  | @behind piece pieces pieces' closed _ induction =>
      have first := map_endOn_faultOf? before closed
      simp only [placed, List.filterMap_cons, induction, List.flatMap_cons,
        List.append_assoc]
      split
      · rfl
      · next fault found =>
          rw [found] at first
          rw [List.map_cons, Option.some.inj (first _)]
  | intoString text => simp [placed, faultOf?, Fault.endOn]
  | _ => rfl

theorem faults_of_sameLine (trailed : Trailed c pieces pieces')
    (sameLine : c ≠ '\n') (before : List Char) :
    (placed before pieces').filterMap faultOf? =
      (placed before pieces).filterMap faultOf? := by
  induction trailed generalizing before with
  | behind _ _ induction =>
      simp only [placed, List.filterMap_cons, induction]
  | intoString text =>
      have none : lineBreaks [c] = 0 := by simp [lineBreaks, sameLine]
      simp [placed, faultOf?, ← List.append_assoc,
        lineBreaks_append _ [c], none]
  | _ => rfl

end Trailed

/-- A blank that does not end its line. -/
def Space (c : Char) : Prop :=
  c = ' ' ∨ c = '\t' ∨ c = '\r'

instance (c : Char) : Decidable (Space c) :=
  inferInstanceAs (Decidable (_ ∨ _))

theorem Space.blank {c : Char} (space : Space c) : Blank c := by
  rcases space with rfl | rfl | rfl <;> decide

theorem Space.ne_break {c : Char} (space : Space c) : c ≠ '\n' := by
  rcases space with rfl | rfl | rfl <;> decide

section Contents

variable (text : List Char)

theorem tokens_append_blank {c : Char} (blank : Blank c) :
    contents tokenOf? [] (text ++ [c]) = contents tokenOf? [] text :=
  (trailed_split blank text).tokens []

theorem faults_append_space {c : Char} (space : Space c) :
    contents faultOf? [] (text ++ [c]) = contents faultOf? [] text :=
  (trailed_split space.blank text).faults_of_sameLine space.ne_break []

theorem faults_append_blank {c : Char} (blank : Blank c) :
    contents faultOf? [] (text ++ [c]) =
      (contents faultOf? [] text).map
        (Fault.endOn (1 + lineBreaks (text ++ [c]))) := by
  have faults := (trailed_split blank text).faults []
  rwa [List.nil_append, flatMap_split] at faults

/-- A string that is left open is left open on the last line. -/
theorem faults_endOn :
    (contents faultOf? [] text).map (Fault.endOn (1 + lineBreaks text)) =
      contents faultOf? [] text := by
  -- A space behind the text changes neither its faults nor its last line.
  have space : Space ' ' := by decide
  have sameLine : lineBreaks (text ++ [' ']) = lineBreaks text := by
    simp [lineBreaks]
  rw [← sameLine, ← faults_append_blank text space.blank,
    faults_append_space text space]

theorem lineBreaks_append_spaces {blanks : List Char}
    (spaces : ∀ c ∈ blanks, Space c) :
    lineBreaks (text ++ blanks) = lineBreaks text := by
  have none : lineBreaks blanks = 0 := by
    rw [lineBreaks, List.count_eq_zero]
    exact fun isBreak => (spaces _ isBreak).ne_break rfl
  rw [lineBreaks_append, none, Nat.add_zero]

/-- What does not change with a space does not change with many. -/
theorem contents_append_spaces {α : Type}
    {item : List Char × Piece → Option α}
    (unchanged : ∀ text c, Space c →
      contents item [] (text ++ [c]) = contents item [] text)
    {blanks : List Char} (spaces : ∀ c ∈ blanks, Space c) :
    contents item [] (text ++ blanks) = contents item [] text := by
  induction blanks generalizing text with
  | nil => rw [List.append_nil]
  | cons c blanks induction =>
      rw [List.forall_mem_cons] at spaces
      rw [List.append_cons, induction (text ++ [c]) spaces.2,
        unchanged text c spaces.1]

end Contents

/-- Spaces at the end of a text change nothing in its scan. -/
theorem scan_append_spaces (text : String) {blanks : String}
    (spaces : ∀ c ∈ blanks.toList, Space c) :
    scan (text ++ blanks) = scan text := by
  have tokens := contents_append_spaces text.toList
    (fun text _ space => tokens_append_blank text space.blank) spaces
  have faults := contents_append_spaces text.toList
    (fun text _ space => faults_append_space text space) spaces
  rw [contents, contents] at tokens faults
  rw [scan_eq, scan_eq, String.toList_append, tokens, faults,
    lineBreaks_append_spaces _ spaces]

section Break

variable (source : String)

/-- The tokens of the pieces do not end the input. -/
theorem map_endOn_tokens (text : List Char) (line : Nat) :
    (contents tokenOf? [] text).map (Token.endOn line) =
      contents tokenOf? [] text := by
  have inner : ∀ token ∈ contents tokenOf? [] text,
      Token.endOn line token = id token := by
    intro token member
    have notEnd := (splits_split text).inner_tokens token member
    exact Token.endOn_of_inner notEnd line
  rw [List.map_congr_left inner, List.map_id]

/-- A line break at the end of a text moves its end to the next line. -/
theorem tokens_scan_break :
    (scan (source ++ "\n")).tokens =
      (scan source).tokens.map
        (Token.endOn (2 + lineBreaks source.toList)) := by
  have last : 1 + lineBreaks (source.toList ++ "\n".toList) =
      2 + lineBreaks source.toList := by
    simp [lineBreaks]
    omega
  rw [tokens_scan, tokens_scan, String.toList_append, last, List.map_append,
    map_endOn_tokens]
  exact congrArg (· ++ _) (tokens_append_blank source.toList (by decide))

theorem faults_scan_break :
    (scan (source ++ "\n")).faults =
      (scan source).faults.map
        (Fault.endOn (2 + lineBreaks source.toList)) := by
  have last : 1 + lineBreaks (source.toList ++ ['\n']) =
      2 + lineBreaks source.toList := by
    simp [lineBreaks]
    omega
  have faults := faults_append_blank source.toList (by decide : Blank '\n')
  rw [last] at faults
  rw [faults_scan, faults_scan, String.toList_append]
  exact faults

/-- The end of a text is on its last line. -/
theorem tokens_scan_endOn :
    (scan source).tokens.map
        (Token.endOn (1 + lineBreaks source.toList)) =
      (scan source).tokens := by
  rw [tokens_scan, List.map_append, map_endOn_tokens]
  rfl

theorem faults_scan_endOn :
    (scan source).faults.map
        (Fault.endOn (1 + lineBreaks source.toList)) =
      (scan source).faults := by
  rw [faults_scan, faults_endOn]

end Break

end Lexis

end LoxExpr
