import LoxExpr.Proofs.Lexis.Cutting
import LoxExpr.Run

/-!
# Tokenization

By the lexical rules a text falls into pieces in exactly one way.  A scan
consists of the tokens of these pieces, each with the line on which its piece
ends, and of one fault for each flawed piece.
-/

namespace LoxExpr

namespace Lexis

open Piece

theorem not_begins_nil {piece : Piece} {rest : List Char} :
    ¬ Begins [] piece rest := by
  intro begins
  generalize whole : ([] : List Char) = text at begins
  cases begins with
  | longest rule =>
      obtain ⟨empty, _⟩ := List.append_eq_nil_iff.mp whole.symm
      exact rule.ne_nil empty
  | unterminated => cases whole
  | unexpected => cases whole

theorem splits_split (text : List Char) : Splits text (split text) := by
  fun_induction split text with
  | case1 => exact .nil
  | case2 head tail induction =>
      exact .cons (begins_cut head tail) induction

theorem Splits.eq_split {text : List Char} {pieces : List Piece}
    (splits : Splits text pieces) : pieces = split text := by
  induction splits with
  | nil => rw [split]
  | @cons text rest piece pieces begins _ induction =>
      cases text with
      | nil => exact absurd begins not_begins_nil
      | cons head tail => rw [split, begins.eq_cut, induction]

/-- The pieces behind a text, each with all the text before it. -/
def placed (before : List Char) : List Piece → List (List Char × Piece)
  | [] => []
  | piece :: rest =>
      (before, piece) :: placed (before ++ piece.text) rest

/-- The token of a piece, on the line on which the piece ends. -/
def tokenOf? : List Char × Piece → Option Token
  | (before, ⟨text, .token kind literal⟩) =>
      some
        { kind := kind
          lexeme := String.ofList text
          literal := literal
          line := 1 + lineBreaks (before ++ text) }
  | _ => none

/-- The fault of a piece, on the line on which the piece ends. -/
def faultOf? : List Char × Piece → Option Fault
  | (before, ⟨text, .flawed flaw⟩) =>
      some (.lexical (1 + lineBreaks (before ++ text)) flaw)
  | _ => none

theorem endLine_eq (before : List Char) (piece : Piece) :
    piece.endLine (1 + lineBreaks before) =
      1 + lineBreaks (before ++ piece.text) := by
  rw [endLine, lineBreaks_append, Nat.add_assoc]

theorem ofPieces_eq (before : List Char) (pieces : List Piece) :
    Scan.ofPieces (1 + lineBreaks before) pieces =
      { tokens := (placed before pieces).filterMap tokenOf? ++
          [Token.endOfInput
            (1 + lineBreaks (before ++ pieces.flatMap Piece.text))]
        faults := (placed before pieces).filterMap faultOf?
        line := 1 + lineBreaks (before ++ pieces.flatMap Piece.text) } := by
  induction pieces generalizing before with
  | nil => simp [Scan.ofPieces, Scan.finish, placed]
  | cons piece rest induction =>
      have behind := induction (before ++ piece.text)
      rw [List.append_assoc, ← List.flatMap_cons] at behind
      rw [Scan.ofPieces, endLine_eq, behind]
      obtain ⟨text, role⟩ := piece
      cases role with
      | blank =>
          simp [placed, Scan.push, item?, tokenOf?, faultOf?,
            List.filterMap_cons]
      | token kind literal =>
          simp [placed, Scan.push, item?, tokenOf?, faultOf?, endLine_eq,
            List.filterMap_cons]
      | flawed flaw =>
          simp [placed, Scan.push, item?, tokenOf?, faultOf?, endLine_eq,
            List.filterMap_cons]

/-- The scan of a text, from its pieces. -/
theorem scan_eq (source : String) :
    scan source =
      { tokens := (placed [] (split source.toList)).filterMap tokenOf? ++
          [Token.endOfInput (1 + lineBreaks source.toList)]
        faults := (placed [] (split source.toList)).filterMap faultOf?
        line := 1 + lineBreaks source.toList } := by
  have scanned := ofPieces_eq [] (split source.toList)
  rwa [List.nil_append, flatMap_split] at scanned

theorem lexical_of_mem_faults {source : String} {fault : Fault}
    (member : fault ∈ (scan source).faults) :
    ∃ line flaw, fault = .lexical line flaw := by
  rw [scan_eq] at member
  obtain ⟨⟨before, text, role⟩, _, found⟩ := List.mem_filterMap.mp member
  cases role <;> cases found
  exact ⟨_, _, rfl⟩

theorem Rule.kind_ne_endOfInput {word : List Char} {kind : Token.Kind}
    {literal : Option Value} (rule : Rule word (.token kind literal)) :
    kind ≠ .endOfInput := by
  cases rule with
  | symbol member =>
      have listed : ∀ entry ∈ symbols, entry.2 ≠ .endOfInput := by decide
      exact listed (word, kind) member
  | _ => simp

theorem Splits.rule_of_token {text : List Char} {pieces : List Piece}
    (splits : Splits text pieces) {piece : Piece} (member : piece ∈ pieces)
    {kind : Token.Kind} {literal : Option Value}
    (isToken : piece.role = .token kind literal) :
    Rule piece.text (.token kind literal) := by
  induction splits with
  | nil => cases member
  | cons begins _ induction =>
      rcases List.mem_cons.mp member with rfl | later
      · cases begins with
        | longest rule => exact isToken ▸ rule
        | unterminated => cases isToken
        | unexpected => cases isToken
      · exact induction later

theorem mem_of_mem_placed {before : List Char} {pieces : List Piece}
    {entry : List Char × Piece} (member : entry ∈ placed before pieces) :
    entry.2 ∈ pieces := by
  induction pieces generalizing before with
  | nil => cases member
  | cons piece rest induction =>
      rcases List.mem_cons.mp member with rfl | later
      · exact List.mem_cons_self
      · exact List.mem_cons_of_mem _ (induction later)

theorem map_snd_placed (before : List Char) (pieces : List Piece) :
    (placed before pieces).map Prod.snd = pieces := by
  induction pieces generalizing before with
  | nil => rfl
  | cons piece rest induction => simp [placed, induction]

theorem faultOf?_eq_none_iff {entry : List Char × Piece} :
    faultOf? entry = none ↔ ∀ flaw, entry.2.role ≠ .flawed flaw := by
  obtain ⟨before, text, role⟩ := entry
  cases role <;> simp [faultOf?]

theorem Splits.rule_of_not_flawed {text : List Char} {pieces : List Piece}
    (splits : Splits text pieces) {piece : Piece} (member : piece ∈ pieces)
    (sound : ∀ flaw, piece.role ≠ .flawed flaw) :
    Rule piece.text piece.role := by
  induction splits with
  | nil => cases member
  | cons begins _ induction =>
      rcases List.mem_cons.mp member with rfl | later
      · cases begins with
        | longest rule => exact rule
        | unterminated => exact absurd rfl (sound .unterminated)
        | unexpected => exact absurd rfl (sound (.unexpected _))
      · exact induction later

/-- A scan has no fault exactly when every piece is a word of a rule. -/
theorem faults_eq_nil_iff (source : String) :
    (scan source).faults = [] ↔
      ∀ piece ∈ split source.toList, Rule piece.text piece.role := by
  rw [scan_eq, List.filterMap_eq_nil_iff]
  constructor
  · intro noFault piece member
    rw [← map_snd_placed [] (split source.toList)] at member
    obtain ⟨entry, isPlaced, rfl⟩ := List.mem_map.mp member
    exact (splits_split source.toList).rule_of_not_flawed
      (mem_of_mem_placed isPlaced)
      (faultOf?_eq_none_iff.mp (noFault entry isPlaced))
  · intro rules entry isPlaced
    have rule := rules entry.2 (mem_of_mem_placed isPlaced)
    exact faultOf?_eq_none_iff.mpr rule.ne_flawed

theorem Splits.inner_tokens {text : List Char} {pieces : List Piece}
    (splits : Splits text pieces) :
    ∀ token ∈ (placed [] pieces).filterMap tokenOf?,
      token.kind ≠ .endOfInput := by
  intro token member
  obtain ⟨⟨before, piece⟩, isPlaced, found⟩ := List.mem_filterMap.mp member
  have isPiece := mem_of_mem_placed isPlaced
  obtain ⟨word, role⟩ := piece
  cases role with
  | blank => cases found
  | token kind literal =>
      cases found
      exact (splits.rule_of_token isPiece rfl).kind_ne_endOfInput
  | flawed flaw => cases found

theorem events_records (scan : Scan) :
    scan.records.filterMap Record.event? =
      scan.faults.map fun fault => .error fault.message := by
  simp [Scan.records, Record.event?, List.filterMap_map, Function.comp_def,
    Record.error]

/-- A text is split by the rules in exactly one way, and nothing of it is
lost.  Its scan delivers the tokens of the pieces in their order, verbatim and
with their lines, and then the only token for the end of input; and it reports
one error for each flawed piece, in their order. -/
theorem scan_tokenizes (source : String) :
    ∃ pieces, Splits source.toList pieces ∧
      (∀ others, Splits source.toList others → others = pieces) ∧
      pieces.flatMap Piece.text = source.toList ∧
      (scan source).tokens = (placed [] pieces).filterMap tokenOf? ++
        [Token.endOfInput (1 + lineBreaks source.toList)] ∧
      (∀ token ∈ (placed [] pieces).filterMap tokenOf?,
        token.kind ≠ .endOfInput) ∧
      (scan source).records.filterMap Record.event? =
        ((placed [] pieces).filterMap faultOf?).map
          fun fault => .error fault.message := by
  have splits := splits_split source.toList
  have scanned := ofPieces_eq [] (split source.toList)
  rw [List.nil_append, flatMap_split] at scanned
  have whole : scan source =
      Scan.ofPieces (1 + lineBreaks []) (split source.toList) := rfl
  refine ⟨split source.toList, splits, ?_, flatMap_split _, ?_,
    splits.inner_tokens, ?_⟩
  · intro others otherSplits
    exact otherSplits.eq_split
  · rw [whole, scanned]
  · rw [events_records, whole, scanned]

end Lexis

end LoxExpr
