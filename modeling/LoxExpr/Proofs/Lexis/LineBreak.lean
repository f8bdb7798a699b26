import LoxExpr.Proofs.Lexis.Enclosure

/-!
# Line breaks between texts

A line break that is in no string separates what stands before it from what
stands behind it, whatever either text would do to the other without it: a
comment ends, a numeral takes no point, and a symbol no second character.  So
the scan of two texts with a line break in between consists of their own scans,
the second one on later lines.
-/

namespace LoxExpr

namespace Lexis

open Piece

section Break

variable {left : String} (closed : Closed left) (right : String)

theorem lineBreaks_break (left : String) :
    lineBreaks (left.toList ++ ['\n']) = 1 + lineBreaks left.toList := by
  rw [lineBreaks_append, Nat.add_comm]
  rfl

theorem toList_break (left right : String) :
    (left ++ "\n" ++ right).toList =
      left.toList ++ '\n' :: right.toList := by
  simp

include closed

theorem split_break :
    split (left ++ "\n" ++ right).toList =
      (split left.toList ++ [⟨['\n'], .blank⟩]) ++ split right.toList := by
  have isBlank : Blank '\n' := by decide
  rw [toList_break, split_append_break _ _ closed.split, split_blank isBlank,
    List.append_cons]

/-- Between two texts the line break contributes nothing. -/
theorem contents_break {α : Type} {item : List Char × Piece → Option α}
    (ofBlank : ∀ before text, item (before, ⟨text, .blank⟩) = none) :
    contents item [] (left ++ "\n" ++ right).toList =
      contents item [] left.toList ++
        contents item (left.toList ++ ['\n']) right.toList := by
  rw [contents_of_split item [] (split_break closed right)]
  simp [contents, placed, placed_append, flatMap_split, ofBlank]

theorem tokens_break :
    contents tokenOf? [] (left ++ "\n" ++ right).toList =
      contents tokenOf? [] left.toList ++
        (contents tokenOf? [] right.toList).map
          (Token.raise (1 + lineBreaks left.toList)) := by
  rw [contents_break closed right (fun _ _ => rfl), tokens_behind _
    right.toList, lineBreaks_break]

theorem faults_break :
    contents faultOf? [] (left ++ "\n" ++ right).toList =
      contents faultOf? [] left.toList ++
        (contents faultOf? [] right.toList).map
          (Fault.raise (1 + lineBreaks left.toList)) := by
  rw [contents_break closed right (fun _ _ => rfl), faults_behind _
    right.toList, lineBreaks_break]

end Break

/-- Two texts with a line break in between are scanned one after the other, if
the first one leaves no string open.  The end of the first one is left out, and
the second one is as many lines further down as the first one and the line
break have. -/
theorem scan_append_break (left right : String) (closed : Closed left) :
    let lines := 1 + lineBreaks left.toList
    let whole := scan (left ++ "\n" ++ right)
    let faults := (scan left).faults ++
      (scan right).faults.map (Fault.raise lines)
    (∃ tokens, (∀ token ∈ tokens, token.kind ≠ .endOfInput) ∧
        (scan left).tokens = tokens ++ [Token.endOfInput lines] ∧
        whole.tokens =
          tokens ++ (scan right).tokens.map (Token.raise lines)) ∧
      whole.faults = faults ∧
      whole.records.filterMap Record.event? =
        faults.map (fun fault => .error fault.message) ∧
      whole.line = lines + (scan right).line := by
  intro lines whole faults
  have lastLine : 1 + lineBreaks (left ++ "\n" ++ right).toList =
      lines + (1 + lineBreaks right.toList) := by
    rw [toList_break, List.append_cons, lineBreaks_append, lineBreaks_break]
    omega
  have wholeFaults : whole.faults = faults := by
    simp only [whole, faults, faults_scan, faults_break closed right, lines]
  refine ⟨⟨contents tokenOf? [] left.toList,
    (splits_split left.toList).inner_tokens, tokens_scan left, ?_⟩,
    wholeFaults, ?_, ?_⟩
  · simp only [whole, tokens_scan, tokens_break closed right, lastLine,
      List.map_append, List.append_assoc]
    rfl
  · rw [events_records, wholeFaults]
  · simp only [whole, line_scan, lastLine]

/-- The sign at the end of the first text does not take the equal sign at the
beginning of the second one. -/
theorem scan_append_break_sign :
    Closed "\"a\nb\" @ !" ∧
      (scan ("\"a\nb\" @ !" ++ "\n" ++ "= 12.\n#")).faults =
        [.lexical 2 (.unexpected '@'), .lexical 4 (.unexpected '#')] ∧
      (scan ("\"a\nb\" @ !" ++ "\n" ++ "= 12.\n#")).line = 4 := by
  have leftFaults : (scan "\"a\nb\" @ !").faults =
      [.lexical 2 (.unexpected '@')] := by decide +kernel
  have rightFaults : (scan "= 12.\n#").faults =
      [.lexical 2 (.unexpected '#')] := by decide +kernel
  have closed : Closed "\"a\nb\" @ !" := by
    intro line member
    simp [leftFaults] at member
  have rightLine : (scan "= 12.\n#").line = 2 := by decide +kernel
  obtain ⟨_, faults, _, lines⟩ :=
    scan_append_break "\"a\nb\" @ !" "= 12.\n#" closed
  refine ⟨closed, ?_, ?_⟩
  · rw [faults, leftFaults, rightFaults]
    rfl
  · rw [lines, rightLine]
    rfl

end Lexis

end LoxExpr
