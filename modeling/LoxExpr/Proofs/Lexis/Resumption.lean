import LoxExpr.Proofs.Lexis.Seam

/-!
# Scanners that stop on the way

A scanner that has delivered some items stands behind a part of its text.  What
it delivers from there is what the rest of the text amounts to on its own, so
many lines further down as the part before it has line breaks.  Together with
the items delivered before, this is the scan of the whole text.
-/

namespace LoxExpr

namespace Scanner

open Piece Lexis

/-- What a step of a scanner delivers, if it is not at the end. -/
abbrev Item := Option (Except Fault Token)

def Item.token? : Item → Option Token
  | some (.ok token) => some token
  | _ => none

def Item.fault? : Item → Option Fault
  | some (.error fault) => some fault
  | _ => none

/-- The later scanner has the text `used` behind it in addition. -/
structure Passed (used : List Char) (scanner later : Scanner) : Prop where
  rest : scanner.rest = used ++ later.rest
  line : later.line = scanner.line + lineBreaks used

namespace Passed

theorem refl (scanner : Scanner) : Passed [] scanner scanner :=
  ⟨rfl, rfl⟩

theorem trans {first second : List Char} {scanner middle last : Scanner}
    (earlier : Passed first scanner middle)
    (later : Passed second middle last) :
    Passed (first ++ second) scanner last := by
  constructor
  · rw [earlier.rest, later.rest, List.append_assoc]
  · rw [later.line, earlier.line, lineBreaks_append, Nat.add_assoc]

end Passed

/-- A piece is passed as a whole. -/
theorem passed_cut (line : Nat) (head : Char) (tail : List Char) :
    Passed (cut head tail).1.text
      { rest := head :: tail, line := line }
      { rest := (cut head tail).2
        line := (cut head tail).1.endLine line } :=
  ⟨(cut_text head tail).symm, rfl⟩

/-- What one step does to a scanner: it passes some text, and at least one
character if it delivers an item, or else all of it. -/
structure Steps (scanner : Scanner) (item : Item) (behind : Scanner) :
    Prop where
  passed : ∃ used, Passed used scanner behind ∧
    (item ≠ none → used ≠ [])
  finished : item = none → behind.rest = []
  scan : scanner.scan = behind.scan.push item

theorem steps_nextOf (line : Nat) (text : List Char) :
    Steps { rest := text, line := line } (nextOf line text).1
      (nextOf line text).2 := by
  fun_induction nextOf line text with
  | case1 line =>
      constructor
      · exact ⟨[], Passed.refl _, fun delivers => absurd rfl delivers⟩
      · intro _
        rfl
      · rfl
  | case2 line head tail piece rest item found =>
      have passed := passed_cut line head tail
      constructor
      · exact ⟨_, passed, fun _ => cut_text_ne_nil head tail⟩
      · intro none
        cases none
      · rw [Scanner.scan, split, Scan.ofPieces, found]
        rfl
  | case3 line head tail piece rest silent induction =>
      have passed := passed_cut line head tail
      obtain ⟨used, later, _⟩ := induction.passed
      constructor
      · refine ⟨_, passed.trans later, ?_⟩
        intro _ nothing
        exact cut_text_ne_nil head tail (List.append_eq_nil_iff.mp nothing).1
      · exact induction.finished
      · rw [← induction.scan, Scanner.scan, split, Scan.ofPieces, silent]
        rfl

theorem steps_next (scanner : Scanner) :
    Steps scanner scanner.next.1 scanner.next.2 :=
  steps_nextOf scanner.line scanner.rest

/-- At the end of its text a scanner stays where it is. -/
theorem next_of_finished {scanner : Scanner} (finished : scanner.rest = []) :
    scanner.next = (none, scanner) := by
  obtain ⟨rest, line⟩ := scanner
  cases finished
  rw [next, nextOf]

theorem take_of_finished {scanner : Scanner} (finished : scanner.rest = [])
    (count : Nat) : ∀ item ∈ (take count scanner).1, item = none := by
  induction count with
  | zero => simp [take]
  | succ count induction =>
      intro item member
      rw [take, next_of_finished finished] at member
      rcases List.mem_cons.mp member with first | later
      · exact first
      · exact induction item later

/-- A scanner that delivers nothing never delivers anything again. -/
theorem take_of_none {scanner : Scanner} (nothing : scanner.next.1 = none)
    (count : Nat) : ∀ item ∈ (take count scanner).1, item = none := by
  cases count with
  | zero => simp [take]
  | succ count =>
      have finished := (steps_next scanner).finished nothing
      intro item member
      rcases List.mem_cons.mp member with first | later
      · exact first.trans nothing
      · exact take_of_finished finished count item later

/-- After any number of steps a scanner has passed some text. -/
theorem passed_take (count : Nat) (scanner : Scanner) :
    ∃ used, Passed used scanner (take count scanner).2 := by
  induction count generalizing scanner with
  | zero => exact ⟨[], Passed.refl scanner⟩
  | succ count induction =>
      obtain ⟨used, passed, _⟩ := (steps_next scanner).passed
      obtain ⟨further, later⟩ := induction scanner.next.2
      exact ⟨used ++ further, passed.trans later⟩

theorem length_take (count : Nat) (scanner : Scanner) :
    (take count scanner).1.length = count := by
  induction count generalizing scanner with
  | zero => rfl
  | succ count induction => simp [take, induction]

section Delivered

variable {α : Type} {select : Item → Option α} {collect : Scan → List α}

/-- If a scan collects something of the items that are pushed to it, then what
was delivered and what is left to scan make up what the whole scan collects. -/
theorem delivered_append_scan
    (collects : ∀ (scan : Scan) (item : Item),
      collect (scan.push item) = (select item).toList ++ collect scan)
    (count : Nat) (scanner : Scanner) :
    (take count scanner).1.filterMap select ++
      collect (take count scanner).2.scan = collect scanner.scan := by
  induction count generalizing scanner with
  | zero => rfl
  | succ count induction =>
      have later := induction scanner.next.2
      rw [(steps_next scanner).scan, collects, ← later, take]
      cases first : select scanner.next.1 with
      | none => simp [first]
      | some chosen => simp [first]

end Delivered

theorem tokens_push (scan : Scan) (item : Item) :
    (scan.push item).tokens = item.token?.toList ++ scan.tokens := by
  rcases item with _ | (fault | token) <;> rfl

theorem faults_push (scan : Scan) (item : Item) :
    (scan.push item).faults = item.fault?.toList ++ scan.faults := by
  rcases item with _ | (fault | token) <;> rfl

section Behind

variable {source : String} {used : List Char} {scanner : Scanner}
  (passed : Passed used (ofSource source) scanner)

include passed

theorem source_of_passed :
    source = String.ofList used ++ String.ofList scanner.rest := by
  rw [← String.ofList_append, ← passed.rest]
  exact String.ofList_toList.symm

/-- What a scanner delivers behind a text is the scan of the rest, on later
lines. -/
theorem scan_behind :
    let rest := LoxExpr.scan (String.ofList scanner.rest)
    scanner.scan.tokens = rest.tokens.map (Token.raise (lineBreaks used)) ∧
      scanner.scan.faults = rest.faults.map (Fault.raise (lineBreaks used)) ∧
      scanner.scan.line = lineBreaks used + rest.line := by
  have line : scanner.line = 1 + lineBreaks used := passed.line
  have scanned := ofPieces_eq used (split scanner.rest)
  rw [flatMap_split, line_behind, ← line] at scanned
  have tokens := tokens_behind used scanner.rest
  have faults := faults_behind used scanner.rest
  simp only [Scanner.scan, scanned, tokens_scan, faults_scan, line_scan,
    String.toList_ofList, List.map_append, ← tokens, ← faults]
  exact ⟨rfl, rfl, trivial⟩

end Behind

/-- A scanner can be asked for the rest after any number of steps.  It stands
behind some part of the text, and its scan is that of the other part, on later
lines.  The items that it has delivered and this scan make up the scan of the
whole text.  A further step passes at least one character if it delivers an
item, and if it delivers none, no later step does. -/
theorem scan_after_take (source : String) (count : Nat) :
    let items : List Item := (take count (ofSource source)).1
    let scanner : Scanner := (take count (ofSource source)).2
    (∃ before rest : String, source = before ++ rest ∧
        scanner.rest = rest.toList ∧
        let lines := lineBreaks before.toList
        let alone := LoxExpr.scan rest
        scanner.scan.tokens = alone.tokens.map (Token.raise lines) ∧
          scanner.scan.faults = alone.faults.map (Fault.raise lines) ∧
          scanner.scan.records.filterMap Record.event? =
            (alone.faults.map (Fault.raise lines)).map
              (fun fault => .error fault.message) ∧
          scanner.scan.line = lines + alone.line) ∧
      items.length = count ∧
      items.filterMap Item.token? ++ scanner.scan.tokens =
        (LoxExpr.scan source).tokens ∧
      (items.filterMap Item.fault?).map (fun fault => .error fault.message) ++
          scanner.scan.records.filterMap Record.event? =
        (LoxExpr.scan source).records.filterMap Record.event? ∧
      (∀ item, scanner.next.1 = some item → ∃ used, used ≠ [] ∧
        scanner.rest = used ++ scanner.next.2.rest) ∧
      (scanner.next.1 = none →
        ∀ more, ∀ item ∈ (take more scanner).1, item = none) := by
  intro items scanner
  obtain ⟨used, passed⟩ := passed_take count (ofSource source)
  have step := steps_next scanner
  refine ⟨?_, length_take count _, ?_, ?_, ?_, ?_⟩
  · obtain ⟨tokens, faults, line⟩ := scan_behind passed
    refine ⟨_, _, source_of_passed passed, String.toList_ofList.symm, ?_⟩
    rw [String.toList_ofList]
    refine ⟨tokens, faults, ?_, line⟩
    rw [events_records, ← faults]
  · exact delivered_append_scan tokens_push count (ofSource source)
  · have faults := delivered_append_scan faults_push count (ofSource source)
    rw [events_records, events_records, ← List.map_append]
    exact congrArg _ faults
  · intro item delivers
    obtain ⟨further, later, nonempty⟩ := step.passed
    exact ⟨further, nonempty (by simp [delivers]), later.rest⟩
  · intro nothing
    exact take_of_none nothing

end Scanner

end LoxExpr
