import Mathlib.Data.List.Basic
import LoxExpr.Command.Program
import LoxExpr.Proofs.Run.Course

/-!
# Conversations

A conversation is made of runs that know nothing of each other.  Its input
falls into lines.  Each line up to the first one without a text is answered by
what a fresh run of it prints, whatever was said before, and a prompt without
an error to remember comes before each of them and at the end.
-/

namespace LoxExpr

/-- An input falls into pieces that end with their only line break, and a last
piece without one, if something is left for it. -/
inductive Lines : List UInt8 → List (List UInt8) → Prop where
  | nothing : Lines [] []
  | last {line : List UInt8} :
      line ≠ [] → 10 ∉ line → Lines line [line]
  | next {line rest : List UInt8} {lines : List (List UInt8)} :
      10 ∉ line → Lines rest lines →
      Lines (line ++ 10 :: rest) ((line ++ [10]) :: lines)

namespace Lines

variable {input : List UInt8}

/-- A first byte that is no line break belongs to the first line. -/
theorem cons {byte : UInt8} {line : List UInt8} {later : List (List UInt8)}
    (inLine : byte ≠ 10) (falls : Lines input (line :: later)) :
    Lines (byte :: input) ((byte :: line) :: later) := by
  have longer {line : List UInt8} (noBreak : 10 ∉ line) :
      10 ∉ byte :: line := by
    simpa using ⟨inLine.symm, noBreak⟩
  cases falls with
  | last nonempty noBreak =>
      exact .last (List.cons_ne_nil _ _) (longer noBreak)
  | next noBreak falls => exact .next (longer noBreak) falls

theorem lines (input : List UInt8) : Lines input (Prompt.lines input) := by
  induction input with
  | nil => exact .nothing
  | cons byte rest induction =>
      rw [Prompt.lines]
      split
      · next isBreak =>
          have noBreak : (10 : UInt8) ∉ [] := List.not_mem_nil
          rw [isBreak]
          exact .next noBreak induction
      · next inLine =>
          cases found : Prompt.lines rest with
          | nil =>
              rw [found] at induction
              cases induction
              apply Lines.last
              · exact List.cons_ne_nil _ _
              · simpa using Ne.symm inLine
          | cons line later =>
              rw [found] at induction
              exact induction.cons inLine

theorem lines_of_no_break {line : List UInt8} (nonempty : line ≠ [])
    (noBreak : 10 ∉ line) : Prompt.lines line = [line] := by
  induction line with
  | nil => exact absurd rfl nonempty
  | cons byte line induction =>
      rw [List.mem_cons, not_or] at noBreak
      obtain ⟨inLine, behind⟩ := noBreak
      rw [Prompt.lines, if_neg (Ne.symm inLine)]
      cases line with
      | nil => rfl
      | cons next line => rw [induction (by simp) behind]

theorem lines_append_break {line : List UInt8} (noBreak : 10 ∉ line)
    (rest : List UInt8) :
    Prompt.lines (line ++ 10 :: rest) =
      (line ++ [10]) :: Prompt.lines rest := by
  induction line with
  | nil => rfl
  | cons byte line induction =>
      rw [List.mem_cons, not_or] at noBreak
      obtain ⟨inLine, behind⟩ := noBreak
      rw [List.cons_append, Prompt.lines, if_neg (Ne.symm inLine),
        induction behind]
      rfl

/-- An input falls into lines in one way only. -/
theorem eq_lines {lines : List (List UInt8)} (falls : Lines input lines) :
    lines = Prompt.lines input := by
  induction falls with
  | nothing => rfl
  | last nonempty noBreak => rw [lines_of_no_break nonempty noBreak]
  | next noBreak _ induction => rw [lines_append_break noBreak, induction]

end Lines

def Event.infoLine? : Event → Option String
  | .info text => some ("Info: " ++ text ++ "\n")
  | _ => none

def Event.errorLine? : Event → Option String
  | .error text => some ("Error: " ++ text ++ "\n")
  | _ => none

/-- The line of an error, or of a log record that is shown. -/
def Record.diagnosticLine? (shown : LogView) : Record → Option String
  | .told event => event.errorLine?
  | .logged stage text =>
      if shown stage text then some (stage.logLine text) else none

namespace Run

def infoLines (run : Run) : List String :=
  run.events.filterMap Event.infoLine?

def errorLines (run : Run) : List String :=
  run.events.filterMap Event.errorLine?

def diagnosticLines (shown : LogView) (run : Run) : List String :=
  run.records.filterMap (Record.diagnosticLine? shown)

/-- Without a log the diagnostics are the errors. -/
theorem diagnosticLines_of_nothing_shown {shown : LogView}
    (silent : ∀ stage text, shown stage text = false) (run : Run) :
    run.diagnosticLines shown = run.errorLines := by
  have errorsOnly : Record.diagnosticLine? shown =
      fun record => record.event?.bind Event.errorLine? := by
    funext record
    cases record with
    | told event => rfl
    | logged stage text =>
        simp [Record.diagnosticLine?, Record.event?, silent]
  rw [diagnosticLines, errorLines, events, List.filterMap_filterMap,
    errorsOnly]

end Run

theorem join_flatMap {α : Type} (items : List α) (texts : α → List String) :
    String.join (items.flatMap texts) =
      String.join (items.map fun item => String.join (texts item)) := by
  induction items with
  | nil => rfl
  | cons item items induction =>
      rw [List.flatMap_cons, String.join_append, induction, List.map_cons,
        String.join_cons]

theorem Print.textOn_flatMap {α : Type} (stream : Stream) (items : List α)
    (prints : α → List Print) :
    textOn stream (items.flatMap prints) =
      String.join (items.map fun item => textOn stream (prints item)) := by
  rw [textOn, List.filter_flatMap, List.map_flatMap, join_flatMap]
  rfl

/-- What records print on a stream, if each of them prints one line there at
most. -/
theorem textOn_records {shown : LogView} {stream : Stream}
    {line? : Record → Option String} {records : List Record}
    (prints : ∀ record ∈ records,
      ((record.prints shown).filter (·.stream = stream)).map Print.text =
        (line? record).toList) :
    Print.textOn stream (records.flatMap (Record.prints shown)) =
      String.join (records.filterMap line?) := by
  rw [Print.textOn, List.filter_flatMap, List.map_flatMap,
    List.filterMap_eq_flatMap_toList]
  exact congrArg (fun texts => String.join texts.flatten)
    (List.map_congr_left prints)

theorem no_warning_run (source text : String) :
    .warning text ∉ (run source).events := by
  have course := course_runTokens (scan source).tokens
  simp [events_run, course.no_warning text]

namespace Run

def prints (shown : LogView) (run : Run) : List Print :=
  run.records.flatMap (Record.prints shown)

theorem textOn_answers_prints (shown : LogView) (run : Run) :
    Print.textOn .answers (run.prints shown) =
      String.join run.infoLines := by
  rw [infoLines, events, List.filterMap_filterMap]
  apply textOn_records
  intro record _
  rcases record with (text | text | text) | ⟨stage, text⟩
  · rfl
  · rfl
  · rfl
  · cases isShown : shown stage text <;>
      simp [Record.prints, Record.event?, isShown]

theorem textOn_diagnostics_prints (shown : LogView) (source : String) :
    Print.textOn .diagnostics ((LoxExpr.run source).prints shown) =
      String.join ((LoxExpr.run source).diagnosticLines shown) := by
  apply textOn_records
  intro record member
  rcases record with (text | text | text) | ⟨stage, text⟩
  · rfl
  · have told : .warning text ∈ (LoxExpr.run source).events :=
      List.mem_filterMap.mpr ⟨_, member, rfl⟩
    exact absurd told (no_warning_run source text)
  · rfl
  · cases isShown : shown stage text <;>
      simp [Record.prints, Record.diagnosticLine?, isShown]

end Run

namespace Prompt

/-- What a line asks to run: its text without the blanks at its end, if
something is left. -/
def program? (text : String) : Option String :=
  let trimmed := Text.trimEnd text.toList
  if trimmed = [] then none else some (String.ofList trimmed)

/-- A part of the fresh run that a line asks for, or nothing. -/
def fromRun {α : Type} (part : Run → List α) (line : String) : List α :=
  (program? line).toList.flatMap fun program => part (run program)

theorem fromRun_congr {α : Type} {part part' : Run → List α}
    (same : ∀ source, part (run source) = part' (run source))
    (line : String) : fromRun part line = fromRun part' line := by
  simp only [fromRun, same]

theorem textOn_fromRun {stream : Stream} {prints : Run → List Print}
    {lines : Run → List String}
    (printed : ∀ source, Print.textOn stream (prints (run source)) =
      String.join (lines (run source))) (line : String) :
    Print.textOn stream (fromRun prints line) =
      String.join (fromRun lines line) := by
  unfold fromRun
  cases program? line with
  | none => rfl
  | some program => simpa using printed program

variable (shown : LogView)

/-- A line is answered by a run of its own and leaves a session without an
error. -/
theorem respond_of_text {line : List UInt8} {text : String}
    (isText : decode? line = some text) (session : Session) :
    respond shown session line =
      (fromRun (Run.prints shown) text, some .start) := by
  simp only [respond, isText, steps, fromRun, program?, List.isEmpty_iff]
  split
  · rfl
  · simp [Session.steps, Session.step, Session.afterOutcomes,
      Session.Outcome.prints, Run.prints]

theorem respond_of_no_text {line : List UInt8} (noText : decode? line = none)
    (session : Session) :
    respond shown session line = ([readComplaint], none) := by
  simp only [respond, noText]

/-- Where the reading of lines ends: with the input, or at a line without a
text. -/
def Stops (unread : List (List UInt8)) : Prop :=
  ∀ line ∈ unread.head?, decode? line = none

theorem turns_of_stop {unread : List (List UInt8)} (stops : Stops unread)
    (session : Session) :
    turns shown session unread =
      [⟨session, ⟨.answers, text⟩ ::
        if unread = [] then [] else [readComplaint]⟩] := by
  cases unread with
  | nil => rfl
  | cons line later =>
      simp [turns, respond_of_no_text shown (stops line rfl)]

/-- Every turn begins without an error, answers one line, and does not depend
on the others. -/
theorem turns_eq {read unread : List (List UInt8)} {texts : List String}
    (decoded : read.map decode? = texts.map some) (stops : Stops unread) :
    turns shown .start (read ++ unread) =
      (texts.map fun line =>
        ⟨.start, ⟨.answers, text⟩ :: fromRun (Run.prints shown) line⟩) ++
        [⟨.start, ⟨.answers, text⟩ ::
          if unread = [] then [] else [readComplaint]⟩] := by
  -- Each line that is read leaves the session with which the first one began.
  induction read generalizing texts with
  | nil =>
      cases texts with
      | nil => exact turns_of_stop shown stops .start
      | cons => cases decoded
  | cons line read induction =>
      cases texts with
      | nil => cases decoded
      | cons first texts =>
          obtain ⟨isText, later⟩ := List.cons.inj decoded
          simp only [List.cons_append, turns,
            respond_of_text shown isText, induction later, List.map_cons]

/-- All lines are read up to the first one without a text. -/
theorem exists_read (lines : List (List UInt8)) :
    ∃ (read unread : List (List UInt8)) (texts : List String),
      lines = read ++ unread ∧ read.map decode? = texts.map some ∧
        Stops unread := by
  induction lines with
  | nil => exact ⟨[], [], [], rfl, rfl, by simp [Stops]⟩
  | cons line later induction =>
      cases isText : decode? line with
      | none => exact ⟨[], line :: later, [], rfl, rfl, by simp [Stops, isText]⟩
      | some text =>
          obtain ⟨read, unread, texts, rfl, decoded, stops⟩ := induction
          exact ⟨line :: read, unread, text :: texts, rfl,
            by simp [isText, decoded], stops⟩

/-- On the stream for answers there are the prompts and the information. -/
theorem textOn_answers_turns {read unread : List (List UInt8)}
    {texts : List String} (decoded : read.map decode? = texts.map some)
    (stops : Stops unread) :
    Print.textOn .answers
        ((turns shown .start (read ++ unread)).flatMap Turn.prints) =
      String.join (texts.map fun line =>
        "> " ++ String.join (fromRun Run.infoLines line)) ++ "> " := by
  have turn (line : String) :
      Print.textOn .answers
          (⟨.answers, text⟩ :: fromRun (Run.prints shown) line) =
        "> " ++ String.join (fromRun Run.infoLines line) := by
    have printed (source : String) :=
      Run.textOn_answers_prints shown (run source)
    rw [← textOn_fromRun printed, ← List.singleton_append,
      Print.textOn_append]
    rfl
  have last : Print.textOn .answers (⟨.answers, text⟩ ::
      if unread = [] then [] else [readComplaint]) = "> " := by
    split <;> rfl
  rw [turns_eq shown decoded stops, List.flatMap_append,
    Print.textOn_append, List.flatMap_map, Print.textOn_flatMap,
    List.flatMap_singleton]
  simp only [turn, last]

/-- On the stream for diagnostics there is no prompt. -/
theorem textOn_diagnostics_turns {read unread : List (List UInt8)}
    {texts : List String} (decoded : read.map decode? = texts.map some)
    (stops : Stops unread) :
    Print.textOn .diagnostics
        ((turns shown .start (read ++ unread)).flatMap Turn.prints) =
      String.join (texts.flatMap (fromRun (Run.diagnosticLines shown))) ++
        if unread = [] then "" else readComplaint.text := by
  have turn (line : String) :
      Print.textOn .diagnostics
          (⟨.answers, text⟩ :: fromRun (Run.prints shown) line) =
        String.join (fromRun (Run.diagnosticLines shown) line) :=
    textOn_fromRun (Run.textOn_diagnostics_prints shown) line
  have last : Print.textOn .diagnostics (⟨.answers, text⟩ ::
      if unread = [] then [] else [readComplaint]) =
        if unread = [] then "" else readComplaint.text := by
    split <;> rfl
  rw [turns_eq shown decoded stops, List.flatMap_append,
    Print.textOn_append, List.flatMap_map, Print.textOn_flatMap,
    List.flatMap_singleton, join_flatMap]
  simp only [turn, last]

end Prompt

/-- Without a setting the log of a program shows nothing. -/
theorem Program.shown_log_default (stage : Stage) (text : String) :
    (log false none).shown stage text = false := by
  have unsplit {separator : String} (given : (separator == "") = false) :
      "".splitOn separator = [""] := by
    rw [String.splitOn, given, String.splitOnAux]
    rfl
  have noStroke : "".splitOn "/" = [""] := unsplit (by decide)
  have noComma : "".splitOn "," = [""] := unsplit (by decide)
  have nothing : LogFilter.ofText "" =
      ({ directives := [], pattern := none }, []) := by
    simp [LogFilter.ofText, noStroke, LogFilter.readDirectives, noComma,
      Text.trim, Text.trimEnd, LogFilter.ofDirectives]
  simp [log, nothing, LogFilter.shows, LogFilter.deciding?]

/-- The lines of an input are read up to the first one that is not UTF-8.
Every prompt comes without an error to remember.  The answers are the prompts,
each with the information of a fresh run of its line behind it, and one more
prompt.  The diagnostics are the errors of these runs, with what the log shows
of them, and a complaint if there is a line that is not UTF-8. -/
theorem Program.promptReport_line_by_line (input : List UInt8) :
    ∃ (read unread : List (List UInt8)) (texts : List String),
      (∀ lines, Lines input lines ↔ lines = read ++ unread) ∧
        read.map Prompt.decode? = texts.map some ∧
        (∀ line ∈ unread.head?, Prompt.decode? line = none) ∧
        ∀ shown : LogView,
          let report := promptReport shown none input
          let turns := Prompt.turns shown .start (Prompt.lines input)
          let complaint :=
            if unread = [] then ""
            else "Failed to read input: stream did not contain valid UTF-8\n"
          report.code = 0 ∧
            report.prints = turns.flatMap Prompt.Turn.prints ∧
            turns.length = texts.length + 1 ∧
            (∀ turn ∈ turns, turn.session.hadError = false) ∧
            Print.textOn .answers report.prints =
              String.join (texts.map fun line =>
                "> " ++ String.join (Prompt.fromRun Run.infoLines line)) ++
                "> " ∧
            Print.textOn .diagnostics report.prints =
              String.join (texts.flatMap
                (Prompt.fromRun (Run.diagnosticLines shown))) ++
                complaint ∧
            Print.textOn .diagnostics
                (promptReport (log false none).shown none input).prints =
              String.join (texts.flatMap (Prompt.fromRun Run.errorLines)) ++
                complaint := by
  obtain ⟨read, unread, texts, isInput, decoded, stops⟩ :=
    Prompt.exists_read (Prompt.lines input)
  refine ⟨read, unread, texts, ?_, decoded, stops, ?_⟩
  · intro lines
    rw [← isInput]
    constructor
    · exact Lines.eq_lines
    · intro same
      rw [same]
      exact Lines.lines input
  intro shown
  have turns := Prompt.turns_eq shown decoded stops
  have silent : Prompt.fromRun (Run.diagnosticLines (log false none).shown) =
      Prompt.fromRun Run.errorLines := by
    funext line
    apply Prompt.fromRun_congr
    intro source
    exact Run.diagnosticLines_of_nothing_shown shown_log_default _
  simp only [promptReport, isInput,
    Prompt.textOn_answers_turns shown decoded stops,
    Prompt.textOn_diagnostics_turns _ decoded stops, silent]
  refine ⟨trivial, trivial, ?_, ?_, trivial, ?_, ?_⟩
  · simp [turns]
  · intro turn member
    rw [turns, List.mem_append, List.mem_map, List.mem_singleton] at member
    rcases member with ⟨line, _, rfl⟩ | rfl <;> rfl
  · rfl
  · rfl

end LoxExpr
