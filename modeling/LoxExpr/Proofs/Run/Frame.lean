import LoxExpr.Session

/-!
# One sink for many steps

The steps of a session can share one sink, which every stage of every run is
handed in turn.  A sink keeps what it is told, and its flag is set by each
error and cleared by a reset only.  No stage looks at the sink: a piece of work
adds the same records to all of them and has the same result.  So the steps do
not influence each other, and the flag says whether there was an error since
the last reset.
-/

namespace LoxExpr

structure Sink where
  records : List Record
  hadError : Bool

namespace Sink

def empty : Sink :=
  { records := [], hadError := false }

def tell (event : Event) : StateM Sink Unit :=
  modify fun sink =>
    { records := sink.records ++ [.told event]
      hadError := sink.hadError || event.isError }

def log (stage : Stage) (text : String) : StateM Sink Unit :=
  modify fun sink =>
    { sink with records := sink.records ++ [.logged stage text] }

def reset : StateM Sink Unit :=
  modify fun sink => { sink with hadError := false }

section Stages

/-- The tokens of these pieces, and their last line.  Each flawed piece is
reported when it is reached. -/
def scanPieces (line : Nat) : List Piece → StateM Sink (List Token × Nat)
  | [] => return ([Token.endOfInput line], line)
  | piece :: rest =>
      match piece.item? line with
      | some (.ok token) => do
          let (tokens, last) ← scanPieces (piece.endLine line) rest
          return (token :: tokens, last)
      | some (.error fault) => do
          tell (.error fault.message)
          scanPieces (piece.endLine line) rest
      | none => scanPieces (piece.endLine line) rest

def scan (source : String) : StateM Sink (List Token) := do
  let (tokens, last) ← scanPieces 1 (Piece.split source.toList)
  log .scanning
    ("scanned " ++ toString tokens.length ++ " tokens over " ++
      toString last ++ " lines")
  return tokens

def read (tokens : List Token) : StateM Sink (Option Expr) :=
  match Expr.ofTokens tokens with
  | .ok tree => do
      log .reading ("parsed " ++ tree.render)
      return some tree
  | .error mismatch => do
      tell (.error mismatch.fault.message)
      return none

def interpret (tree : Expr) : StateM Sink Ending :=
  match tree.evaluate with
  | .ok value => do
      log .evaluation ("evaluated to " ++ value.inspect)
      return .finished value
  | .error stuck =>
      match stuck.report with
      | .ok fault => do
          tell (.error fault.message)
          return .reported
      | .error defect => return .defective defect

def runTree (tree : Expr) : StateM Sink Ending := do
  tell (.info ("Parse result: " ++ tree.render))
  match ← interpret tree with
  | .finished value =>
      tell (.info ("Run result: " ++ value.display))
      return .finished value
  | ending => return ending

def runTokens (tokens : List Token) : StateM Sink Ending := do
  match ← read tokens with
  | some tree => runTree tree
  | none => return .reported

/-- The stages of a run, one after the other. -/
def run (source : String) : StateM Sink Ending := do
  let tokens ← scan source
  runTokens tokens

def perform : Session.Step → StateM Sink (Option Ending)
  | .run source => do
      let ending ← run source
      return some ending
  | .report event => do
      tell event
      return none
  | .reset => do
      reset
      return none

/-- The outcomes of consecutive steps: what each one added to the records, and
the flag behind it. -/
def performEach : List Session.Step → StateM Sink (List Session.Outcome)
  | [] => return []
  | step :: rest => do
      let before ← get
      let ending ← perform step
      let behind ← get
      let later ← performEach rest
      let outcome : Session.Outcome :=
        { records := behind.records.drop before.records.length
          ending := ending
          session := { hadError := behind.hadError } }
      return outcome :: later

end Stages

/-- The sink with more records.  Its flag is set by the errors among them. -/
def add (sink : Sink) (records : List Record) : Sink :=
  { records := sink.records ++ records
    hadError := sink.hadError ||
      (records.filterMap Record.event?).any Event.isError }

theorem add_nil (sink : Sink) : sink.add [] = sink := by
  simp [add]

theorem add_append (sink : Sink) (records more : List Record) :
    sink.add (records ++ more) = (sink.add records).add more := by
  simp [add, Bool.or_assoc]

/-- The work adds these records to every sink, always with this result. -/
def Adds {α : Type} (work : StateM Sink α) (records : List Record)
    (result : α) : Prop :=
  ∀ sink, work.run sink = (result, sink.add records)

namespace Adds

variable {α β : Type}

theorem pure (result : α) : Adds (pure result) [] result := by
  intro sink
  rw [add_nil]
  rfl

theorem bind {work : StateM Sink α} {next : α → StateM Sink β}
    {records more all : List Record} {result : α} {final : β}
    (first : Adds work records result)
    (later : Adds (next result) more final) (whole : records ++ more = all) :
    Adds (work >>= next) all final := by
  intro sink
  have both : (work >>= next).run sink =
      (next (work.run sink).1).run (work.run sink).2 := rfl
  rw [both, first sink, later, ← whole, add_append]

theorem tell (event : Event) : Adds (tell event) [.told event] () := by
  intro sink
  have flag : ([.told event].filterMap Record.event?).any Event.isError =
      event.isError := by
    simp [Record.event?]
  rw [add, flag]
  rfl

theorem log (stage : Stage) (text : String) :
    Adds (log stage text) [.logged stage text] () := by
  intro sink
  have flag : ([.logged stage text].filterMap Record.event?).any
      Event.isError = false := rfl
  rw [add, flag, Bool.or_false]
  rfl

theorem scanPieces (line : Nat) (pieces : List Piece) :
    Adds (scanPieces line pieces)
      ((Scan.ofPieces line pieces).faults.map Record.error)
      ((Scan.ofPieces line pieces).tokens,
        (Scan.ofPieces line pieces).line) := by
  induction pieces generalizing line with
  | nil => exact .pure _
  | cons piece rest induction =>
      have later := induction (piece.endLine line)
      rw [Scan.ofPieces, Scan.line_push, Sink.scanPieces]
      split
      · next token isToken =>
          rw [isToken]
          exact later.bind (.pure _) (List.append_nil _)
      · next fault isFault =>
          rw [isFault]
          exact (tell (.error fault.message)).bind later rfl
      · next isBlank =>
          rw [isBlank]
          exact later

theorem scan (source : String) :
    Adds (scan source) (LoxExpr.scan source).records
      (LoxExpr.scan source).tokens := by
  apply (scanPieces 1 (Piece.split source.toList)).bind _ rfl
  exact (log _ _).bind (.pure _) rfl

theorem read (tokens : List Token) :
    Adds (read tokens) (Reading.records (Expr.ofTokens tokens))
      (Expr.ofTokens tokens).toOption := by
  rw [Sink.read]
  cases Expr.ofTokens tokens with
  | ok tree => exact (log _ _).bind (.pure _) rfl
  | error mismatch => exact (tell _).bind (.pure _) rfl

theorem interpret (tree : Expr) :
    Adds (interpret tree) tree.interpret.records tree.interpret.ending := by
  rw [Sink.interpret, Expr.interpret]
  cases tree.evaluate with
  | ok value => exact (log _ _).bind (.pure _) rfl
  | error stuck =>
      dsimp only
      cases stuck.report with
      | ok fault => exact (tell _).bind (.pure _) rfl
      | error defect => exact .pure _

theorem runTree (tree : Expr) :
    Adds (runTree tree) tree.run.records tree.run.ending := by
  apply (tell _).bind _ (List.append_assoc _ _ _).symm
  apply (interpret tree).bind _ rfl
  rw [Expr.run]
  cases tree.interpret.ending with
  | finished value => exact (tell _).bind (.pure _) rfl
  | reported => exact .pure _
  | defective defect => exact .pure _

theorem runTokens (tokens : List Token) :
    Adds (runTokens tokens) (LoxExpr.runTokens tokens).records
      (LoxExpr.runTokens tokens).ending := by
  have reads := read tokens
  rw [LoxExpr.runTokens]
  cases reading : Expr.ofTokens tokens with
  | ok tree =>
      rw [reading] at reads
      exact reads.bind (runTree tree) rfl
  | error mismatch =>
      rw [reading] at reads
      exact reads.bind (.pure _) rfl

/-- A run adds its own records to any sink. -/
theorem run (source : String) :
    Adds (run source) (LoxExpr.run source).records
      (LoxExpr.run source).ending :=
  (scan source).bind (runTokens _) rfl

end Adds

section Steps

variable (sink : Sink)

/-- The session that remembers the flag of a sink. -/
def session : Session :=
  { hadError := sink.hadError }

/-- A step does to a sink what it does in a session. -/
theorem run_perform (step : Session.Step) :
    let outcome := sink.session.step step
    (perform step).run sink =
      (outcome.ending,
        { records := sink.records ++ outcome.records
          hadError := outcome.session.hadError }) := by
  cases step with
  | run source =>
      have adds : Adds (perform (.run source)) (LoxExpr.run source).records
          (some (LoxExpr.run source).ending) :=
        (Adds.run source).bind (.pure _) (List.append_nil _)
      exact adds sink
  | report event =>
      have adds : Adds (perform (.report event)) [.told event] none :=
        (Adds.tell event).bind (.pure _) rfl
      exact adds sink
  | reset =>
      have cleared : (perform .reset).run sink =
          (none, { records := sink.records, hadError := false }) := rfl
      simp [cleared, Session.step, Session.start]

/-- Steps on a shared sink have the outcomes that they have in a session. -/
theorem run_performEach (steps : List Session.Step) :
    ((performEach steps).run sink).1 = sink.session.steps steps := by
  induction steps generalizing sink with
  | nil => rfl
  | cons step rest induction =>
      have performed := run_perform sink step
      have unfolded : ((performEach (step :: rest)).run sink).1 =
          { records := ((perform step).run sink).2.records.drop
              sink.records.length
            ending := ((perform step).run sink).1
            session := ((perform step).run sink).2.session } ::
            ((performEach rest).run ((perform step).run sink).2).1 := rfl
      rw [unfolded, induction, performed, Session.steps, List.drop_left]
      rfl

end Steps

end Sink

namespace Session

variable {session : Session} {steps : List Step} {i : Nat}

theorem length_steps (session : Session) (steps : List Step) :
    (session.steps steps).length = steps.length := by
  induction steps generalizing session with
  | nil => rfl
  | cons step rest induction => simp [Session.steps, induction]

theorem steps_zero (session : Session) (steps : List Step) :
    (session.steps steps)[0]? = steps[0]?.map session.step := by
  cases steps <;> rfl

/-- Every step but the first begins with the session that the previous one
leaves. -/
theorem steps_succ {earlier : Outcome}
    (found : (session.steps steps)[i]? = some earlier) :
    (session.steps steps)[i + 1]? =
      steps[i + 1]?.map earlier.session.step := by
  induction steps generalizing session i with
  | nil => rfl
  | cons step rest induction =>
      cases i with
      | zero =>
          cases found
          exact steps_zero _ rest
      | succ i => exact induction found

theorem exists_earlier {outcome : Outcome}
    (found : (session.steps steps)[i + 1]? = some outcome) :
    ∃ earlier, (session.steps steps)[i]? = some earlier := by
  obtain ⟨inside, _⟩ := List.getElem?_eq_some_iff.mp found
  exact ⟨_, List.getElem?_eq_getElem (by omega)⟩

theorem exists_session_of_steps {outcome : Outcome} {step : Step}
    (isStep : steps[i]? = some step)
    (found : (session.steps steps)[i]? = some outcome) :
    ∃ before : Session, outcome = before.step step := by
  cases i with
  | zero =>
      rw [steps_zero, isStep] at found
      cases found
      exact ⟨session, rfl⟩
  | succ i =>
      obtain ⟨earlier, before⟩ := exists_earlier found
      rw [steps_succ before, isStep] at found
      cases found
      exact ⟨earlier.session, rfl⟩

/-- An error sets the flag, and every step but a reset keeps it. -/
theorem hadError_step (session : Session) (step : Step) :
    (session.step step).session.hadError = true ↔
      (session.step step).events.any Event.isError = true ∨
        session.hadError = true ∧ step ≠ .reset := by
  have noted (events : List Event) (other : step ≠ .reset) :
      (session.note events).hadError = true ↔
        events.any Event.isError = true ∨
          session.hadError = true ∧ step ≠ .reset := by
    rw [and_iff_left other, or_comm, note, Bool.or_eq_true]
  cases step with
  | run source => exact noted (LoxExpr.run source).events (by simp)
  | report event => exact noted [event] (by simp)
  | reset => simp [Session.step, start, Outcome.events]

/-- A step up to the given one reported an error, and no reset came behind
it. -/
def ErrorSinceReset (steps : List Step) (outcomes : List Outcome) (i : Nat) :
    Prop :=
  ∃ j outcome, j ≤ i ∧ outcomes[j]? = some outcome ∧
    outcome.events.any Event.isError = true ∧
    ∀ k, j < k → k ≤ i → steps[k]? ≠ some .reset

section ErrorSinceReset

variable {outcomes : List Outcome} {outcome : Outcome}

theorem errorSinceReset_zero (here : outcomes[0]? = some outcome) :
    ErrorSinceReset steps outcomes 0 ↔
      outcome.events.any Event.isError = true := by
  constructor
  · rintro ⟨j, first, isFirst, found, hasError, _⟩
    obtain rfl := Nat.le_zero.mp isFirst
    rw [here] at found
    cases found
    exact hasError
  · intro hasError
    exact ⟨0, outcome, Nat.le_refl 0, here, hasError, by omega⟩

theorem errorSinceReset_succ (here : outcomes[i + 1]? = some outcome) :
    ErrorSinceReset steps outcomes (i + 1) ↔
      outcome.events.any Event.isError = true ∨
        ErrorSinceReset steps outcomes i ∧
          steps[i + 1]? ≠ some .reset := by
  constructor
  · rintro ⟨j, earlier, before, found, hasError, noReset⟩
    by_cases isHere : j = i + 1
    · left
      rw [isHere, here] at found
      cases found
      exact hasError
    · right
      refine ⟨⟨j, earlier, by omega, found, hasError, ?_⟩,
        noReset (i + 1) (by omega) (Nat.le_refl _)⟩
      intro k behind upTo
      exact noReset k behind (Nat.le_succ_of_le upTo)
  · rintro (hasError | ⟨⟨j, earlier, before, found, hasError, noReset⟩,
      notHere⟩)
    · exact ⟨i + 1, outcome, Nat.le_refl _, here, hasError, by omega⟩
    · refine ⟨j, earlier, by omega, found, hasError, ?_⟩
      intro k behind upTo
      by_cases isHere : k = i + 1
      · rw [isHere]
        exact notHere
      · exact noReset k behind (by omega)

end ErrorSinceReset

/-- In a session that starts without an error the flag tells whether there was
one since the last reset. -/
theorem hadError_steps {outcome : Outcome}
    (found : (start.steps steps)[i]? = some outcome) :
    outcome.session.hadError = true ↔
      ErrorSinceReset steps (start.steps steps) i := by
  induction i generalizing outcome with
  | zero =>
      rw [errorSinceReset_zero found]
      rw [steps_zero] at found
      obtain ⟨step, _, rfl⟩ := Option.map_eq_some_iff.mp found
      rw [hadError_step]
      simp [start]
  | succ i induction =>
      rw [errorSinceReset_succ found]
      obtain ⟨earlier, before⟩ := exists_earlier found
      rw [steps_succ before] at found
      obtain ⟨step, isStep, rfl⟩ := Option.map_eq_some_iff.mp found
      rw [hadError_step, induction before, isStep, Ne, Ne,
        Option.some.injEq]

/-- Steps on one sink, from any source texts, reports and resets, have the
outcomes of a session.  Each run leaves the records and the ending that it
leaves on a sink of its own.  Behind every step the flag tells whether there
was an error since the last reset. -/
theorem steps_independent (steps : List Step) :
    let outcomes := start.steps steps
    ((Sink.performEach steps).run .empty).1 = outcomes ∧
      outcomes.length = steps.length ∧
      ∀ i outcome, outcomes[i]? = some outcome →
        (∀ source, steps[i]? = some (.run source) →
          let alone := (Sink.run source).run .empty
          outcome.ending = some alone.1 ∧
            outcome.ending.bind Ending.value? = (run source).result ∧
            outcome.records = alone.2.records ∧
            outcome.events = (run source).events) ∧
        (outcome.session.hadError = true ↔
          ErrorSinceReset steps outcomes i) := by
  refine ⟨Sink.run_performEach .empty steps, length_steps start steps, ?_⟩
  intro i outcome found
  refine ⟨?_, hadError_steps found⟩
  intro source isRun
  obtain ⟨before, rfl⟩ := exists_session_of_steps isRun found
  have alone := Sink.Adds.run source .empty
  rw [alone]
  exact ⟨rfl, rfl, rfl, rfl⟩

/-- A stray character sets the flag, which a sum without any fault neither
clears nor looks at. -/
theorem steps_independent_of_flag :
    let steps : List Step :=
      [.run "1 + # 2", .run "1 + 1", .reset, .report (.warning "late"),
        .run "1 +"]
    let outcomes := start.steps steps
    outcomes.map (fun outcome => outcome.session.hadError) =
        [true, true, false, false, true] ∧
      ∃ outcome, outcomes[1]? = some outcome ∧
        outcome.events = (run "1 + 1").events ∧
        outcome.records = ((Sink.run "1 + 1").run .empty).2.records ∧
        ErrorSinceReset steps outcomes 1 := by
  intro steps outcomes
  have found : outcomes[1]? =
      some (Session.step ⟨true⟩ (.run "1 + 1")) := by
    have flag : (start.step (.run "1 + # 2")).session = ⟨true⟩ := by
      decide +kernel
    exact congrArg (fun before : Session => some (before.step _)) flag
  obtain ⟨_, _, each⟩ := steps_independent steps
  obtain ⟨independent, flag⟩ := each 1 _ found
  obtain ⟨_, _, records, events⟩ := independent "1 + 1" rfl
  refine ⟨by decide +kernel, _, found, events, records, flag.mp rfl⟩

end Session

end LoxExpr
