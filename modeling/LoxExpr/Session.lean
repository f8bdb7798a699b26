import LoxExpr.Run

/-!
# Sessions

A session reports events one after the other and remembers whether one of them
was an error.  A reset forgets this.  Runs in a session do not influence each
other otherwise.
-/

namespace LoxExpr

structure Session where
  hadError : Bool
deriving DecidableEq, Repr

namespace Session

inductive Step where
  | run (source : String)
  | report (event : Event)
  | reset
deriving DecidableEq, Repr

def start : Session :=
  { hadError := false }

/-- The session after these events. -/
def note (session : Session) (events : List Event) : Session :=
  { hadError := session.hadError || events.any Event.isError }

/-- What a step does: its records, the ending if it is a run, and the session
after it. -/
structure Outcome where
  records : List Record
  ending : Option Ending
  session : Session

namespace Outcome

def events (outcome : Outcome) : List Event :=
  outcome.records.filterMap Record.event?

end Outcome

def step (session : Session) : Step → Outcome
  | .run source =>
      let run := LoxExpr.run source
      { records := run.records
        ending := some run.ending
        session := session.note run.events }
  | .report event =>
      { records := [.told event]
        ending := none
        session := session.note [event] }
  | .reset =>
      { records := []
        ending := none
        session := start }

/-- The outcomes of consecutive steps. -/
def steps (session : Session) : List Step → List Outcome
  | [] => []
  | step :: rest =>
      let outcome := session.step step
      outcome :: outcome.session.steps rest

theorem note_append (session : Session) (earlier later : List Event) :
    session.note (earlier ++ later) = (session.note earlier).note later := by
  simp [note, Bool.or_assoc]

/-- The session after steps with these outcomes. -/
def afterOutcomes (session : Session) (outcomes : List Outcome) : Session :=
  (outcomes.getLast?.map Outcome.session).getD session

end Session

end LoxExpr
