import DebugAdapter.Session.Handler
/-!
# Schedules

How the parties of a session take turns. `State.advance?` lets one party take its next step, and
`State.Step` is a step of any party: a session may go through any sequence of these. From outside
come requests, the time and releases of stalled executions, which are `State.Input`s. The states
that come about in this way are `State.Reachable`.
-/

namespace DebugAdapter.Session

open Protocol (Request)

/-- A step on run `r`, if there is such a run. -/
def State.onRun (s : State) (r : RunId) (step : Run → Option Done) : Option Handled :=
  match s.runs[r]? with
  | none => none
  | some run => (step run).map fun done => ((s.setRun r done.run).send done.sent, done.next)

/-- The step of a duty; nothing when it has to wait. -/
def Duty.perform? (b : Backend) (s : State) : Duty → Option Handled
  | session d => some (d.perform b s)
  | run r d => s.onRun r (d.perform? r)
  | starter r d => s.onRun r fun run => d.perform? b s r run
  | request r d => s.onRun r fun run => d.perform? b r run
  | thread r d => s.onRun r fun run => d.perform? b s r run

namespace State

/-- The state after the next step of a party; nothing when the party has nothing to do or has to
wait. -/
def advance? (b : Backend) (s : State) (p : Party) : Option State :=
  match s.agenda p with
  | [] => none
  | d :: ds =>
    (d.perform? b (s.setAgenda p ds)).map fun h => h.1.setAgenda p (h.2 ++ h.1.agenda p)

/-- One party takes its next step. -/
def Step (b : Backend) (s t : State) : Prop :=
  ∃ p, s.advance? b p = some t

/-- One session leads to another by any number of steps of any parties. -/
inductive Steps (b : Backend) (s : State) : State → Prop where
  | refl : Steps b s s
  | tail {t u : State} : Steps b s t → Step b t u → Steps b s u

/-- What comes to a session from outside. -/
inductive Input where
  /-- A request comes. -/
  | request (r : Request)
  /-- The client is gone. -/
  | hangUp
  /-- Time passes. -/
  | elapse (milliseconds : Nat)
  /-- Stalled executions are released. -/
  | release

/-- The session after something came from outside. -/
def accept (s : State) : Input → State
  | .request r => { s with handler := s.handler ++ [.session (.handle r)] }
  | .hangUp => { s with handler := s.handler ++ [.session .shutdown] }
  | .elapse milliseconds => { s with clock := s.clock + milliseconds }
  | .release => { s with releases := s.releases + 1 }

/-- Whether something may come now: a request comes when the last one is handled. -/
def Admits (s : State) : Input → Prop
  | .request _ | .hangUp => s.handler = []
  | .elapse _ | .release => True

/-- The states that a session can get into, whoever takes the next step. -/
inductive Reachable (b : Backend) : State → Prop where
  | initial : Reachable b {}
  | step {s t : State} : Reachable b s → Step b s t → Reachable b t
  | accept {s : State} (i : Input) : Reachable b s → s.Admits i → Reachable b (s.accept i)

end State

end DebugAdapter.Session
