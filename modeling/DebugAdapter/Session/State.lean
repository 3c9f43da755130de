import DebugAdapter.Breakpoints.Registry
import DebugAdapter.Execution.Context
import DebugAdapter.Protocol.Arguments
import DebugAdapter.Protocol.Command
import DebugAdapter.Session.Backend
import DebugAdapter.Session.Event
import DebugAdapter.Variables.Snapshot
/-!
# The state of a session

A `Session` serves one client. Every launch makes a new `Run` of a script. Several parties work on
a session: the handler of requests, and for each run the thread that executes the script and the
starter that waits for breakpoints before it. What a party still has to do is its agenda, a list of
`Duty`s; one duty is one indivisible step.

A run is started once (`started`), says once that it is over (`terminated`) and sends events only
while it is live (`isLive`). Its phase is changed under a lock, which a pausing thread holds until
its stop is published.
-/

namespace DebugAdapter.Session

open Protocol (Event Outgoing Request Resumption)

/-- The number of a run, counted from zero. -/
abbrev RunId := Nat

/-- Who works on a session. -/
inductive Party where
  /-- Handles the requests, one after the other. -/
  | handler
  /-- Starts a run once its breakpoints are there, or it is too late for them. -/
  | starter (r : RunId)
  /-- Executes the script of a run. -/
  | thread (r : RunId)
  deriving DecidableEq, Repr

/-- How far a run is. -/
inductive Phase where
  | launching
  | awaitingBreakpoints
  | running
  | paused
  | terminated
  deriving DecidableEq, Repr, Inhabited

/-- How an execution ended. -/
inductive Ending where
  | outcome (o : Script.Outcome)
  | crash (c : Crash)

/-! ## Duties -/

/-- What any party does to a run. -/
inductive RunDuty where
  /-- Sends an event, if the run is live. -/
  | emit (e : Event)
  /-- Tells the starter to stop waiting. -/
  | cancel
  /-- Ends all events of the run. -/
  | closeGate
  /-- Abandons the execution. -/
  | closeContext
  | setPhase (phase : Phase)
  /-- Sends that the run is over, if nobody did. -/
  | claimTerminated
  /-- Starts the run, if it is live. -/
  | startIfLive
  /-- Starts the run, if nobody did. -/
  | claimStart
  /-- Sets the thread to work. -/
  | spawn
  /-- Sets the starter to work. -/
  | schedule
  | unlock
  | setStepMode (on : Bool)
  | setLines (lines : List UInt32)
  /-- Takes back the references of the snapshot. -/
  | invalidate
  /-- Releases the waiting thread, or the next wait. -/
  | signal

/-- What the starter of a run does. -/
inductive StarterDuty where
  /-- Fixes the deadline. -/
  | begin
  /-- Looks whether there still is something to start. -/
  | lookRun (deadline : Nat)
  /-- Looks for breakpoints. -/
  | lookEntry (deadline : Nat)
  /-- Looks whether it is too late for breakpoints. -/
  | lookClock (deadline : Nat)
  /-- Sleeps until it is time to look again, or the starter is cancelled. -/
  | sleep (wake deadline : Nat)

/-- What the handler does to a run for a request. -/
inductive RequestDuty where
  /-- Answers, and then starts the run if nobody did. -/
  | answerThenStart (answer : Outgoing)
  | resume (request : Request) (how : Resumption)
  | pause (request : Request)
  | showFrames (request : Request)
  | showVariables (request : Request) (reference : Int)
  | assign (request : Request) (args : Protocol.AssignmentArguments)
  | evaluate (request : Request) (expression : String)
  /-- Answers with an evaluated value. -/
  | showValue (request : Request) (value : Json)

/-- What the thread of a run does. -/
inductive ThreadDuty where
  /-- Arrives before the next statement, or at the end of the script. -/
  | reach
  /-- Stalls until more than `since` releases were given. -/
  | stall (since : Nat)
  /-- Asks whether to suspend, unless the engine crashes. -/
  | enter
  | checkClosed
  | checkStep
  | checkLine
  /-- Suspends, unless the run was abandoned. -/
  | suspend
  /-- Takes the lock of the phase. -/
  | lock
  | checkLive
  /-- Takes the request to pause, if there is one. -/
  | takePending
  | readStep (pending : Bool)
  | readLine (pending stepping : Bool)
  /-- Looks for a template to write instead of stopping. -/
  | readTemplate
  | capture
  | markPaused
  /-- Waits for the client. -/
  | park
  /-- Takes over the values that the client changed. -/
  | takeOverrides
  /-- Executes the next statement. -/
  | perform
  | conclude (ending : Ending)

/-- What the handler does to the session. -/
inductive SessionDuty where
  | handle (request : Request)
  | send (m : Outgoing)
  /-- Says that nothing runs, if no run is there to say so and nobody did. -/
  | reportTermination
  /-- Makes a run for a launch. -/
  | openRun (request : Request) (args : Protocol.LaunchArguments)
  | replaceBreakpoints (request : Request) (args : Protocol.BreakpointArguments)
  /-- Passes new breakpoints on to the current run, if they are for it. -/
  | passOn (replaced : Replaced) (answer : Outgoing)
  | clearRegistry
  /-- Lets go of the current run for good. -/
  | shutdown

/-- One indivisible step of a party. -/
inductive Duty where
  | session (d : SessionDuty)
  | run (r : RunId) (d : RunDuty)
  | starter (r : RunId) (d : StarterDuty)
  | request (r : RunId) (d : RequestDuty)
  | thread (r : RunId) (d : ThreadDuty)

/-! ## Runs and sessions -/

/-- One launched execution of a script. -/
structure Run where
  /-- The key of the script. -/
  key : String
  /-- The path that the client is shown. -/
  clientPath : String
  context : Context
  phase : Phase := .launching
  /-- Who holds the lock of the phase. -/
  lock : Option Party := none
  snapshot : Snapshot := {}
  /-- Whether the run sends events. -/
  isLive : Bool := true
  started : Bool := false
  /-- Whether somebody said, or is about to say, that the run is over. -/
  terminated : Bool := false
  /-- Whether a request to pause was accepted that no stop has answered. -/
  pausePending : Bool := false
  /-- Whether the starter is to stop waiting. -/
  cancelled : Bool := false
  /-- The statements not yet executed. -/
  rest : Script.Program
  vars : Json.Fields
  /-- What was written to each channel since its last line feed. -/
  held : Channel → Bytes := fun _ => []
  starter : List Duty := []
  thread : List Duty := []

/-- Whether nobody holds the lock of the phase. -/
def Run.isFree (run : Run) : Bool :=
  run.lock.isNone

/-- All that a session holds. -/
structure State where
  registry : Registry := {}
  runs : List Run := []
  /-- The run that requests are about. -/
  current : Option RunId := none
  /-- The arguments of the last launch. -/
  launch : Option Protocol.LaunchArguments := none
  disconnected : Bool := false
  /-- Whether the client was told that nothing runs when there was no run. -/
  terminatedWithoutRun : Bool := false
  /-- The messages for the client, in order. -/
  outbox : List Outgoing := []
  /-- The time in milliseconds. -/
  clock : Nat := 0
  /-- How often stalled executions were released. -/
  releases : Nat := 0
  handler : List Duty := []

/-- What a session looks like from outside. -/
inductive Status where
  | idle
  | active (phase : Phase)
  | disconnected
  deriving DecidableEq, Repr

namespace State

/-- The current run. -/
def currentRun? (s : State) : Option (RunId × Run) :=
  s.current.bind fun r => (s.runs[r]?).map fun run => (r, run)

/-- What the session looks like from outside. -/
def status (s : State) : Status :=
  if s.disconnected then .disconnected
  else match s.currentRun? with
    | some (_, run) => .active run.phase
    | none => .idle

/-- Gives run `r` a new state. -/
def setRun (s : State) (r : RunId) (run : Run) : State :=
  { s with runs := s.runs.set r run }

/-- Queues messages for the client. -/
def send (s : State) (ms : List Outgoing) : State :=
  { s with outbox := s.outbox ++ ms }

/-- What a party still has to do. -/
def agenda (s : State) : Party → List Duty
  | .handler => s.handler
  | .starter r => ((s.runs[r]?).map Run.starter).getD []
  | .thread r => ((s.runs[r]?).map Run.thread).getD []

/-- Gives a party something else to do. -/
def setAgenda (s : State) (p : Party) (ds : List Duty) : State :=
  match p with
  | .handler => { s with handler := ds }
  | .starter r => { s with runs := s.runs.modify r fun run => { run with starter := ds } }
  | .thread r => { s with runs := s.runs.modify r fun run => { run with thread := ds } }

/-- All parties: the handler, then the starters, then the threads. -/
def parties (s : State) : List Party :=
  let ids := List.range s.runs.length
  .handler :: (ids.map .starter ++ ids.map .thread)

end State

/-- What a step leaves of the run that it is about: the run, what its party has to do next, and
what was sent. -/
structure Done where
  run : Run
  next : List Duty := []
  sent : List Outgoing := []

/-- What a party does to abandon run `r`: nothing is sent afterwards, and its execution ends. -/
def abandon (r : RunId) : List Duty :=
  [.run r .cancel, .run r .closeGate, .run r .closeContext, .run r (.setPhase .terminated)]

end DebugAdapter.Session
