import DebugAdapter.Output.LineBuffer
import DebugAdapter.Session.Answer
import DebugAdapter.Session.State
import DebugAdapter.Variables.Template
/-!
# Steps on runs

The steps that parties take on a run, by kind of duty: `RunDuty.perform?`, `StarterDuty.perform?`,
`RequestDuty.perform?` and `ThreadDuty.perform?`. A step changes its run, may send something, and
may give its party more to do; it gives nothing when it has to wait, for the lock of the phase, for
a signal or for the time. What a thread writes stays in line buffers of its run, which hold what the
relays of a tap on the streams would.
-/

namespace DebugAdapter.Session

open Protocol (Event Outgoing Request Response Resumption)

/-- An event, if the run is live. -/
def gated (run : Run) (e : Event) : List Outgoing :=
  if run.isLive then [.event e] else []

/-! ## Steps of any party -/

/-- The step of a duty on run `r`. -/
def RunDuty.perform? (r : RunId) (run : Run) : RunDuty → Option Done
  | emit e => some { run, sent := gated run e }
  | cancel => some { run := { run with cancelled := true } }
  | closeGate => some { run := { run with isLive := false } }
  | closeContext => some { run := { run with context := run.context.close } }
  | setPhase phase => if run.isFree then some { run := { run with phase } } else none
  | claimTerminated =>
    if run.terminated then some { run }
    else some {
      run := { run with terminated := true }
      next := [.run r (.emit Session.terminated)] }
  | startIfLive => some { run, next := if run.isLive then [.run r .claimStart] else [] }
  | claimStart =>
    if run.started then some { run }
    else some {
      run := { run with started := true }
      next := [.run r .cancel, .run r (.setPhase .running), .run r .spawn] }
  | spawn => some {
      run := { run with thread := [.run r (.emit (startNote run.clientPath run.key)),
        .thread r .reach] } }
  | schedule => some { run := { run with starter := [.starter r .begin] } }
  | unlock => some { run := { run with lock := none } }
  | setStepMode on => some { run := { run with context := { run.context with stepMode := on } } }
  | setLines lines => some { run := { run with context := { run.context with lines } } }
  | invalidate => some { run := { run with snapshot := run.snapshot.invalidate } }
  | signal => some { run := { run with context := run.context.signal } }

/-! ## Steps of the starter -/

/-- The step of a duty of the starter of run `r`. -/
def StarterDuty.perform? (b : Backend) (s : State) (r : RunId) (run : Run) :
    StarterDuty → Option Done
  | begin => some { run, next := [.starter r (.lookRun (s.clock + b.settings.startTimeout))] }
  | lookRun deadline =>
    some { run, next :=
      if run.started || !run.isLive then [] else [.starter r (.lookEntry deadline)] }
  | lookEntry deadline =>
    some { run, next := if s.registry.hasEntry run.key then [.run r .startIfLive]
      else [.starter r (.lookClock deadline)] }
  | lookClock deadline =>
    if deadline ≤ s.clock then
      some { run, next := [.run r (.emit (lateNote run.clientPath b.settings.startTimeout)),
        .run r .startIfLive] }
    else
      let wait := min b.settings.pollInterval (deadline - s.clock)
      some { run, next := [.starter r (.sleep (s.clock + wait) deadline)] }
  | sleep wake deadline =>
    if run.cancelled then some { run }
    else if wake ≤ s.clock then some { run, next := [.starter r (.lookRun deadline)] }
    else none

/-! ## Steps of the handler -/

/-- The duty to answer a request. -/
def answer (request : Request) (body : Option Json) : Duty :=
  .session (.send (Response.ok request body))

/-- The duties that answer a request which failed. -/
def refuse (request : Request) (e : DebugError) : List Duty :=
  .session (.send (Response.failed request e.message)) ::
    (if e.isFatal then [.session .reportTermination] else [])

/-- The duty to answer a request whose handling crashed. -/
def answerCrash (b : Backend) (request : Request) : Duty :=
  .session (.send (Response.failed request b.crashText))

/-- What is sent besides when a script is let go on. -/
def continuedDuties (r : RunId) (how : Resumption) : List Duty :=
  if how = .proceed then [.run r (.emit continued)] else []

/-- Lets a script go on. A script that was asked to pause and has not stopped yet goes on as if it
had. -/
def resumeStep (r : RunId) (run : Run) (request : Request) (how : Resumption) : Done :=
  let reply := answer request (resumeBody how)
  match run.phase with
  | .paused => {
      run := { run with phase := .running }
      next := [.run r (.setStepMode how.steps), .run r .invalidate, reply] ++
        continuedDuties r how ++ [.run r .signal] }
  | .running =>
    if run.pausePending then {
      run := { run with pausePending := false, lock := some .handler }
      next := [.run r (.setStepMode how.steps), .run r .unlock, reply] ++ continuedDuties r how }
    else { run, next := [reply] }
  | _ => { run, next := [reply] }

/-- Asks a script to pause, if it is running. -/
def pauseStep (r : RunId) (run : Run) (request : Request) : Done :=
  if run.phase = .running then {
    run := { run with pausePending := true, lock := some .handler }
    next := [.run r (.setStepMode true), .run r .unlock, answer request none,
      .run r (.emit (stopped .pause))] }
  else { run, next := [answer request none] }

/-- Sets a variable of a script, if it is paused. -/
def assignStep (run : Run) (request : Request) (args : Protocol.AssignmentArguments) : Done :=
  if run.phase = .paused then
    match run.snapshot.assign args.reference args.name (parseUserValue args.value) with
    | .error e => { run, next := refuse request e }
    | .ok (v, snapshot) => {
        run := { run with snapshot }
        next := [answer request (some (assignmentBody v))] }
  else { run, next := refuse request .notPaused }

/-- Lists variables. -/
def listStep (run : Run) (request : Request) (reference : Int) : Done :=
  match run.snapshot.list reference with
  | .error e => { run, next := refuse request e }
  | .ok (vars, snapshot) => {
      run := { run with snapshot }
      next := [answer request (some (variablesBody vars))] }

/-- Evaluates an expression. -/
def evaluateStep (b : Backend) (r : RunId) (run : Run) (request : Request) (expression : String) :
    Done where
  run := run
  next :=
    match b.engine.evaluate expression run.snapshot.scope with
    | none => [answerCrash b request]
    | some (.error e) => [answer request (some (evaluationFailure ("Error: " ++ e.message)))]
    | some (.ok value) => [.request r (.showValue request value)]

/-- The step of a duty of the handler on run `r`. -/
def RequestDuty.perform? (b : Backend) (r : RunId) (run : Run) : RequestDuty → Option Done
  | answerThenStart m =>
    some { run, next := .session (.send m) :: (if run.started then [] else [.run r .startIfLive]) }
  | resume request how => if run.isFree then some (resumeStep r run request how) else none
  | pause request => if run.isFree then some (pauseStep r run request) else none
  | showFrames request =>
    some { run, next := [answer request (some (framesBody run.snapshot.frames))] }
  | showVariables request reference => some (listStep run request reference)
  | assign request args => if run.isFree then some (assignStep run request args) else none
  | evaluate request expression => some (evaluateStep b r run request expression)
  | showValue request value =>
    let (reference, snapshot) := run.snapshot.referDetached value
    some {
      run := { run with snapshot }
      next := [answer request
        (some (evaluationBody (formatValue value) (typeName value) reference))] }

/-! ## Steps of the thread -/

/-- The stack frame of a script that is about to execute the statement with this span. -/
def frameAt (clientPath : String) (span : Script.Span) : StackFrame where
  id := 1
  name := "Magic Script"
  source := { name := some "magic-script", path := some clientPath }
  line := Script.toClientLine span.startLine
  column := span.startColumn
  endLine := Script.toClientLine span.endLine
  endColumn := span.endColumn

/-- The duties that stop a thread and wait for the client. -/
def stopDuties (r : RunId) (run : Run) (span : Script.Span) (reason : StopReason) : List Duty :=
  [.thread r .capture, .thread r .markPaused, .run r (.emit (stopped reason)),
    .run r (.emit (pauseNote run.clientPath (Table.ofList run.vars) span)),
    .run r .unlock, .thread r .park]

/-- The event that tells how an execution ended; one that was abandoned tells nothing. -/
def endingNote (clientPath : String) : Ending → List Event
  | .outcome (.ok value) => [resultNote clientPath value]
  | .outcome (.error .aborted) => []
  | .outcome (.error e) => [errorNote clientPath e.message]
  | .crash c => [errorNote clientPath c.scriptMessage]

/-- What is written to a channel but not sent yet. -/
def heldNotes (run : Run) (channel : Channel) : List Event :=
  (LineBuffer.drain (run.held channel)).map (written channel)

/-- The duties of a thread whose execution is over. -/
def endDuties (r : RunId) (run : Run) (ending : Ending) : List Duty :=
  (heldNotes run .stdout ++ heldNotes run .stderr ++ endingNote run.clientPath ending).map
      (fun e => .run r (.emit e)) ++
    [.run r (.setPhase .terminated), .run r .claimTerminated]

/-- An execution that ends as abandoned. -/
def aborted : Ending :=
  .outcome (.error .aborted)

/-- Stalls if the engine does so at this line, and then goes on to `duty`. -/
def stallThen (b : Backend) (s : State) (r : RunId) (line : UInt32) (afterCheck : Bool)
    (duty : ThreadDuty) : List Duty :=
  if b.engine.stallsAt line afterCheck then [.thread r (.stall s.releases), .thread r duty]
  else [.thread r duty]

/-- The duties of a thread that is about to execute `line` and was told whether to suspend. -/
def afterCheck (b : Backend) (s : State) (r : RunId) (line : UInt32) (suspends : Bool)
    (otherwise : ThreadDuty) : List Duty :=
  if suspends then stallThen b s r line true .suspend else [.thread r otherwise]

/-- The run after its thread wrote a text, and the lines that it completed. -/
def writeText (run : Run) (channel : Channel) (text : String) : List String × Run :=
  let (lines, held) := LineBuffer.write (run.held channel) (Utf8.ofString text)
  (lines, { run with held := fun c => if c = channel then held else run.held c })

/-- The step of a duty of the thread of run `r` that needs no statement. -/
def ThreadDuty.performIdle? (s : State) (r : RunId) (run : Run) : ThreadDuty → Option Done
  | stall since => if since < s.releases then some { run } else none
  | lock =>
    if run.isFree then
      some { run := { run with lock := some (.thread r) }, next := [.thread r .checkLive] }
    else none
  | checkLive =>
    some { run, next := if run.isLive then [.thread r .takePending]
      else [.run r .unlock, .thread r (.conclude aborted)] }
  | takePending => some {
      run := { run with pausePending := false }
      next := [.thread r (.readStep run.pausePending)] }
  | readStep pending =>
    some { run, next := [.thread r (.readLine pending run.context.stepMode)] }
  | markPaused => some { run := { run with phase := .paused } }
  | suspend =>
    some { run, next := [.thread r (if run.context.isClosed then .conclude aborted else .lock)] }
  | park =>
    match run.context.rendezvous.wait? with
    | none => none
    | some (.closed, _) => some { run, next := [.thread r (.conclude aborted)] }
    | some (.signaled, rendezvous) => some {
        run := { run with context := { run.context with rendezvous } }
        next := [.thread r .takeOverrides] }
  | takeOverrides =>
    let (overrides, snapshot) := run.snapshot.takeOverrides
    some {
      run := { run with snapshot, vars := run.vars.insertAll overrides }
      next := [.thread r .perform] }
  | conclude ending => some {
      run := { run with held := fun _ => [] }
      next := endDuties r run ending }
  | _ => some { run, next := [.thread r (.conclude (.outcome (.ok .null)))] }

/-- The step of a duty of the thread of run `r` before it executes `stmt`. -/
def ThreadDuty.performAt? (b : Backend) (s : State) (r : RunId) (run : Run)
    (stmt : Script.Statement) : ThreadDuty → Option Done
  | reach => some { run, next := stallThen b s r stmt.line false .enter }
  | enter =>
    some { run, next := match b.engine.crashAt? stmt.line with
      | some c => [.thread r (.conclude (.crash c))]
      | none => [.thread r .checkClosed] }
  | checkClosed =>
    some { run, next := afterCheck b s r stmt.line run.context.isClosed .checkStep }
  | checkStep =>
    some { run, next := afterCheck b s r stmt.line run.context.stepMode .checkLine }
  | checkLine =>
    some { run, next := afterCheck b s r stmt.line (run.context.hasBreakpoint stmt.line) .perform }
  | readLine pending stepping =>
    let onBreakpoint := run.context.hasBreakpoint stmt.line
    let reason : StopReason :=
      if pending then .pause else if onBreakpoint then .breakpoint else .step
    some { run, next :=
      if pending || stepping then stopDuties r run stmt.span reason
      else if onBreakpoint then [.thread r .readTemplate]
      else [.run r .unlock, .thread r .perform] }
  | readTemplate =>
    some { run, next :=
      match (s.registry.get? run.key stmt.line).bind LineBreakpoint.logMessage with
      | some template =>
        let text := Template.interpolate template (lookupPath run.vars)
        [.run r .unlock, .run r (.emit (consoleText (text ++ "\n"))), .thread r .perform]
      | none => stopDuties r run stmt.span .breakpoint }
  | capture =>
    some { run := { run with
      snapshot := .capture run.vars [frameAt run.clientPath stmt.span] } }
  | perform =>
    let run := { run with rest := run.rest.tail }
    match stmt.action.perform run.vars with
    | .proceed vars => some { run := { run with vars }, next := [.thread r .reach] }
    | .write channel text =>
      let (lines, run) := writeText run channel text
      some { run, next := (lines.map fun l => .run r (.emit (written channel l))) ++
        [.thread r .reach] }
    | .over o => some { run, next := [.thread r (.conclude (.outcome o))] }
  | d => d.performIdle? s r run

/-- The step of a duty of the thread of run `r`. -/
def ThreadDuty.perform? (b : Backend) (s : State) (r : RunId) (run : Run) (d : ThreadDuty) :
    Option Done :=
  match run.rest with
  | [] => d.performIdle? s r run
  | stmt :: _ => d.performAt? b s r run stmt

end DebugAdapter.Session
