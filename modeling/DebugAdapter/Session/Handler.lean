import DebugAdapter.Session.Steps
/-!
# The handler

How requests are handled. `handle` turns a request into the duties of the handler, and
`SessionDuty.perform?` is the step of a duty on the session. The answer to a request is sent before
what else it brings about, apart from a launch, which is answered last.
-/

namespace DebugAdapter.Session

open Protocol (Command Request Response)
open Protocol (AssignmentArguments BreakpointArguments EvaluationArguments LaunchArguments
  ThreadArguments VariablesArguments)

/-- What a step leaves of the session, and what its party has to do next. -/
abbrev Handled := State × List Duty

/-- The duties for a request with its decoded arguments, which is refused if it has no such
arguments. -/
def withArguments {α : Type} (request : Request) (d : Json.Decoder α) (duties : α → List Duty) :
    List Duty :=
  match Protocol.decodeArguments request.command d request.arguments with
  | .ok args => duties args
  | .error e => refuse request e

/-- The duties to end a run that the client has no more interest in; without a run, the client is
told that nothing runs. -/
def tearDown : Option RunId → List Duty
  | some r => .run r .claimTerminated :: abandon r
  | none => [.session .reportTermination]

/-- The duties that abandon a run, if there is one. -/
def abandonAny : Option RunId → List Duty
  | some r => abandon r
  | none => []

namespace State

/-- Gives up the current run for a launch with these arguments. -/
def relaunch (s : State) (request : Request) (args : LaunchArguments) : Handled :=
  ({ s with launch := some args, terminatedWithoutRun := false, current := none },
    abandonAny s.current ++ [.session (.openRun request args)])

/-- The duties for a request about the current run, if there is one. -/
def forCurrent (s : State) (duty : RequestDuty) (otherwise : List Duty) : List Duty :=
  match s.current with
  | some r => [.request r duty]
  | none => otherwise

/-- Handles a command. -/
def handle (s : State) (request : Request) : Command → Handled
  | .handshake => (s, [answer request (some capabilitiesBody)])
  | .launch =>
    match Protocol.decodeArguments request.command LaunchArguments.decode request.arguments with
    | .ok args => s.relaunch request args
    | .error e => (s, refuse request e)
  | .restart =>
    match s.launch with
    | some args => s.relaunch request args
    | none => (s, refuse request .notLaunched)
  | .configurationDone => (s, [answer request none])
  | .setBreakpoints =>
    (s, withArguments request BreakpointArguments.shape.decode fun args =>
      [.session (.replaceBreakpoints request args)])
  | .setExceptionBreakpoints => (s, [answer request (some exceptionsBody)])
  | .resume how =>
    (s, withArguments request ThreadArguments.shape.decode fun _ =>
      s.forCurrent (.resume request how) [answer request (resumeBody how)])
  | .pause => (s, s.forCurrent (.pause request) [answer request none])
  | .stackTrace =>
    (s, s.forCurrent (.showFrames request) [answer request (some (framesBody []))])
  | .scopes => (s, [answer request (some scopesBody)])
  | .listVariables =>
    (s, withArguments request VariablesArguments.shape.decode fun args =>
      s.forCurrent (.showVariables request args.reference)
        (match ({} : Snapshot).list args.reference with
          | .ok (vars, _) => [answer request (some (variablesBody vars))]
          | .error e => refuse request e))
  | .setVariable =>
    (s, withArguments request AssignmentArguments.shape.decode fun args =>
      s.forCurrent (.assign request args) (refuse request .notLaunched))
  | .threads => (s, [answer request (some threadsBody)])
  | .evaluate =>
    (s, withArguments request EvaluationArguments.shape.decode fun args =>
      s.forCurrent (.evaluate request args.expression)
        [answer request (some (evaluationFailure "Debug context not available"))])
  | .terminate =>
    (s, answer request none :: tearDown s.current ++ [.session .clearRegistry])
  | .disconnect =>
    ({ s with disconnected := true, current := none },
      answer request none :: tearDown s.current ++
        [.session .clearRegistry, .session .shutdown])

/-- The id of the script that a request launches, if it launches one. -/
def launchedId? (s : State) (request : Request) : Option String :=
  match Command.ofName? request.command with
  | some .launch =>
    match Protocol.decodeArguments request.command LaunchArguments.decode request.arguments with
    | .ok args => args.scriptId?
    | .error _ => none
  | some .restart => s.launch.bind LaunchArguments.scriptId?
  | _ => none

/-- Makes a run of a compiled script and takes it for the current one. -/
def openRun (s : State) (request : Request) (script : Script.StoredScript) (key : String)
    (program : Script.Program) : Handled :=
  let r := s.runs.length
  let run : Run := {
    key
    clientPath := SourceKey.clientPath key
    context := { lines := s.registry.lines key }
    rest := program
    vars := script.request.environment }
  ({ s with runs := s.runs ++ [run], current := some r },
    [.run r (.emit initialized), .run r (.setPhase .awaitingBreakpoints), .run r .schedule,
      answer request none])

/-- Finds and compiles the script of a launch, and makes a run of it. -/
def prepare (b : Backend) (s : State) (request : Request) (args : LaunchArguments) : Handled :=
  match args.scriptId? with
  | none => (s, refuse request .noScriptNamed)
  | some id =>
    match b.library.resolve id with
    | .error e => (s, refuse request (.unresolved e))
    | .ok none => (s, refuse request (.scriptNotFound id))
    | .ok (some script) =>
      match b.engine.compile script.text with
      | none => (s, [answerCrash b request])
      | some (.error e) => (s, refuse request (.script e))
      | some (.ok program) =>
        s.openRun request script (SourceKey.normalize (script.name ++ Script.scriptExtension))
          program

/-- Passes new breakpoints on to the current run, if it is live and they are for it. -/
def passOn (s : State) (replaced : Replaced) (message : Protocol.Outgoing) : List Duty :=
  match s.currentRun? with
  | some (r, run) =>
    if run.isLive && replaced.matches run.key then
      [.run r (.setLines replaced.lines), .request r (.answerThenStart message)]
    else [.session (.send message)]
  | none => [.session (.send message)]

end State

/-- The step of a duty on the session. -/
def SessionDuty.perform (b : Backend) (s : State) : SessionDuty → Handled
  | handle request =>
    match Command.ofName? request.command with
    | some command => s.handle request command
    | none => (s, refuse request (.unknownCommand request.command))
  | send m => (s.send [m], [])
  | reportTermination =>
    if s.terminatedWithoutRun then (s, [])
    else ({ s with terminatedWithoutRun := true }.send [.event terminated], [])
  | openRun request args => s.prepare b request args
  | replaceBreakpoints request args =>
    let (replaced, registry) := s.registry.replace args.source args.requested
    ({ s with registry }, [.session (.passOn replaced
      (Response.ok request (some (breakpointsBody replaced.breakpoints))))])
  | passOn replaced message => (s, s.passOn replaced message)
  | clearRegistry => ({ s with registry := s.registry.clear }, [])
  | shutdown =>
    ({ s with disconnected := true, current := none },
      abandonAny s.current ++ [.session .clearRegistry])

end DebugAdapter.Session
