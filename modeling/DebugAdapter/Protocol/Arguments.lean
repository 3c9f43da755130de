import DebugAdapter.Breakpoints.Source
import DebugAdapter.Protocol.Error
/-!
# Arguments

The arguments of each command as typed data, and the decoders that take them off the value that a
request carries. `decodeArguments` reads missing arguments as an empty object.
-/

namespace DebugAdapter.Protocol

/-- Decodes the arguments of a command. -/
def decodeArguments {α : Type} (command : String) (d : Json.Decoder α) (v : Json) :
    Except DebugError α :=
  (d (if v.isNull then .object [] else v)).mapError (.badArguments command)

/-! ## Launching -/

/-- The members that may name the script to launch, in the order in which they count. -/
def launchNames : List String :=
  ["program", "fileKey", "programPath", "path", "target"]

/-- The arguments of a launch. -/
structure LaunchArguments where
  /-- The members that may name the script. -/
  named : Json.Fields
  /-- All other members. -/
  other : Json.Fields

/-- Takes the arguments of a launch, which have to be an object. -/
def LaunchArguments.decode : Json.Decoder LaunchArguments
  | .object members =>
    .ok ⟨members.filter fun p => launchNames.contains p.1,
      members.filter fun p => !launchNames.contains p.1⟩
  | v => Json.Decoder.mismatch "struct LaunchArguments" v

/-- The id that a value names a script by: a text that is not blank, or a number. -/
def idText? : Json → Option String
  | .string s => let t := Text.trim s; if t.isEmpty then none else some t
  | .number n => some (String.ofList n.render)
  | _ => none

/-- The id of the script to launch. -/
def LaunchArguments.scriptId? (a : LaunchArguments) : Option String :=
  launchNames.findSome? fun name => (a.named.get? name).bind idText?

/-! ## Breakpoints -/

/-- The arguments for setting breakpoints. -/
structure BreakpointArguments where
  source : Source := {}
  breakpoints : Option (List SourceBreakpoint) := none
  /-- Plain lines, which count when there are no breakpoints. -/
  lines : Option (List UInt32) := none

/-- Takes the arguments for setting breakpoints. -/
def BreakpointArguments.shape : Json.RecordShape BreakpointArguments where
  name := "SetBreakpointsArguments"
  blank := {}
  fields := [
    .of "source" false Source.shape.decode fun a r => { r with source := a },
    .of "breakpoints" false (.optional (.list SourceBreakpoint.shape.decode)) fun a r =>
      { r with breakpoints := a },
    .of "lines" false (.optional (.list .unsigned)) fun a r => { r with lines := a }]

/-- The breakpoints asked for. -/
def BreakpointArguments.requested (a : BreakpointArguments) : List SourceBreakpoint :=
  match a.breakpoints, a.lines with
  | some breakpoints, _ => breakpoints
  | none, some lines => lines.map fun line => { line }
  | none, none => []

/-! ## Threads, variables and expressions -/

/-- The arguments of commands for a thread. -/
structure ThreadArguments where
  threadId : Option Int := none

/-- Takes the arguments of a command for a thread. -/
def ThreadArguments.shape : Json.RecordShape ThreadArguments where
  name := "ThreadArguments"
  blank := {}
  fields := [.of "threadId" false (.optional .signed) fun a r => { r with threadId := a }]

/-- The arguments for listing variables. -/
structure VariablesArguments where
  reference : Int

/-- Takes the arguments for listing variables. -/
def VariablesArguments.shape : Json.RecordShape VariablesArguments where
  name := "VariablesArguments"
  blank := ⟨0⟩
  fields := [.of "variablesReference" true .signed fun a r => { r with reference := a }]

/-- The arguments for setting a variable. -/
structure AssignmentArguments where
  reference : Int
  name : String
  value : String

/-- Takes the arguments for setting a variable. -/
def AssignmentArguments.shape : Json.RecordShape AssignmentArguments where
  name := "SetVariableArguments"
  blank := ⟨0, "", ""⟩
  fields := [
    .of "variablesReference" true .signed fun a r => { r with reference := a },
    .of "name" true .text fun a r => { r with name := a },
    .of "value" true .text fun a r => { r with value := a }]

/-- The arguments for evaluating an expression. -/
structure EvaluationArguments where
  expression : String := ""
  frameId : Option Int := none
  context : Option String := none

/-- Takes the arguments for evaluating an expression. -/
def EvaluationArguments.shape : Json.RecordShape EvaluationArguments where
  name := "EvaluateArguments"
  blank := {}
  fields := [
    .of "expression" false .text fun a r => { r with expression := a },
    .of "frameId" false (.optional .signed) fun a r => { r with frameId := a },
    .of "context" false (.optional .text) fun a r => { r with context := a }]

end DebugAdapter.Protocol
