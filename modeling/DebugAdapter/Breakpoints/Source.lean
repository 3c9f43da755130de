import DebugAdapter.Json.Decode
/-!
# Sources and requested breakpoints

A `Source` is how a client names a script, and a `SourceBreakpoint` what it asks for on one line.
-/

namespace DebugAdapter

/-- A script as a client names it. -/
structure Source where
  name : Option String := none
  path : Option String := none
  deriving DecidableEq, Repr, Inhabited

/-- A breakpoint that a client asks for. -/
structure SourceBreakpoint where
  line : UInt32
  column : Option UInt32 := none
  /-- A template to write instead of stopping. -/
  logMessage : Option String := none
  deriving DecidableEq, Repr

/-- A source as the client is shown it, without what is missing. -/
def Source.toJson (s : Source) : Json :=
  Json.mk ((s.name.map fun n => ("name", Json.string n)).toList ++
    (s.path.map fun p => ("path", Json.string p)).toList)

/-- Takes a source. -/
def Source.shape : Json.RecordShape Source where
  name := "Source"
  blank := {}
  fields := [
    .of "name" false (.optional .text) fun a r => { r with name := a },
    .of "path" false (.optional .text) fun a r => { r with path := a }]

/-- Takes a requested breakpoint. -/
def SourceBreakpoint.shape : Json.RecordShape SourceBreakpoint where
  name := "SourceBreakpoint"
  blank := { line := 0 }
  fields := [
    .of "line" true .unsigned fun a r => { r with line := a },
    .of "column" false (.optional .unsigned) fun a r => { r with column := a },
    .of "logMessage" false (.optional .text) fun a r => { r with logMessage := a }]

end DebugAdapter
