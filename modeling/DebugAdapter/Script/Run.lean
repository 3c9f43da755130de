import DebugAdapter.Script.Evaluation
/-!
# Running scripts under a debugger

Before each statement a script asks its `Hooks` whether to suspend, and if so hands them the span
of the statement and the variables. They answer with a `Resume`. `Program.run` runs a script to
its end, with the state of the hooks and the texts written on the way.
-/

namespace DebugAdapter.Script

/-- What a debugger sees of a suspended script. -/
structure PausedFrame where
  /-- The statement about to run. -/
  span : Span
  /-- The variables in order. -/
  vars : Bindings Json

/-- How a suspended script goes on. -/
inductive Resume where
  /-- It goes on after giving variables new values. -/
  | proceed (overrides : List (String × Json))
  /-- It ends as aborted. -/
  | abort

/-- A debugger with states `σ`. -/
structure Hooks (σ : Type) where
  /-- Whether to suspend before the statement on a line. -/
  shouldSuspend : σ → UInt32 → Bool
  /-- Suspends a script. -/
  suspend : σ → PausedFrame → Resume × σ

/-- The debugger that never suspends. -/
def Hooks.none : Hooks Unit where
  shouldSuspend _ _ := false
  suspend s _ := (.proceed [], s)

/-- What a run of a script leaves. -/
structure Trace (σ : Type) where
  /-- How the script ended. -/
  outcome : Outcome
  /-- The texts written, in order. -/
  writes : List (Channel × String)
  /-- The state of the debugger. -/
  debugger : σ

/-- Puts a text in front of what was written. -/
def Trace.wrote {σ : Type} (channel : Channel) (text : String) (t : Trace σ) : Trace σ :=
  { t with writes := (channel, text) :: t.writes }

/-- What the hooks make of the boundary before a statement. -/
def Hooks.atBoundary {σ : Type} (hooks : Hooks σ) (debugger : σ) (s : Statement)
    (vars : Json.Fields) : Resume × σ :=
  if hooks.shouldSuspend debugger s.line then hooks.suspend debugger ⟨s.span, vars⟩
  else (.proceed [], debugger)

/-- Runs a script from its initial variables. -/
def Program.run {σ : Type} (hooks : Hooks σ) (debugger : σ) (vars : Json.Fields) :
    Program → Trace σ
  | [] => ⟨.ok .null, [], debugger⟩
  | s :: rest =>
    match hooks.atBoundary debugger s vars with
    | (.abort, debugger) => ⟨.error .aborted, [], debugger⟩
    | (.proceed overrides, debugger) =>
      let vars := vars.insertAll overrides
      match s.action.perform vars with
      | .proceed vars => Program.run hooks debugger vars rest
      | .write channel text => (Program.run hooks debugger vars rest).wrote channel text
      | .over outcome => ⟨outcome, [], debugger⟩

/-! ## Instrumented scripts -/

/-- The line in front of every script that is debugged. -/
def marker : String :=
  "//@magic-debug\n"

/-- How many lines the marker has. -/
def markerLines : UInt32 := 1

/-- The text of a script with the marker in front. -/
def instrument (text : String) : String :=
  marker ++ text

/-- The line of an instrumented script that holds a line of the script; the last line that can be
counted is its own. -/
def toInstrumentedLine (line : UInt32) : UInt32 :=
  if line ≤ 0xFFFFFFFF - markerLines then line + markerLines else 0xFFFFFFFF

/-- The line of a script that a line of the instrumented script holds; the marker counts as line
zero. -/
def toClientLine (line : UInt32) : UInt32 :=
  if markerLines ≤ line then line - markerLines else 0

end DebugAdapter.Script
