import DebugAdapter.Config.Settings
import DebugAdapter.Protocol.Crash
import DebugAdapter.Protocol.Error
import DebugAdapter.Script.Library
import DebugAdapter.Script.Run
/-!
# Backends

A session gets its scripts from a library and runs them on an `Engine`, which is the interpreter
and what may go wrong with it: executions that stall or crash at a statement, a compiler that fails
and expressions that crash the evaluator. All lines here are the client's.
-/

namespace DebugAdapter.Session

/-- Where an execution stalls until it is released. -/
structure Stall where
  line : UInt32
  /-- Whether it stalls only when it is about to suspend, once that is decided. -/
  afterCheck : Bool
  deriving DecidableEq, Repr

/-- How the compiler fails. -/
inductive CompileFault where
  | error (e : Script.ScriptError)
  | crash
  deriving DecidableEq, Repr

/-- The interpreter, and what may go wrong with it. -/
structure Engine where
  stalls : List Stall := []
  /-- The lines at which executions crash. -/
  crashes : List (UInt32 × Crash) := []
  compileFault : Option CompileFault := none
  /-- The expression that crashes the evaluator. -/
  evaluateCrash : Option String := none

namespace Engine

/-- Whether an execution stalls at an instrumented line. -/
def stallsAt (e : Engine) (line : UInt32) (afterCheck : Bool) : Bool :=
  e.stalls.contains ⟨Script.toClientLine line, afterCheck⟩

/-- How an execution crashes at an instrumented line, if it does. -/
def crashAt? (e : Engine) (line : UInt32) : Option Crash :=
  e.crashes.lookup (Script.toClientLine line)

/-- An error with the line that the client knows. -/
def clientError : Script.ScriptError → Script.ScriptError
  | .compile line message => .compile (Script.toClientLine line) message
  | e => e

/-- Compiles a script for debugging; nothing when the compiler crashes. -/
def compile (e : Engine) (text : String) : Option (Except Script.ScriptError Script.Program) :=
  match e.compileFault with
  | some .crash => none
  | some (.error err) => some (.error (clientError err))
  | none => some ((Script.Program.parse (Script.instrument text)).mapError clientError)

/-- Evaluates an expression; nothing when the evaluator crashes. -/
def evaluate (e : Engine) (expression : String) (scope : Json.Fields) : Option Script.Outcome :=
  if e.evaluateCrash = some expression then none
  else some (Script.evaluate expression scope)

end Engine

/-- What a session works with. -/
structure Backend where
  library : Script.Library
  engine : Engine := {}
  settings : Config.DebugSettings := {}
  /-- What a client is told when the handling of its request crashes. -/
  crashText : String

end DebugAdapter.Session
