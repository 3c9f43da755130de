import DebugAdapter.Output.Channel
import DebugAdapter.Protocol.Message
import DebugAdapter.Script.Statement
/-!
# Events

The events that a client is sent. What the adapter has to say about a script goes to the console as
a line of JSON, an envelope with the name of what happened, the path of the script and some data.
-/

namespace DebugAdapter.Session

open Protocol (Event)

/-- The only thread of a script. -/
def threadId : Nat := 1

/-- Why a script stopped. -/
inductive StopReason where
  | breakpoint
  | step
  | pause
  deriving DecidableEq, Repr

/-- The name of a reason. -/
def StopReason.name : StopReason → String
  | breakpoint => "breakpoint"
  | step => "step"
  | pause => "pause"

/-- A launched script waits for its breakpoints. -/
def initialized : Event :=
  ⟨"initialized", none⟩

/-- A script is over. -/
def terminated : Event :=
  ⟨"terminated", none⟩

/-- A script stopped. -/
def stopped (reason : StopReason) : Event :=
  ⟨"stopped", some (Json.mk [("reason", .string reason.name), ("threadId", Json.ofNat threadId),
    ("allThreadsStopped", .bool true)])⟩

/-- A script goes on. -/
def continued : Event :=
  ⟨"continued", some (Json.mk [("threadId", Json.ofNat threadId),
    ("allThreadsContinued", .bool true)])⟩

/-- A text of some category. -/
def output (category text : String) : Event :=
  ⟨"output", some (Json.mk [("category", .string category), ("output", .string text)])⟩

/-- A text that a script wrote. -/
def written (channel : Channel) (text : String) : Event :=
  output channel.category text

/-- A text for the console. -/
def consoleText (text : String) : Event :=
  output "console" text

/-- An envelope for the console; data that is `null` is left out. -/
def console (clientPath name : String) (data : Json) : Event :=
  let envelope := [("event", Json.string name), ("source", .string clientPath)] ++
    (if data.isNull then [] else [("data", data)])
  consoleText ((Json.mk envelope).render ++ "\n")

/-- A span as a value. -/
def spanJson (span : Script.Span) : Json :=
  .array (span.toList.map fun n => Json.ofNat n.toNat)

/-- A script started. -/
def startNote (clientPath key : String) : Event :=
  console clientPath "start" (Json.mk [("normalizedSource", .string key)])

/-- A script paused. -/
def pauseNote (clientPath : String) (vars : Json.Fields) (span : Script.Span) : Event :=
  console clientPath "pause" (Json.mk [("variables", .object vars), ("range", spanJson span)])

/-- A script ended with a value. -/
def resultNote (clientPath : String) (value : Json) : Event :=
  console clientPath "result" value

/-- A script ended with an error. -/
def errorNote (clientPath message : String) : Event :=
  console clientPath "error" (Json.mk [("message", .string message)])

/-- A script was started without its breakpoints. -/
def lateNote (clientPath : String) (waited : Nat) : Event :=
  consoleText ("Breakpoints for " ++ clientPath ++ " were not received within " ++
    toString waited ++ "ms; starting without them.\n")

end DebugAdapter.Session
