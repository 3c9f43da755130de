import DebugAdapter.Text.Redacted
/-!
# Crashes

When a part of the adapter crashes, the rest goes on. A `Crash` is what is known about it: a
message, or nothing. `Crash.notice` is what the user is told when nobody caught it.
-/

namespace DebugAdapter

/-- What is known about a crash: its message, if it left one. -/
abbrev Crash := Option String

/-- What the user is told. Values in the message are redacted. -/
def Crash.notice (c : Crash) : String :=
  "magic-dap encountered an internal error: " ++
    Text.redact (c.getD "panic payload (non-string)")

/-- What the client is told when a script crashed. -/
def Crash.scriptMessage : Crash → String
  | some detail => "script execution panicked: " ++ detail
  | none => "script execution panicked"

end DebugAdapter
