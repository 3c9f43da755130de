import DebugAdapter.Json.Decode
import DebugAdapter.Script.Library
import DebugAdapter.Script.Statement
import DebugAdapter.Text.Redacted
/-!
# Failed requests

A `DebugError` says why a request failed. Its message is what the client is shown; values that the
client sent are redacted in it. After a fatal error the launched session cannot go on.
-/

namespace DebugAdapter

/-- Why a request failed. -/
inductive DebugError where
  /-- A launch names no script. -/
  | noScriptNamed
  /-- There is no script with this id. -/
  | scriptNotFound (id : String)
  /-- The script could not be loaded. -/
  | unresolved (error : Script.ResolveError)
  /-- The script could not be compiled. -/
  | script (error : Script.ScriptError)
  /-- No script was launched. -/
  | notLaunched
  /-- The arguments of a command cannot be decoded. -/
  | badArguments (command : String) (error : Json.DecodeError)
  /-- A variable was to be set while the script was not paused. -/
  | notPaused
  /-- An item of a list was named by something other than an index. -/
  | badIndex (name : String)
  /-- An evaluated value was to be modified. -/
  | readOnly
  /-- There is no place of this name to assign to. -/
  | unassignable (name : String)
  /-- The reference was not handed out. -/
  | unknownReference (reference : Int)
  /-- There is no such command. -/
  | unknownCommand (name : String)
  deriving DecidableEq, Repr

namespace DebugError

/-- The words for an error. -/
def message : DebugError → String
  | noScriptNamed =>
    "invalid launch configuration: launch requires `program` (or `fileKey`, `programPath`, " ++
      "`path`, `target`)"
  | scriptNotFound id => "script not found: " ++ id
  | unresolved e => "failed to load script: " ++ e.message
  | script e => e.message
  | notLaunched => "no script has been launched"
  | badArguments command e => "invalid " ++ command ++ " arguments: " ++ Text.redact e.message
  | notPaused => "variables can only be set while the script is paused"
  | badIndex name => "invalid index `" ++ name ++ "`"
  | readOnly => "evaluated values cannot be modified"
  | unassignable name => "cannot assign `" ++ name ++ "` here"
  | unknownReference r => "unknown variablesReference " ++ toString r
  | unknownCommand name => "Unknown command: " ++ name

/-- Whether the launched session cannot go on. -/
def isFatal : DebugError → Bool
  | scriptNotFound _ | unresolved _ | script _ => true
  | _ => false

end DebugError

end DebugAdapter
