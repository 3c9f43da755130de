/-!
# Commands

The commands that a client can give, by their names.
-/

namespace DebugAdapter.Protocol

/-- How a client lets a script go on. -/
inductive Resumption where
  | proceed
  | stepOver
  | stepIn
  | stepOut
  deriving DecidableEq, Repr

/-- Whether the script is to stop before the next statement. -/
def Resumption.steps : Resumption → Bool
  | stepOver | stepIn => true
  | proceed | stepOut => false

/-- What a client can ask for. -/
inductive Command where
  | handshake
  | launch
  | configurationDone
  | setBreakpoints
  | setExceptionBreakpoints
  | resume (how : Resumption)
  | pause
  | stackTrace
  | scopes
  | listVariables
  | setVariable
  | threads
  | evaluate
  | restart
  | terminate
  | disconnect
  deriving DecidableEq, Repr

/-- The commands by their names. -/
def Command.names : List (String × Command) := [
  ("initialize", .handshake),
  ("launch", .launch),
  ("configurationDone", .configurationDone),
  ("setBreakpoints", .setBreakpoints),
  ("setExceptionBreakpoints", .setExceptionBreakpoints),
  ("continue", .resume .proceed),
  ("next", .resume .stepOver),
  ("stepIn", .resume .stepIn),
  ("stepOut", .resume .stepOut),
  ("pause", .pause),
  ("stackTrace", .stackTrace),
  ("scopes", .scopes),
  ("variables", .listVariables),
  ("setVariable", .setVariable),
  ("threads", .threads),
  ("evaluate", .evaluate),
  ("restart", .restart),
  ("terminate", .terminate),
  ("disconnect", .disconnect)]

/-- The command with a name. -/
def Command.ofName? (name : String) : Option Command :=
  names.lookup name

end DebugAdapter.Protocol
