import DebugAdapter.Breakpoints.Registry
import DebugAdapter.Protocol.Command
import DebugAdapter.Session.Event
import DebugAdapter.Variables.Snapshot
/-!
# Answers

What responses carry, by what was asked for.
-/

namespace DebugAdapter.Session

open Protocol (Resumption)

/-- What the adapter supports, and what not. -/
def capabilities : List (String × Bool) := [
  ("supportsConfigurationDoneRequest", true),
  ("supportsEvaluateForHovers", true),
  ("supportsStepBack", false),
  ("supportsSetVariable", true),
  ("supportsRestartFrame", false),
  ("supportsGotoTargetsRequest", false),
  ("supportsStepInTargetsRequest", false),
  ("supportsCompletionsRequest", false),
  ("supportsModulesRequest", false),
  ("supportsRestartRequest", true),
  ("supportsExceptionOptions", false),
  ("supportsValueFormattingOptions", false),
  ("supportsExceptionInfoRequest", false),
  ("supportTerminateDebuggee", true),
  ("supportsDelayedStackTraceLoading", false),
  ("supportsLoadedSourcesRequest", false),
  ("supportsLogPoints", true),
  ("supportsTerminateThreadsRequest", false),
  ("supportsSetExpression", false),
  ("supportsTerminateRequest", true),
  ("supportsDataBreakpoints", false),
  ("supportsConditionalBreakpoints", false),
  ("supportsHitConditionalBreakpoints", false)]

/-- What is answered for the capabilities. -/
def capabilitiesBody : Json :=
  Json.mk ((capabilities.map fun c => (c.1, Json.bool c.2)) ++
    [("exceptionBreakpointFilters", .array [])])

/-- What is answered for breakpoints on exceptions, of which there are none. -/
def exceptionsBody : Json :=
  Json.mk [("breakpoints", .array [])]

/-- What is answered for breakpoints. -/
def breakpointsBody (breakpoints : List Breakpoint) : Json :=
  Json.mk [("breakpoints", .array (breakpoints.map Breakpoint.toJson))]

/-- What is answered when a script is let go on. -/
def resumeBody (how : Resumption) : Option Json :=
  if how = .proceed then some (Json.mk [("allThreadsContinued", .bool true)]) else none

/-- What is answered for stack frames. -/
def framesBody (frames : List StackFrame) : Json :=
  Json.mk [("stackFrames", .array (frames.map StackFrame.toJson)),
    ("totalFrames", Json.ofNat frames.length)]

/-- A scope as a value. -/
def scopeJson (name : String) (reference : Nat) : Json :=
  Json.mk [("name", .string name), ("variablesReference", Json.ofNat reference),
    ("expensive", .bool false)]

/-- What is answered for scopes. -/
def scopesBody : Json :=
  Json.mk [("scopes", .array [scopeJson "Local" Snapshot.localScope,
    scopeJson "Global" Snapshot.globalScope])]

/-- What is answered for variables. -/
def variablesBody (vars : List Variable) : Json :=
  Json.mk [("variables", .array (vars.map Variable.toJson))]

/-- What is answered for a variable that was set. -/
def assignmentBody (v : Variable) : Json :=
  Json.mk [("value", .string v.value), ("type", .string v.typeName),
    ("variablesReference", Json.ofNat v.reference)]

/-- What is answered for threads. -/
def threadsBody : Json :=
  Json.mk [("threads", .array [Json.mk [("id", Json.ofNat threadId),
    ("name", .string "Magic Script Main Thread")]])]

/-- What is answered for an expression. -/
def evaluationBody (result typeName : String) (reference : Nat) : Json :=
  Json.mk [("result", .string result), ("type", .string typeName),
    ("variablesReference", Json.ofNat reference)]

/-- What is answered for an expression that has no value. -/
def evaluationFailure (text : String) : Json :=
  evaluationBody text "error" 0

end DebugAdapter.Session
