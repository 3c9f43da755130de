import DebugAdapter.Execution.Rendezvous
import DebugAdapter.Script.Run
/-!
# The debug context

The `Context` of an execution holds what decides whether it suspends before a statement: the live
breakpoint lines, the step flag and whether the execution was abandoned. `Context.suspend` is a
whole suspension: a handler decides at the pause, and an execution that is to wait meets the
client at the rendezvous. The thread of a session does the same in small steps, between which others
get their turn; that these come to what is said here is proved of the session.
-/

namespace DebugAdapter

/-- What decides whether an execution suspends. -/
structure Context where
  /-- The instrumented lines with breakpoints. -/
  lines : List UInt32 := []
  /-- Whether to suspend before every statement. -/
  stepMode : Bool := false
  rendezvous : Rendezvous := {}
  deriving DecidableEq, Repr, Inhabited

namespace Context

/-- Whether the execution was abandoned. -/
def isClosed (c : Context) : Bool :=
  c.rendezvous.closed

/-- Whether a line has a breakpoint. -/
def hasBreakpoint (c : Context) (line : UInt32) : Bool :=
  c.lines.contains line

/-- Whether to suspend before the statement on a line. -/
def shouldSuspend (c : Context) (line : UInt32) : Bool :=
  c.isClosed || c.stepMode || c.hasBreakpoint line

/-- Releases the waiting execution, or the next one to wait. -/
def signal (c : Context) : Context :=
  { c with rendezvous := c.rendezvous.signal }

/-- Abandons the execution. -/
def close (c : Context) : Context :=
  { c with rendezvous := c.rendezvous.close }

/-- What a handler makes of a pause. -/
inductive Decision where
  /-- The execution waits for the client. -/
  | wait
  /-- The execution goes on at once. -/
  | proceed
  /-- The execution ends. -/
  | abort
  deriving DecidableEq, Repr

/-- What happens around a suspension. -/
structure Occasion where
  /-- What the handler decides at the pause. -/
  decision : Decision
  /-- The new values that variables got during the wait. -/
  overrides : List (String × Json)
  /-- What others do to the context while the execution waits. -/
  meanwhile : Context → Context

/-- A call of the handler. -/
inductive Call where
  | pause (span : Script.Span)
  | resume
  deriving DecidableEq, Repr

/-- What a suspension leaves. -/
structure Suspension where
  resume : Script.Resume
  /-- The calls of the handler, in order. -/
  calls : List Call
  context : Context

/-- The end of a wait at the context. -/
def leaveWait (c : Context) (o : Occasion) (paused : Call) : Suspension :=
  match c.rendezvous.wait? with
  | some (.signaled, r) => ⟨.proceed o.overrides, [paused, .resume], { c with rendezvous := r }⟩
  | _ => ⟨.abort, [paused], c⟩

/-- A suspension at `span`. An early signal counts like one given during the wait. -/
def suspend (c : Context) (span : Script.Span) (o : Occasion) : Suspension :=
  let paused := Call.pause span
  if c.isClosed then ⟨.abort, [], c⟩
  else
    let c := o.meanwhile c
    match o.decision with
    | .proceed => ⟨.proceed [], [paused], c⟩
    | .abort => ⟨.abort, [paused], c⟩
    | .wait => c.leaveWait o paused

end Context

end DebugAdapter
