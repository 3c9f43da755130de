import DebugAdapter.Proofs.Breakpoints.Marks
import DebugAdapter.Session.Steps
/-!
# The reference debugger

What a debugged script is to show, told without threads, locks and signals. `debug` runs a program
statement by statement : before each it stops, writes a log message or goes on (`boundary`), and at
each stop it takes the next of the commands that it is given. It gives `Notice`s, and `transcript`
is the events that these are for a client, with what the script writes cut into lines.

It does not matter whether the lines are those of a script or of the instrumented script
(`debug_instrumented`).
-/

namespace DebugAdapter.Session

open Protocol (Event Resumption)

/-! ## Notices -/

/-- What a debugged script shows. -/
inductive Notice where
  /-- It stops before a statement. -/
  | stop (reason : StopReason) (stmt : Script.Statement) (vars : Json.Fields)
  | log (text : String)
  | write (channel : Channel) (text : String)
  | over (outcome : Script.Outcome)

/-- What a debugger does before a statement. -/
inductive Boundary where
  | stop (reason : StopReason)
  | log (text : String)
  | pass

/-- What to do before a statement on a line that carries a mark or none. A step stops everywhere, a
plain breakpoint stops, and a log point writes its message. -/
def boundary (mark : Option Mark) (stepping : Bool) (vars : Json.Fields) : Boundary :=
  match stepping, mark with
  | true, none => .stop .step
  | true, some _ | false, some none => .stop .breakpoint
  | false, some (some template) => .log (Template.interpolate template (lookupPath vars))
  | false, none => .pass

/-- What a statement that is executed shows, and what `go` shows after it. -/
def performed (go : Json.Fields → List Notice) (stmt : Script.Statement) (vars : Json.Fields) :
    List Notice :=
  match stmt.action.perform vars with
  | .proceed vars => go vars
  | .write channel text => .write channel text :: go vars
  | .over outcome => [.over outcome]

/-- Runs a program whose lines carry marks. Each stop takes a command; without one, the program
stays there. -/
def debug (marks : UInt32 → Option Mark) :
    Script.Program → (stepping : Bool) → List Resumption → Json.Fields → List Notice
  | [], _, _, _ => [.over (.ok .null)]
  | stmt :: rest, stepping, cs, vars =>
    match boundary (marks stmt.line) stepping vars with
    | .pass => performed (debug marks rest stepping cs) stmt vars
    | .log text => .log text :: performed (debug marks rest stepping cs) stmt vars
    | .stop reason => .stop reason stmt vars ::
      match cs with
      | [] => []
      | c :: cs => performed (debug marks rest c.steps cs) stmt vars

/-! ## Events -/

/-- What is written to both channels but not shown yet. -/
def drained (held : Channel → Bytes) : List Event :=
  (LineBuffer.drain (held .stdout)).map (written .stdout) ++
    (LineBuffer.drain (held .stderr)).map (written .stderr)

/-- The events of a notice, when `held` was written since the last line feeds. -/
def Notice.events (clientPath : String) (held : Channel → Bytes) : Notice → List Event
  | .stop reason stmt vars =>
    [stopped reason, pauseNote clientPath (Table.ofList vars) stmt.span]
  | .log text => [consoleText (text ++ "\n")]
  | .write channel text =>
    (LineBuffer.write (held channel) (Utf8.ofString text)).1.map (written channel)
  | .over outcome => drained held ++ endingNote clientPath (.outcome outcome) ++ [terminated]

/-- What is held after a notice. -/
def Notice.holds (held : Channel → Bytes) : Notice → Channel → Bytes
  | .write channel text => fun c =>
    if c = channel then (LineBuffer.write (held channel) (Utf8.ofString text)).2 else held c
  | .over _ => fun _ => []
  | _ => held

/-- What is held after notices. -/
def holdsAfter (held : Channel → Bytes) (ns : List Notice) : Channel → Bytes :=
  ns.foldl Notice.holds held

/-- The events of notices. -/
def transcript (clientPath : String) : (held : Channel → Bytes) → List Notice → List Event
  | _, [] => []
  | held, n :: ns => n.events clientPath held ++ transcript clientPath (n.holds held) ns

theorem transcript_append (clientPath : String) (held : Channel → Bytes) (ns ns' : List Notice) :
    transcript clientPath held (ns ++ ns') =
      transcript clientPath held ns ++ transcript clientPath (holdsAfter held ns) ns' := by
  induction ns generalizing held with
  | nil => rfl
  | cons n ns ih =>
    rw [List.cons_append, transcript, ih, transcript, List.append_assoc]
    rfl

/-! ## Instrumented scripts -/

/-- A notice about a script as one about the instrumented script. -/
def Notice.instrumented : Notice → Notice
  | stop reason stmt vars => stop reason stmt.instrumented vars
  | n => n

theorem performed_instrumented {go go' : Json.Fields → List Notice}
    (h : ∀ vars, go' vars = (go vars).map Notice.instrumented) (stmt : Script.Statement)
    (vars : Json.Fields) :
    performed go' stmt.instrumented vars = (performed go stmt vars).map Notice.instrumented := by
  have haction : stmt.instrumented.action = stmt.action := rfl
  rw [performed, performed, haction]
  cases stmt.action.perform vars with
  | proceed vars => exact h vars
  | write channel text => simp [h, Notice.instrumented]
  | _ => simp [Notice.instrumented]

/-- An instrumented script shows what the script shows, one line further down. -/
theorem debug_instrumented {marks marks' : UInt32 → Option Mark} (p : Script.Program)
    (h : ∀ stmt ∈ p, marks' (Script.toInstrumentedLine stmt.line) = marks stmt.line)
    (stepping : Bool) (cs : List Resumption) (vars : Json.Fields) :
    debug marks' (p.map Script.Statement.instrumented) stepping cs vars =
      (debug marks p stepping cs vars).map Notice.instrumented := by
  induction p generalizing stepping cs vars with
  | nil => rfl
  | cons stmt p ih =>
    have ih := ih fun s hs => h s (by simp [hs])
    have hmark : marks' stmt.instrumented.line = marks stmt.line := h stmt (by simp)
    simp only [List.map_cons, debug, hmark]
    cases boundary (marks stmt.line) stepping vars with
    | pass => exact performed_instrumented (ih stepping cs) stmt vars
    | log text =>
      rw [List.map_cons, ← performed_instrumented (ih stepping cs) stmt vars]
      rfl
    | stop reason =>
      cases cs with
      | nil => rfl
      | cons c cs =>
        rw [List.map_cons, ← performed_instrumented (ih c.steps cs) stmt vars]
        rfl

end DebugAdapter.Session
