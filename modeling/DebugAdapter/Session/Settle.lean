import DebugAdapter.Session.Effort
/-!
# Settling

`State.settle` lets the parties of a session work until all of them are done or wait, and
`State.act` lets something come from outside first. Of several parties that can take a step the
handler comes first, then the starters and then the threads; it is one of the many ways in which
they can take turns.
-/

namespace DebugAdapter.Session.State

/-- The state after the next step of the first party that can take one. -/
def next? (b : Backend) (s : State) : Option State :=
  s.parties.findSome? (s.advance? b)

theorem step_of_next? {b : Backend} {s t : State} (h : s.next? b = some t) : s.Step b t := by
  obtain ⟨p, -, hp⟩ := List.exists_of_findSome?_eq_some h
  exact ⟨p, hp⟩

theorem lighter_of_next? {b : Backend} {s t : State} (h : s.next? b = some t) : t.Lighter s :=
  let ⟨_, hp⟩ := step_of_next? h
  lighter_of_advance? hp

/-- Lets the parties work until all of them are done or wait. -/
def settle (b : Backend) (s : State) : State :=
  match _h : s.next? b with
  | none => s
  | some t => t.settle b
termination_by (s.handling, s.statements, s.weight)
decreasing_by exact lighter_of_next? _h

/-- Lets something come from outside, and the parties work on it. -/
def act (b : Backend) (s : State) (i : Input) : State :=
  (s.accept i).settle b

/-- The messages sent so far, which are taken away. -/
def collect (s : State) : List Protocol.Outgoing × State :=
  (s.outbox, { s with outbox := [] })

/-- When the next starter that sleeps wakes up. -/
def wake? (s : State) : Option Nat :=
  (s.runs.filterMap fun run =>
    match run.starter with
    | .starter _ (.sleep wake _) :: _ => some wake
    | _ => none).min?

end DebugAdapter.Session.State
