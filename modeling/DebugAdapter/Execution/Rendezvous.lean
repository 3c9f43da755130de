/-!
# The rendezvous

A script that pauses waits at a `Rendezvous` until it is signaled. A signal that comes early is
kept as a permit, each signal lets one wait pass, and once the rendezvous is closed every wait
ends at once.

`Crowd` is a rendezvous with any number of waiters, each looking at it, asleep or gone; `Crowd.Step`
is one step of one of them or of a party that signals or closes.
-/

namespace DebugAdapter

/-- Why a wait ended. -/
inductive Wake where
  | signaled
  | closed
  deriving DecidableEq, Repr

/-- Where a paused script and the client meet. -/
structure Rendezvous where
  /-- The signals that no wait has taken yet. -/
  permits : Nat := 0
  /-- Whether all waits end at once. -/
  closed : Bool := false
  deriving DecidableEq, Repr, Inhabited

namespace Rendezvous

/-- The most permits that are counted. -/
def maxPermits : Nat := 0xFFFFFFFFFFFFFFFF

/-- Lets one wait pass. -/
def signal (r : Rendezvous) : Rendezvous :=
  if r.closed then r else { r with permits := min (r.permits + 1) maxPermits }

/-- Lets a wait pass `n` times. -/
def signalTimes : (n : Nat) → Rendezvous → Rendezvous
  | 0, r => r
  | n + 1, r => signalTimes n r.signal

/-- Ends all waits. -/
def close (_ : Rendezvous) : Rendezvous :=
  { permits := 0, closed := true }

/-- How a wait that looks now ends; nothing if it has to sleep. -/
def wait? (r : Rendezvous) : Option (Wake × Rendezvous) :=
  if r.closed then some (.closed, r)
  else if 0 < r.permits then some (.signaled, { r with permits := r.permits - 1 })
  else none

end Rendezvous

/-! ## Many waiters -/

/-- Where a waiter is. -/
inductive Waiter where
  /-- About to look, having arrived or been woken. -/
  | looking
  /-- Asleep until woken. -/
  | asleep
  /-- Gone. -/
  | left (wake : Wake)
  deriving DecidableEq, Repr

/-- A rendezvous and everyone who ever waited at it. -/
structure Crowd where
  rendezvous : Rendezvous := {}
  waiters : List Waiter := []
  /-- How many signals were given before the rendezvous was closed. -/
  signals : Nat := 0
  deriving DecidableEq, Repr, Inhabited

namespace Crowd

/-- What a party can do. -/
inductive Move where
  /-- A new waiter arrives. -/
  | arrive
  /-- Waiter `i` looks at the rendezvous, and leaves or falls asleep. -/
  | look (i : Nat)
  /-- A signal is given, which wakes waiter `wakes` if it wakes any. -/
  | signal (wakes : Option Nat)
  /-- The rendezvous is closed, which wakes everyone. -/
  | close
  deriving DecidableEq, Repr

/-- A waiter that is no longer asleep. -/
def woken : Waiter → Waiter
  | .asleep => .looking
  | w => w

/-- Whether a signal may wake exactly `wakes`: one who sleeps, or nobody if nobody sleeps. -/
def mayWake (c : Crowd) : Option Nat → Bool
  | some i => c.waiters[i]? == some .asleep
  | none => !c.waiters.contains .asleep

/-- The crowd after a move, if the move can be made. -/
def move? (c : Crowd) : Move → Option Crowd
  | .arrive => some { c with waiters := c.waiters ++ [.looking] }
  | .look i =>
    if c.waiters[i]? = some .looking then
      match c.rendezvous.wait? with
      | some (wake, r) => some { c with rendezvous := r, waiters := c.waiters.set i (.left wake) }
      | none => some { c with waiters := c.waiters.set i .asleep }
    else none
  | .signal wakes =>
    if c.rendezvous.closed then some c
    else if c.mayWake wakes then
      some { rendezvous := c.rendezvous.signal, signals := c.signals + 1
             waiters := match wakes with
               | some i => c.waiters.modify i woken
               | none => c.waiters }
    else none
  | .close => some { c with rendezvous := c.rendezvous.close, waiters := c.waiters.map woken }

/-- One step of one party. -/
def Step (c d : Crowd) : Prop :=
  ∃ m, c.move? m = some d

/-- The crowd after moves, if all of them can be made. -/
def moves? (c : Crowd) : List Move → Option Crowd
  | [] => some c
  | m :: ms => (c.move? m).bind fun d => d.moves? ms

end Crowd

end DebugAdapter
