import DebugAdapter.Output.Channel
import DebugAdapter.Output.LineBuffer
/-!
# Relays

Each channel has a slot with a `Writer`. A relay wraps the writer of a slot for one thread: what
that thread writes goes line by line to the relay's client, and what others write to the wrapped
writer. `Streams.install` puts a relay on both channels, and `Streams.remove` takes it off again,
whatever was wrapped around it in the meantime: a relay that is no longer on top is detached, and
the writer around it skips it when it is taken off itself.

The two parts of an installation, `Streams.wrap` and `Streams.replace`, are steps of their own,
because other threads may use the slots in between.
-/

namespace DebugAdapter

/-- A thread that writes. -/
abbrev ThreadId := Nat

/-- What a slot can hold. -/
inductive Writer where
  /-- Records what it is given. -/
  | recorder (name : String) (id : Nat)
  /-- The relay with this number. -/
  | relay (id : Nat)
  deriving DecidableEq, Repr

/-- A writer that captures what one thread writes to one channel. -/
structure Relay where
  /-- The captured thread. -/
  thread : ThreadId
  /-- The wrapped channel. -/
  channel : Channel
  /-- Who is given the lines. -/
  client : String
  /-- The wrapped writer. -/
  delegate : Writer
  /-- The bytes of the line not yet complete. -/
  held : Bytes := []
  /-- Whether everything is passed on to the wrapped writer. -/
  detached : Bool := false
  deriving DecidableEq, Repr

/-- The slots of both channels and all relays so far, numbered from zero. -/
structure Streams where
  /-- The writer on the slot of each channel. -/
  slot : Channel → Writer
  /-- The relays. -/
  relays : List Relay := []

/-- What reaches the end of a chain of writers. -/
inductive Delivery where
  /-- A client is given a text. -/
  | chunk (client : String) (channel : Channel) (text : String)
  /-- A recorder is given bytes. -/
  | bytes (recorder : String) (channel : Channel) (bytes : Bytes)
  /-- A recorder is flushed. -/
  | flush (recorder : String) (channel : Channel)
  deriving DecidableEq, Repr

/-- A relay on one channel, and the writer whose place it took. -/
structure Wrapping where
  /-- The number of the relay. -/
  relay : Nat
  /-- The writer that the slot held before. -/
  previous : Writer
  deriving DecidableEq, Repr

namespace Streams

/-! ## Slots -/

/-- Puts a writer on a slot. -/
def put (s : Streams) (channel : Channel) (w : Writer) : Streams :=
  { s with slot := fun c => if c = channel then w else s.slot c }

/-- Gives relay `id` a new state. -/
def update (s : Streams) (id : Nat) (f : Relay → Relay) : Streams :=
  { s with relays := s.relays.modify id f }

/-- Puts `w` on a slot; also the writer that was there. -/
def replace (s : Streams) (channel : Channel) (w : Writer) : Writer × Streams :=
  (s.slot channel, s.put channel w)

/-- The first writer along the delegates of `w` that is not detached. Delegates are older than
their relays, so there are no more of them than relays. -/
def attachedFrom (s : Streams) : (fuel : Nat) → Writer → Writer
  | 0, w => w
  | _, .recorder name id => .recorder name id
  | fuel + 1, .relay id =>
    match s.relays[id]? with
    | some r => if r.detached then attachedFrom s fuel r.delegate else .relay id
    | none => .relay id

/-- The first writer along the delegates of `w` that is not detached. -/
def attached (s : Streams) (w : Writer) : Writer :=
  s.attachedFrom (s.relays.length + 1) w

/-- Puts `previous` back on a slot if it still holds `installed`; also whether it did. -/
def restore (s : Streams) (channel : Channel) (installed previous : Writer) : Bool × Streams :=
  if s.slot channel = installed then (true, s.put channel (s.attached previous)) else (false, s)

/-! ## Writing -/

/-- What thread `t` does to a channel. -/
inductive Deed where
  | write (bytes : Bytes)
  | flush
  deriving DecidableEq, Repr

/-- Gives the chunks to the client of a relay. -/
def chunks (r : Relay) (texts : List String) : List Delivery :=
  texts.map (.chunk r.client r.channel)

/-- What comes of a deed at the writer `w`. -/
def deliverFrom (s : Streams) (t : ThreadId) (channel : Channel) (deed : Deed) :
    (fuel : Nat) → Writer → List Delivery × Streams
  | 0, _ => ([], s)
  | _, .recorder name _ =>
    match deed with
    | .write bytes => ([.bytes name channel bytes], s)
    | .flush => ([.flush name channel], s)
  | fuel + 1, .relay id =>
    match s.relays[id]? with
    | none => ([], s)
    | some r =>
      if r.detached ∨ r.thread ≠ t then deliverFrom s t channel deed fuel r.delegate
      else
        match deed with
        | .write bytes =>
          let (lines, held) := LineBuffer.write r.held bytes
          (chunks r lines, s.update id fun r => { r with held := held })
        | .flush => (chunks r (LineBuffer.drain r.held), s.update id fun r => { r with held := [] })

/-- What comes of a deed of thread `t` at a channel. -/
def deliver (s : Streams) (t : ThreadId) (channel : Channel) (deed : Deed) :
    List Delivery × Streams :=
  s.deliverFrom t channel deed (s.relays.length + 1) (s.slot channel)

/-- Writes bytes to a channel. -/
def write (s : Streams) (t : ThreadId) (channel : Channel) (bytes : Bytes) :
    List Delivery × Streams :=
  s.deliver t channel (.write bytes)

/-- Writes a text and a line feed to a channel. -/
def writeLine (s : Streams) (t : ThreadId) (channel : Channel) (text : String) :
    List Delivery × Streams :=
  s.write t channel (Utf8.ofString (text ++ "\n"))

/-- Flushes a channel. -/
def flush (s : Streams) (t : ThreadId) (channel : Channel) : List Delivery × Streams :=
  s.deliver t channel .flush

/-! ## Relays -/

/-- Makes a relay around what a slot holds now; also its number. The slot stays as it is. -/
def wrap (s : Streams) (t : ThreadId) (client : String) (channel : Channel) : Nat × Streams :=
  (s.relays.length,
    { s with relays := s.relays ++ [{ thread := t, channel, client, delegate := s.slot channel }] })

/-- Installs a relay on one channel. -/
def installOn (s : Streams) (t : ThreadId) (client : String) (channel : Channel) :
    Wrapping × Streams :=
  let (id, s) := s.wrap t client channel
  let (previous, s) := s.replace channel (.relay id)
  (⟨id, previous⟩, s)

/-- Gives away what relay `id` holds. -/
def drain (s : Streams) (id : Nat) : List Delivery × Streams :=
  match s.relays[id]? with
  | none => ([], s)
  | some r => (chunks r (LineBuffer.drain r.held), s.update id fun r => { r with held := [] })

/-- Takes a relay off its channel. -/
def removeFrom (s : Streams) (channel : Channel) (w : Wrapping) : List Delivery × Streams :=
  let (given, s) := s.drain w.relay
  let (restored, s) := s.restore channel (.relay w.relay) w.previous
  (given, if restored then s else s.update w.relay fun r => { r with detached := true })

/-- A relay on both channels. -/
structure Installed where
  out : Wrapping
  err : Wrapping
  deriving DecidableEq, Repr

/-- Installs a relay on both channels for thread `t`. -/
def install (s : Streams) (t : ThreadId) (client : String) : Installed × Streams :=
  let (out, s) := s.installOn t client .stdout
  let (err, s) := s.installOn t client .stderr
  (⟨out, err⟩, s)

/-- Gives away what a relay holds on either channel. -/
def flushRelay (s : Streams) (i : Installed) : List Delivery × Streams :=
  let (out, s) := s.drain i.out.relay
  let (err, s) := s.drain i.err.relay
  (out ++ err, s)

/-- Takes a relay off both channels. -/
def remove (s : Streams) (i : Installed) : List Delivery × Streams :=
  let (out, s) := s.removeFrom .stdout i.out
  let (err, s) := s.removeFrom .stderr i.err
  (out ++ err, s)

end Streams

end DebugAdapter
