import DebugAdapter.Protocol.Frame
import DebugAdapter.Session.Settle
/-!
# Servers

A `Server` serves one client over a stream of bytes: it reads requests, has its session handle them
one after the other, and writes what the session sends, numbered in that order. It ends when the
client disconnects, when the stream ends and when a frame cannot be read; what was sent until then
is written before the stream is closed.

The reader, the writer and the parties of the session take turns in any order, each step a
`Server.Move`. `Server.serve` is one such order: the session settles, all of its messages are
written, and the next message is read.
-/

namespace DebugAdapter

open Protocol (Feed FrameError Outgoing Request)

/-- How a server ended: well, or because of a frame. -/
abbrev ServerOutcome := Except FrameError Unit

/-- What serves one client. -/
structure Server where
  session : Session.State := {}
  /-- What the client sends. -/
  feed : Feed := ⟨[], true⟩
  /-- The messages written, as values. -/
  written : List Json := []
  /-- How the reading of requests ended, once it did. -/
  outcome : Option ServerOutcome := none
  /-- Whether no more is written. -/
  isClosed : Bool := false

namespace Server

/-- What a client is told when the handling of its request crashes. -/
def crashText : String :=
  "Internal error (panic). The adapter will continue in safe-mode."

/-! ## Steps -/

/-- Has the session handle a message, if it is a request; others are ignored. -/
def deliver (s : Server) (message : Json) : Server :=
  if Protocol.isRequest message then
    match Request.shape.decode message with
    | .ok request => { s with session := s.session.accept (.request request) }
    | .error _ => s
  else s

/-- Stops reading; the session lets go of what runs. -/
def stop (s : Server) (outcome : ServerOutcome) : Server :=
  { s with outcome := some outcome, session := s.session.accept .hangUp }

/-- Reads the next message when the last request is handled; nothing when none has come yet, and
after the end. -/
def read? (s : Server) : Option Server :=
  if s.outcome.isSome || !s.session.handler.isEmpty then none
  else if s.session.disconnected then some { s with outcome := some (.ok ()) }
  else
    match Protocol.Frame.readValue s.feed with
    | .ok (some (message, feed)) => some ({ s with feed }.deliver message)
    | .ok none => some (s.stop (.ok ()))
    | .error (.failed e) => some (s.stop (.error e))
    | .error .starved => none

/-- Writes the next message of the session. -/
def write? (s : Server) : Option Server :=
  match s.isClosed, s.session.outbox with
  | false, m :: ms => some {
      s with
      session := { s.session with outbox := ms }
      written := s.written ++ [m.toJson (s.written.length + 1)] }
  | _, _ => none

/-- Closes the stream once the session let go of everything and all its messages are written. -/
def close? (s : Server) : Option Server :=
  if s.outcome.isSome && s.session.handler.isEmpty && s.session.outbox.isEmpty && !s.isClosed then
    some { s with isClosed := true }
  else none

/-- What moves a server: its reader, its writer, and the parties of its session. -/
inductive Move where
  | read
  | write
  | close
  | work (p : Session.Party)
  deriving DecidableEq, Repr

/-- The server after a move, if it can be made. -/
def move? (b : Session.Backend) (s : Server) : Move → Option Server
  | .read => s.read?
  | .write => s.write?
  | .close => s.close?
  | .work p => (s.session.advance? b p).map fun session => { s with session }

/-- What comes to a server from outside. -/
inductive Input where
  /-- The client sends bytes. -/
  | bytes (bs : Bytes)
  /-- The client sends no more. -/
  | finish
  /-- Time passes. -/
  | elapse (milliseconds : Nat)
  /-- Stalled executions are released. -/
  | release

/-- The server after something came from outside. -/
def accept (s : Server) : Input → Server
  | .bytes bs => { s with feed := s.feed.push bs }
  | .finish => { s with feed := s.feed.finish }
  | .elapse milliseconds => { s with session := s.session.accept (.elapse milliseconds) }
  | .release => { s with session := s.session.accept .release }

/-- The states that a server can get into, whatever comes from outside and whoever moves next. -/
inductive Reachable (b : Session.Backend) : Server → Prop where
  | initial : Reachable b {}
  | move {s t : Server} (m : Move) : Reachable b s → s.move? b m = some t → Reachable b t
  | accept {s : Server} (i : Input) : Reachable b s → Reachable b (s.accept i)

/-- The id of the script that the request in hand launches, if it launches one. -/
def launchedId? (s : Server) : Option String :=
  match s.session.handler with
  | .session (.handle request) :: _ => s.session.launchedId? request
  | _ => none

/-! ## Serving -/

/-- The messages of the session with their numbers, as values. -/
def numbered : (count : Nat) → List Outgoing → List Json
  | _, [] => []
  | count, m :: ms => m.toJson (count + 1) :: numbered (count + 1) ms

/-- Lets the session settle, writes all its messages and closes the stream if it is time to. -/
def work (b : Session.Backend) (s : Server) : Server :=
  let (messages, session) := (s.session.settle b).collect
  let fresh := if s.isClosed then [] else numbered s.written.length messages
  { s with session, written := s.written ++ fresh
           isClosed := s.isClosed || s.outcome.isSome }

/-- Works and reads in turns, at most `fuel` times. -/
def serveFor (b : Session.Backend) : (fuel : Nat) → Server → Server
  | 0, s => s.work b
  | fuel + 1, s =>
    let s := s.work b
    match s.read? with
    | some s => serveFor b fuel s
    | none => s

/-- Works and reads until there is nothing to do. A message takes at least one byte, and the end
comes once. -/
def serve (b : Session.Backend) (s : Server) : Server :=
  s.serveFor b (s.feed.bytes.length + 1)

/-- Lets something come from outside, and serves on. -/
def act (b : Session.Backend) (s : Server) (i : Input) : Server :=
  (s.accept i).serve b

/-- Lets the time pass until the next starter wakes up, and serves on; nothing when no starter
sleeps. -/
def sleepOn? (b : Session.Backend) (s : Server) : Option Server :=
  s.session.wake?.map fun wake => s.act b (.elapse (wake - s.session.clock))

/-- The bytes of messages. -/
def wire (messages : List Json) : Bytes :=
  messages.flatMap Protocol.Frame.encode

end Server

end DebugAdapter
