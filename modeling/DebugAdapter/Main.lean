import DebugAdapter.CommandLine.Report
/-!
# The program

Serves one client over standard input and output. Everything is decided by `Server`; what is done
here is to read files and input, to look at the clock and to write what the server gives.
-/

namespace DebugAdapter

/-- A refusal of the system. Its number may come with either sign. -/
def numberedFault (details : String) (code : UInt32) : FileFault :=
  match min code (0 - code) with
  | 2 => .notFound
  | 20 => .notDirectory
  | 21 => .isDirectory
  | 36 => .nameTooLong
  | n => .refused details n.toNat

/-- Why the system refused to read a file. -/
def faultOf : IO.Error → FileFault
  | .noFileOrDirectory _ code details | .permissionDenied _ code details
  | .resourceExhausted _ code details | .inappropriateType _ code details
  | .invalidArgument _ code details | .noSuchThing _ code details
  | .otherError code details | .hardwareFault code details
  | .resourceBusy code details | .unsupportedOperation code details => numberedFault details code
  | e => .refused (toString e) 0

/-- Reads a file. -/
def readFile (path : String) : IO (Except FileFault Bytes) := do
  if path.toList.contains '\x00' then return .error .nulInName
  match ← (IO.FS.readBinFile path).toBaseIO with
  | .ok bytes => return .ok bytes.toList
  | .error e => return .error (faultOf e)

/-- Reads the files that may be looked at. -/
def readView (paths : List String) : IO FileView := do
  let contents ← paths.mapM fun path => return (path, ← readFile path)
  return fun path => (contents.lookup path).getD (.error .notFound)

/-- Writes bytes to standard output. -/
def writeBytes (bs : Bytes) : IO Unit := do
  let output ← IO.getStdout
  output.write (ByteArray.mk bs.toArray)
  output.flush

/-- What was read of standard input and not served yet. -/
structure Inbox where
  bytes : IO.Ref ByteArray
  /-- Whether there is no more to come. -/
  isOver : IO.Ref Bool

/-- Puts standard input into an inbox, byte by byte, as a longer read would wait for all of its
bytes. -/
partial def Inbox.fill (inbox : Inbox) : IO Unit := do
  let piece ← (← IO.getStdin).read 1
  if piece.isEmpty then inbox.isOver.set true
  else
    inbox.bytes.modify (· ++ piece)
    inbox.fill

/-- Moves what is in an inbox to a server. -/
def Inbox.moveTo (inbox : Inbox) (s : Server) : IO Server := do
  let isOver ← inbox.isOver.get
  let bytes ← inbox.bytes.swap .empty
  let s := if bytes.isEmpty then s else s.accept (.bytes bytes.toList)
  return if isOver then s.accept .finish else s

/-- Works and reads messages until there are no more, each with the files that it asks for. -/
partial def serveFromDisk (o : CommandLine.Options) (settings : Config.Settings) (s : Server) :
    IO Server := do
  let paths := (s.launchedId?.map (Script.filesOf o.root)).getD []
  let written := s.written.length
  let s := s.work (CommandLine.backendFor (← readView paths) o settings)
  let fresh := s.written.drop written
  if !fresh.isEmpty then writeBytes (Server.wire fresh)
  match s.read? with
  | some s => serveFromDisk o settings s
  | none => return s

/-- Serves what comes into an inbox until the stream is closed; `clock` is when the server last
looked at the time. -/
partial def serveInbox (o : CommandLine.Options) (settings : Config.Settings) (inbox : Inbox)
    (clock : Nat) (s : Server) : IO ServerOutcome := do
  let now ← IO.monoMsNow
  let s ← inbox.moveTo (s.accept (.elapse (now - clock)))
  let s ← serveFromDisk o settings s
  if s.isClosed then return s.outcome.getD (.ok ())
  IO.sleep 1
  serveInbox o settings inbox now s

/-- Does what a report says. -/
def print (report : CommandLine.Report) : IO UInt32 := do
  IO.print report.output
  IO.eprint report.notice
  return report.exitCode

/-- Serves standard input and output, unless it is to listen on an address. -/
def serveStandard (o : CommandLine.Options) : IO UInt32 := do
  let path? := CommandLine.configPath? o (← IO.getEnv CommandLine.configVariable)
  let (settings, notice) := CommandLine.startUp (← readView path?.toList) path?
  IO.eprint notice
  if o.listen.isSome then return ← print CommandLine.cannotListen
  let inbox : Inbox := ⟨← IO.mkRef .empty, ← IO.mkRef false⟩
  let _ ← IO.asTask inbox.fill .dedicated
  print (CommandLine.reportOf (← serveInbox o settings inbox (← IO.monoMsNow) {}))

end DebugAdapter

open DebugAdapter DebugAdapter.CommandLine in
/-- Starts the program. -/
def main (args : List String) : IO UInt32 :=
  match Options.parse args with
  | .error stop => print stop.report
  | .ok o => serveStandard o
