import DebugAdapter.Breakpoints.LineMap
import DebugAdapter.Breakpoints.Source
import DebugAdapter.Script.Run
import DebugAdapter.Source.Key
import DebugAdapter.Text.Table
/-!
# The breakpoint registry

The `Registry` remembers what clients asked for, by source. A source is stored under its key and,
when that is another text, under the key without its resource type; a lookup tries the key first
and then the key without its resource type. Lines are those of the instrumented script.

`Registry.replace` answers a request with a `Replaced`, and `Replaced.matches` decides whether the
request was for the script under a given key.
-/

namespace DebugAdapter

/-- What a line of a source carries. -/
structure LineBreakpoint where
  id : Nat
  /-- The template to write instead of stopping. -/
  logMessage : Option String
  deriving DecidableEq, Repr

/-- The breakpoints of one source. -/
abbrev SourceBreakpoints := LineMap LineBreakpoint

/-- A breakpoint as the client is told about it. -/
structure Breakpoint where
  id : Nat
  line : UInt32
  source : Source
  deriving DecidableEq, Repr

/-- A breakpoint as a value; all are verified. -/
def Breakpoint.toJson (b : Breakpoint) : Json :=
  Json.mk [("id", Json.ofNat b.id), ("verified", .bool true), ("line", Json.ofNat b.line.toNat),
    ("source", b.source.toJson)]

/-- What came of a request to replace the breakpoints of a source. -/
structure Replaced where
  /-- The key of the source. -/
  key : String
  /-- The key without its resource type. -/
  strippedKey : String
  /-- The instrumented lines that the source has now. -/
  lines : List UInt32
  /-- One breakpoint for each that was asked for, in that order. -/
  breakpoints : List Breakpoint
  deriving DecidableEq, Repr

/-- Whether the request was for the script under `activeKey`. -/
def Replaced.matches (r : Replaced) (activeKey : String) : Bool :=
  r.key == activeKey || r.strippedKey == SourceKey.withoutKind activeKey

/-- The breakpoints of all sources. -/
structure Registry where
  /-- The breakpoints under each key. -/
  sources : Table SourceBreakpoints := []
  /-- The id of the next breakpoint. -/
  nextId : Nat := 1
  deriving Inhabited

namespace Registry

/-- The template of a requested breakpoint; a blank one does not count. -/
def template? (b : SourceBreakpoint) : Option String :=
  b.logMessage.filter fun m => !(Text.trim m).isEmpty

/-- The requests with their ids, numbered from `id`. -/
def numbered : (id : Nat) → List SourceBreakpoint → List (Nat × SourceBreakpoint)
  | _, [] => []
  | id, b :: bs => (id, b) :: numbered (id + 1) bs

/-- The breakpoints by line; of several on one line the last counts. -/
def entries (requested : List (Nat × SourceBreakpoint)) : SourceBreakpoints :=
  requested.foldl
    (fun m (id, b) => m.insert (Script.toInstrumentedLine b.line) ⟨id, template? b⟩) []

/-- Stores breakpoints under a key and under the key without its resource type. -/
def store (sources : Table SourceBreakpoints) (key : String) (found : SourceBreakpoints) :
    Table SourceBreakpoints :=
  let stripped := SourceKey.withoutKind key
  let sources := if stripped = key then sources else sources.insert stripped found
  sources.insert key found

/-- Replaces the breakpoints of a source. A request for none is remembered too. -/
def replace (r : Registry) (source : Source) (requested : List SourceBreakpoint) :
    Replaced × Registry :=
  let key := SourceKey.normalize (source.path.getD "")
  let given := numbered r.nextId requested
  let found := entries given
  ({ key
     strippedKey := SourceKey.withoutKind key
     lines := found.lines
     breakpoints := given.map fun (id, b) => ⟨id, b.line, source⟩ },
   { sources := store r.sources key found, nextId := r.nextId + requested.length })

/-- The breakpoints for a key. -/
def lookup (r : Registry) (key : String) : Option SourceBreakpoints :=
  (r.sources.get? key).or (r.sources.get? (SourceKey.withoutKind key))

/-- The instrumented lines for a key. -/
def lines (r : Registry) (key : String) : List UInt32 :=
  ((r.lookup key).map LineMap.lines).getD []

/-- Whether breakpoints were received for a key, be they none. -/
def hasEntry (r : Registry) (key : String) : Bool :=
  (r.lookup key).isSome

/-- The breakpoint on an instrumented line. -/
def get? (r : Registry) (key : String) (line : UInt32) : Option LineBreakpoint :=
  (r.lookup key).bind fun m => m.get? line

/-- Forgets all breakpoints, but goes on counting their ids. -/
def clear (r : Registry) : Registry :=
  { r with sources := [] }

end Registry

end DebugAdapter
