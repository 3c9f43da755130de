import DebugAdapter.Breakpoints.Source
import DebugAdapter.Protocol.Error
import DebugAdapter.Variables.Display
import DebugAdapter.Variables.Path
import DebugAdapter.Variables.Segment
/-!
# Snapshots

A `Snapshot` is what the client sees of a paused script: its variables and stack frames. The parts
of structured values are listed under references, which `Snapshot.list` hands out and
`Snapshot.invalidate` takes back. `Snapshot.assign` changes a part and remembers, as an override,
the new value of the whole variable, for the script to take over when it goes on.
-/

namespace DebugAdapter

/-- A place in a script as the client is shown it. -/
structure StackFrame where
  id : Nat
  name : String
  source : Source
  line : UInt32
  column : UInt32
  endLine : UInt32
  endColumn : UInt32
  deriving DecidableEq, Repr

/-- A stack frame as a value. -/
def StackFrame.toJson (f : StackFrame) : Json :=
  Json.mk [("id", Json.ofNat f.id), ("name", .string f.name), ("source", f.source.toJson),
    ("line", Json.ofNat f.line.toNat), ("column", Json.ofNat f.column.toNat),
    ("endLine", Json.ofNat f.endLine.toNat), ("endColumn", Json.ofNat f.endColumn.toNat)]

/-- A variable as the client is shown it. -/
structure Variable where
  name : String
  value : String
  typeName : String
  /-- Where its parts are listed; zero when there are none. -/
  reference : Nat
  deriving DecidableEq, Repr

/-- A variable as a value. -/
def Variable.toJson (v : Variable) : Json :=
  Json.mk [("name", .string v.name), ("value", .string v.value), ("type", .string v.typeName),
    ("variablesReference", Json.ofNat v.reference)]

/-- What a reference stands for. -/
inductive Handle where
  /-- A place in a variable. -/
  | path (root : String) (segments : List Segment)
  /-- A value that was evaluated. -/
  | detached (value : Json)

/-- The handle for a part of what `h` stands for. -/
def Handle.child (h : Handle) (s : Segment) (part : Json) : Handle :=
  match h with
  | path root segments => path root (segments ++ [s])
  | detached _ => detached part

/-- The variables, frames and references of a paused script. -/
structure Snapshot where
  vars : Variables := []
  frames : List StackFrame := []
  /-- What the references stand for, latest first. -/
  handles : List (Nat × Handle) := []
  /-- The next reference. -/
  nextHandle : Nat := 3
  /-- The new values of changed variables, in the order of the changes. -/
  overrides : List (String × Json) := []
  deriving Inhabited

namespace Snapshot

/-- The reference of the local variables. -/
def localScope : Nat := 1

/-- The reference of the global variables. -/
def globalScope : Nat := 2

/-- The first reference of a part. -/
def firstHandle : Nat := 3

/-- Whether a reference is that of a scope. -/
def isScope (reference : Int) : Bool :=
  reference == localScope || reference == globalScope

/-- Takes back all references. -/
def invalidate (s : Snapshot) : Snapshot :=
  { s with handles := [], nextHandle := firstHandle }

/-- The snapshot of a script that just paused. -/
def capture (vars : Variables) (frames : List StackFrame) : Snapshot :=
  { vars, frames }

/-- The variables as a script sees them. -/
def scope (s : Snapshot) : Json.Fields :=
  Table.ofList s.vars

/-- The value that a dotted path names. -/
def lookup (s : Snapshot) (path : String) : Option Json :=
  lookupPath s.vars path

/-! ## References -/

/-- What a reference stands for. -/
def handle? (s : Snapshot) (reference : Int) : Option Handle :=
  (s.handles.find? fun p => (p.1 : Int) == reference).map (·.2)

/-- The value that a handle leads to now. -/
def resolve? (s : Snapshot) : Handle → Option Json
  | .detached value => some value
  | .path root segments => (s.vars.find? root).bind fun v => v.at? segments

/-- Hands out a reference. -/
def allocate (s : Snapshot) (h : Handle) : Nat × Snapshot :=
  (s.nextHandle,
    { s with handles := (s.nextHandle, h) :: s.handles, nextHandle := s.nextHandle + 1 })

/-- Hands out a reference if the value has parts. -/
def referTo (s : Snapshot) (value : Json) (h : Handle) : Nat × Snapshot :=
  if isStructured value then s.allocate h else (0, s)

/-- Hands out a reference for an evaluated value if it has parts. -/
def referDetached (s : Snapshot) (value : Json) : Nat × Snapshot :=
  s.referTo value (.detached value)

/-- Shows a value under a name. -/
def describe (s : Snapshot) (name : String) (value : Json) (h : Handle) : Variable × Snapshot :=
  let (reference, s) := s.referTo value h
  (⟨name, formatValue value, typeName value, reference⟩, s)

/-- Shows values one after the other. -/
def describeAll : Snapshot → List (String × Json × Handle) → List Variable × Snapshot
  | s, [] => ([], s)
  | s, (name, value, h) :: rest =>
    let (v, s) := s.describe name value h
    let (vs, s) := describeAll s rest
    (v :: vs, s)

/-- The parts of a value, with the names and steps that lead to them. -/
def parts : Json → List (String × Segment × Json)
  | .object entries => entries.map fun (name, v) => (name, .key name, v)
  | .array items => items.zipIdx.map fun (v, i) => (toString i, .index i, v)
  | _ => []

/-- What is listed for a scope without variables. -/
def emptyNote : Variable :=
  ⟨"(no variables)", "No variables in current scope", "info", 0⟩

/-- Lists what a reference stands for. -/
def list (s : Snapshot) (reference : Int) : Except DebugError (List Variable × Snapshot) :=
  if isScope reference then
    if s.vars.isEmpty then .ok ([emptyNote], s)
    else .ok (s.describeAll (s.vars.map fun (name, v) => (name, v, .path name [])))
  else
    match s.handle? reference with
    | none => .error (.unknownReference reference)
    | some h =>
      match s.resolve? h with
      | none => .error (.unknownReference reference)
      | some value =>
        .ok (s.describeAll ((parts value).map fun (name, step, part) =>
          (name, part, h.child step part)))

/-! ## Assignments -/

/-- A place that can be assigned to: a variable, and the steps into it. -/
structure Target where
  root : String
  segments : List Segment

/-- The step that a client names in the value `parent`. -/
def stepInto (parent : Json) (name : String) : Except DebugError Segment :=
  match parent with
  | .array _ =>
    match Text.parseIndex? name with
    | some i => .ok (.index i)
    | none => .error (.badIndex name)
  | _ => .ok (.key name)

/-- The place that a name inside a reference stands for. -/
def target (s : Snapshot) (reference : Int) (name : String) : Except DebugError Target :=
  if isScope reference then .ok ⟨name, []⟩
  else
    match s.handle? reference with
    | none => .error (.unknownReference reference)
    | some (.detached _) => .error .readOnly
    | some (.path root segments) =>
      match s.resolve? (.path root segments) with
      | none => .error (.unknownReference reference)
      | some parent => do
        let step ← stepInto parent name
        return ⟨root, segments ++ [step]⟩

/-- The new value of the whole variable when `value` is put in a place. -/
def rootValue? (s : Snapshot) (t : Target) (value : Json) : Option Json :=
  match t.segments with
  | [] => some value
  | segments => (s.vars.find? t.root).bind fun v => v.assignAt? segments value

/-- Gives a variable a new value, last in the list if there is none of its name. -/
def putVariable (vars : Variables) (name : String) (value : Json) : Variables :=
  (vars.assign? name value).getD (vars ++ [(name, value)])

/-- Remembers that a variable changed, as the latest change. -/
def override (overrides : List (String × Json)) (name : String) (value : Json) :
    List (String × Json) :=
  overrides.filter (fun p => p.1 ≠ name) ++ [(name, value)]

/-- Puts a value in the place that a name inside a reference stands for. All other references are
taken back. -/
def assign (s : Snapshot) (reference : Int) (name : String) (value : Json) :
    Except DebugError (Variable × Snapshot) := do
  let t ← s.target reference name
  match s.rootValue? t value with
  | none => .error (.unassignable name)
  | some whole =>
    let s := invalidate { s with
      vars := putVariable s.vars t.root whole
      overrides := override s.overrides t.root whole }
    return s.describe name value (.path t.root t.segments)

/-- The changes since the capture, and the snapshot without them. -/
def takeOverrides (s : Snapshot) : List (String × Json) × Snapshot :=
  (s.overrides, { s with overrides := [] })

end Snapshot

end DebugAdapter
