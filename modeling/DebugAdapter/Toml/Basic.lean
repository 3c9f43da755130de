import DebugAdapter.Text.Table
/-!
# TOML documents

A document is a table of values. Tables come about in four ways, and their `Origin` decides what
may still be added to them: headers open each table once, dotted keys add to tables that dotted
keys made, and inline tables and lists are closed. `Entries.openTable`, `Entries.openItem` and
`Entries.assign` are the three things that a document does; each fails where TOML forbids it.
-/

namespace DebugAdapter.Toml

/-- How a table came about. -/
inductive Origin where
  /-- It stands between braces. -/
  | inline
  /-- A header names it. -/
  | header
  /-- A header names a table inside it. -/
  | implied
  /-- A dotted key leads through it. -/
  | dotted
  deriving DecidableEq, Repr

/-- A value of a document. -/
inductive Value where
  | string (s : String)
  | integer (n : Int)
  | float (x : Float)
  | boolean (b : Bool)
  /-- A date, a time or both. -/
  | datetime
  | list (items : List Value)
  | table (origin : Origin) (entries : List (String × Value))
  /-- The tables of one name that each have a header of their own. -/
  | tables (items : List (List (String × Value)))
  deriving Inhabited

/-- What a table holds, in the order in which it was put there. -/
abbrev Entries := Table Value

namespace Entries

/-- Changes the table that a path leads to, and makes the tables on the way that are missing.
With `byKey` set the path is part of a dotted key, which may not enter a table with a header.
`change` is given the origin of the table. -/
def modifyAt (byKey : Bool) (change : Origin → Entries → Option Entries) :
    (path : List String) → (here : Origin) → Entries → Option Entries
  | [], here, es => change here es
  | k :: ks, _, es =>
    match es.get? k with
    | none =>
      let origin := if byKey then Origin.dotted else Origin.implied
      (modifyAt byKey change ks origin []).map fun inner => es.insert k (.table origin inner)
    | some (.table origin inner) =>
      if origin = .inline ∨ (byKey ∧ origin = .header) then none
      else (modifyAt byKey change ks origin inner).map fun inner =>
        es.insert k (.table origin inner)
    | some (.tables items) =>
      match items.getLast? with
      | none => none
      | some inner =>
        (modifyAt byKey change ks .header inner).map fun inner =>
          es.insert k (.tables (items.dropLast ++ [inner]))
    | some _ => none

/-- Puts a value under a key that has none yet. -/
def addNew (key : String) (value : Value) (es : Entries) : Option Entries :=
  match es.get? key with
  | none => some (es.insert key value)
  | some _ => none

/-- Puts a value under a dotted key of the table `es`. Only tables that dotted keys made can be
added to from outside. -/
def assignHere (path : List String) (key : String) (value : Value) (es : Entries) :
    Option Entries :=
  modifyAt true
    (fun here inner =>
      if decide (here = .dotted) = path.isEmpty then none else addNew key value inner)
    path .header es

/-- Puts a value under a dotted key of the table that a header opened. -/
def assign (opened path : List String) (key : String) (value : Value) (es : Entries) :
    Option Entries :=
  modifyAt false (fun _ inner => assignHere path key value inner) opened .header es

/-- Opens the table that a header names; it comes last in the table it belongs to. -/
def openTable (path : List String) (key : String) (es : Entries) : Option Entries :=
  modifyAt false
    (fun _ inner =>
      match inner.get? key with
      | none => some (inner.insert key (.table .header []))
      | some (.table .implied held) =>
        some (Table.insert (inner.filter fun p => p.1 ≠ key) key (.table .header held))
      | some _ => none)
    path .header es

/-- Opens one more of the tables that a doubled header names. -/
def openItem (path : List String) (key : String) (es : Entries) : Option Entries :=
  modifyAt false
    (fun _ inner =>
      match inner.get? key with
      | none => some (inner.insert key (.tables [[]]))
      | some (.tables items) => some (inner.insert key (.tables (items ++ [[]])))
      | some _ => none)
    path .header es

end Entries

end DebugAdapter.Toml
