import DebugAdapter.Json.Basic
/-!
# Places in values

A list of `Segment`s leads to a place in a value. `Json.at?` reads the value there, and
`Json.assignAt?` puts another one in its stead; a last key that an object lacks is added to it.
-/

namespace DebugAdapter

/-- One step into a value. -/
inductive Segment where
  | key (name : String)
  | index (i : Nat)
  deriving DecidableEq, Repr

namespace Json

/-- The part of a value that one step leads to. -/
def step? : Json → Segment → Option Json
  | object entries, .key name => Table.get? entries name
  | array items, .index i => items[i]?
  | _, _ => none

/-- The part of a value that the steps lead to. -/
def at? : Json → List Segment → Option Json
  | v, [] => some v
  | v, s :: ss => (v.step? s).bind fun w => w.at? ss

/-- The value with `new` in the place that the steps lead to. -/
def assignAt? : Json → List Segment → (new : Json) → Option Json
  | _, [], new => some new
  | object entries, [.key name], new => some (object (Table.insert entries name new))
  | object entries, .key name :: ss, new =>
    (Table.get? entries name).bind fun child =>
      (child.assignAt? ss new).map fun child => object (Table.insert entries name child)
  | array items, .index i :: ss, new =>
    (items[i]?).bind fun child =>
      (child.assignAt? ss new).map fun child => array (items.set i child)
  | _, _ :: _, _ => none

end Json

end DebugAdapter
