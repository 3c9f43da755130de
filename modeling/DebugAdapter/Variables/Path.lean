import DebugAdapter.Json.Parser
import DebugAdapter.Text.Blank
import DebugAdapter.Text.Split
/-!
# Variable paths

`lookupPath` resolves a dotted path such as `body.user.id` or `items.0` in a list of variables,
where later variables shadow earlier ones of the same name. `parseUserValue` reads what a user
typed for a value.
-/

namespace DebugAdapter

/-- The variables of a paused script, in the interpreter's order. -/
abbrev Variables := Bindings Json

/-- The part of a value that one segment of a path names. -/
def Json.part? : Json → (segment : String) → Option Json
  | .object entries, segment => Table.get? entries segment
  | .array items, segment => (Text.parseIndex? segment).bind fun i => items[i]?
  | _, _ => none

/-- The part of a value that the segments lead to. -/
def Json.descend? : Json → (segments : List String) → Option Json
  | v, [] => some v
  | v, segment :: segments => (v.part? segment).bind fun w => w.descend? segments

/-- The value that a dotted path names. -/
def lookupPath (vars : Variables) (path : String) : Option Json :=
  match Text.splitOn '.' path with
  | [] => none
  | root :: segments => (vars.find? root).bind fun v => v.descend? segments

/-- The value that a user typed: JSON when it is, and else the text as a string. -/
def parseUserValue (text : String) : Json :=
  (Json.ofText? (Text.trim text)).getD (.string text)

end DebugAdapter
