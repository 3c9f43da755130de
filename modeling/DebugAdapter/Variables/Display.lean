import DebugAdapter.Json.Printer
/-!
# Values as the client shows them

A variable is shown by its `formatValue`, its `typeName` and, when `isStructured` holds, a
reference under which its parts can be listed.
-/

namespace DebugAdapter

/-- The short text of a value: strings in quotes as they are, containers by their size. -/
def formatValue : Json → String
  | .null => "null"
  | .string s => "\"" ++ s ++ "\""
  | .bool b => if b then "true" else "false"
  | .number n => String.ofList n.render
  | .array items => "[" ++ toString items.length ++ " items]"
  | .object entries => "\x7b" ++ toString entries.length ++ " entries\x7d"

/-- The name of a value's type. -/
def typeName : Json → String
  | .null => "null"
  | .string _ => "String"
  | .bool _ => "Boolean"
  | .number n => if n.isDouble then "Double" else "Long"
  | .array _ => "List"
  | .object _ => "Map"

/-- Whether the value has parts to list. -/
def isStructured : Json → Bool
  | .array items => !items.isEmpty
  | .object entries => !entries.isEmpty
  | _ => false

end DebugAdapter
