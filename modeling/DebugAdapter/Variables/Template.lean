import DebugAdapter.Json.Printer
import DebugAdapter.Text.Blank
/-!
# Log messages

A log message is a template: a name between braces stands for the value of that variable, and a
doubled brace for one brace. `interpolate` fills it in. A name that cannot be looked up is left as
written, and a brace without a partner stands for itself.
-/

namespace DebugAdapter.Template

/-- The characters of a template with its placeholders filled in. `held` is what came since an
open brace, latest first. Values are never scanned again. -/
def expand (lookup : String → Option Json) : (held : Option (List Char)) → List Char → List Char
  | none, [] => []
  | none, '\x7b' :: '\x7b' :: cs => '\x7b' :: expand lookup none cs
  | none, '\x7d' :: '\x7d' :: cs => '\x7d' :: expand lookup none cs
  | none, '\x7b' :: cs => expand lookup (some []) cs
  | none, c :: cs => c :: expand lookup none cs
  | some held, [] => '\x7b' :: held.reverse
  | some held, '\x7d' :: cs =>
    let written := held.reverse
    (match lookup (String.ofList (Text.trimChars written)) with
      | some v => v.display.toList
      | none => '\x7b' :: (written ++ ['\x7d'])) ++ expand lookup none cs
  | some held, c :: cs => expand lookup (some (c :: held)) cs

/-- The message of a template. -/
def interpolate (template : String) (lookup : String → Option Json) : String :=
  String.ofList (expand lookup none template.toList)

end DebugAdapter.Template
