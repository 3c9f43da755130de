/-!
# Lines

`lines` cuts a text at line feeds. A line loses its line feed, and a carriage return right before
it; a last line that no line feed ends is kept as it stands.
-/

namespace DebugAdapter.Text

/-- A line without the carriage return that its line feed followed. -/
def dropReturn (cs : List Char) : List Char :=
  if cs.getLast? = some '\r' then cs.dropLast else cs

/-- The lines of `cs`, where `line` holds what came since the last line feed, latest first. -/
def linesFrom : List Char → List Char → List (List Char)
  | line, [] => if line.isEmpty then [] else [line.reverse]
  | line, c :: cs =>
    if c = '\n' then dropReturn line.reverse :: linesFrom [] cs else linesFrom (c :: line) cs

/-- The lines of a text. -/
def lines (s : String) : List String :=
  (linesFrom [] s.toList).map String.ofList

end DebugAdapter.Text
