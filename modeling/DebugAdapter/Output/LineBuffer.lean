import DebugAdapter.Text.Ascii
import DebugAdapter.Text.Utf8
/-!
# Line buffers

A line buffer holds the bytes written since the last line feed. `LineBuffer.write` adds bytes and
gives the lines that they complete, each with its line feed; `LineBuffer.drain` gives what is held.
A chunk that is given away is a text, with U+FFFD for what is not UTF-8.
-/

namespace DebugAdapter.LineBuffer

/-- The lines that the bytes complete, each with its line feed, and the bytes after the last one.
`held` are the bytes of the first line so far, latest first. -/
def completed : (held : Bytes) → Bytes → List Bytes × Bytes
  | held, [] => ([], held.reverse)
  | held, b :: bs =>
    if b = Ascii.lineFeed then
      let (lines, rest) := completed [] bs
      ((b :: held).reverse :: lines, rest)
    else completed (b :: held) bs

/-- The lines that writing `bytes` completes, as texts, and what is held afterwards. -/
def write (held bytes : Bytes) : List String × Bytes :=
  let (lines, rest) := completed held.reverse bytes
  (lines.map Utf8.toStringLossy, rest)

/-- What is held, as a text; nothing if that is empty. -/
def drain (held : Bytes) : List String :=
  if held.isEmpty then [] else [Utf8.toStringLossy held]

end DebugAdapter.LineBuffer
