/-!
# Output channels

A script writes to two channels, and the client is told which of them a text came from.
-/

namespace DebugAdapter

/-- The channels that a script writes to. -/
inductive Channel where
  /-- Ordinary output. -/
  | stdout
  /-- Error output. -/
  | stderr
  deriving DecidableEq, Repr, Inhabited

/-- What the client is told about the origin of a text. -/
def Channel.category : Channel → String
  | stdout => "stdout"
  | stderr => "stderr"

end DebugAdapter
