/-!
# ASCII bytes

Names for the bytes that the formats of this library treat specially.
-/

namespace DebugAdapter.Ascii

/-- `"` -/
@[match_pattern] abbrev quote : UInt8 := 0x22

/-- `\` -/
@[match_pattern] abbrev backslash : UInt8 := 0x5C

/-- `[` -/
@[match_pattern] abbrev openBracket : UInt8 := 0x5B

/-- `]` -/
@[match_pattern] abbrev closeBracket : UInt8 := 0x5D

/-- An opening brace. -/
@[match_pattern] abbrev openBrace : UInt8 := 0x7B

/-- A closing brace. -/
@[match_pattern] abbrev closeBrace : UInt8 := 0x7D

/-- `,` -/
@[match_pattern] abbrev comma : UInt8 := 0x2C

/-- `:` -/
@[match_pattern] abbrev colon : UInt8 := 0x3A

/-- `.` -/
@[match_pattern] abbrev point : UInt8 := 0x2E

/-- `-` -/
@[match_pattern] abbrev minus : UInt8 := 0x2D

/-- `+` -/
@[match_pattern] abbrev plus : UInt8 := 0x2B

/-- `0` -/
@[match_pattern] abbrev zero : UInt8 := 0x30

/-- The line feed. -/
@[match_pattern] abbrev lineFeed : UInt8 := 0x0A

/-- The carriage return. -/
@[match_pattern] abbrev carriageReturn : UInt8 := 0x0D

/-- Whether the byte is a decimal digit. -/
def isDigit (b : UInt8) : Bool :=
  0x30 ≤ b && b ≤ 0x39

/-- The value of a decimal digit. -/
def digitValue (b : UInt8) : Nat :=
  b.toNat - 0x30

/-- The value of a digit in base sixteen, in either case. -/
def hexValue? (b : UInt8) : Option Nat :=
  if 0x30 ≤ b && b ≤ 0x39 then some (b.toNat - 0x30)
  else if 0x61 ≤ b && b ≤ 0x66 then some (b.toNat - 0x61 + 10)
  else if 0x41 ≤ b && b ≤ 0x46 then some (b.toNat - 0x41 + 10)
  else none

end DebugAdapter.Ascii
