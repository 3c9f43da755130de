import DebugAdapter.Text.Hidden
/-!
# Quoted texts

`quote` writes a text between double quotes the way diagnostics show it: `\` before a quote and
a backslash, `\t`, `\n`, `\r` and `\0` for these controls, and hidden characters by number.
-/

namespace DebugAdapter.Text

/-- The digits of `n` in base sixteen, lower case. -/
def hexDigits (n : Nat) : List Char :=
  Nat.toDigits 16 n

/-- How a quoted text writes one character. -/
def quoteChar (c : Char) : List Char :=
  if c = '"' then ['\\', '"']
  else if c = '\\' then ['\\', '\\']
  else if c = '\t' then ['\\', 't']
  else if c = '\n' then ['\\', 'n']
  else if c = '\r' then ['\\', 'r']
  else if c = '\x00' then ['\\', '0']
  else if isHidden c then ['\\', 'u', '\x7b'] ++ hexDigits c.toNat ++ ['\x7d']
  else [c]

/-- `s` between double quotes. -/
def quote (s : String) : String :=
  String.ofList ('"' :: (s.toList.flatMap quoteChar ++ ['"']))

end DebugAdapter.Text
