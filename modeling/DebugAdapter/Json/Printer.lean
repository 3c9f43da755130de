import DebugAdapter.Json.Basic
import DebugAdapter.Number.Double
/-!
# Compact JSON text

`Json.render` writes a value without blanks, members in the order of their table. Strings escape
the quote, the backslash and the controls only. A double is written with the fewest digits that
it is the nearest double to, positionally from `10 ^ -5` up to below `10 ^ 16`; of two equally
close decimals the even one is taken.
-/

namespace DebugAdapter.Json

/-- The text of a whole number. -/
def renderInt (n : Int) : List Char :=
  if n < 0 then '-' :: Nat.toDigits 10 n.natAbs else Nat.toDigits 10 n.natAbs

/-- What follows a whole number that is a double. -/
def pointZero : List Char :=
  ['.', '0']

/-- The text of a finite double's magnitude. -/
def renderMagnitude (x : Float) : List Char :=
  if x == 0 then '0' :: pointZero
  else
    let d := Decimal.shortest .toEven x
    if -5 ≤ d.scale ∧ d.scale ≤ 15 then d.positional pointZero else d.scientific

/-- The text of a finite double. -/
def renderFloat (x : Float) : List Char :=
  if Double.isSigned x then '-' :: renderMagnitude (-x) else renderMagnitude x

/-- The text of a number. -/
def Number.render : Number → List Char
  | .int n _ => renderInt n
  | .double x _ => renderFloat x

/-- One lower case digit in base sixteen. -/
def hexDigit (n : Nat) : Char :=
  Nat.digitChar (n % 16)

/-- How a string writes one character. -/
def escape (c : Char) : List Char :=
  if c = '"' then ['\\', '"']
  else if c = '\\' then ['\\', '\\']
  else if c = '\x08' then ['\\', 'b']
  else if c = '\x0c' then ['\\', 'f']
  else if c = '\n' then ['\\', 'n']
  else if c = '\r' then ['\\', 'r']
  else if c = '\t' then ['\\', 't']
  else if c.toNat < 0x20 then ['\\', 'u', '0', '0', hexDigit (c.toNat / 16), hexDigit c.toNat]
  else [c]

/-- The text of a string value. -/
def renderString (s : String) : List Char :=
  '"' :: (s.toList.flatMap escape ++ ['"'])

mutual

/-- The characters of a value's compact text. -/
def renderChars : Json → List Char
  | null => "null".toList
  | bool b => if b then "true".toList else "false".toList
  | number n => n.render
  | string s => renderString s
  | array items => '[' :: (renderItems items ++ [']'])
  | object entries => '\x7b' :: (renderMembers entries ++ ['\x7d'])

/-- The items of a list, a comma between two of them. -/
def renderItems : List Json → List Char
  | [] => []
  | item :: items => renderChars item ++ renderMoreItems items

/-- The items after the first one, each behind a comma. -/
def renderMoreItems : List Json → List Char
  | [] => []
  | item :: items => ',' :: (renderChars item ++ renderMoreItems items)

/-- The members of an object, a comma between two of them. -/
def renderMembers : List (String × Json) → List Char
  | [] => []
  | (key, value) :: members =>
    renderString key ++ ':' :: (renderChars value ++ renderMoreMembers members)

/-- The members after the first one, each behind a comma. -/
def renderMoreMembers : List (String × Json) → List Char
  | [] => []
  | (key, value) :: members =>
    ',' :: (renderString key ++ ':' :: (renderChars value ++ renderMoreMembers members))

end

/-- A value's compact text. -/
def render (v : Json) : String :=
  String.ofList v.renderChars

/-- How scripts show a value: strings as they are, all else as compact text. -/
def display : Json → String
  | string s => s
  | v => v.render

end DebugAdapter.Json
