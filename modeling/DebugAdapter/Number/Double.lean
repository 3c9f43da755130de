import DebugAdapter.Number.Decimal
import DebugAdapter.Text.Digits
/-!
# Doubles as text

`Double.ofChars?` reads a double: infinity, no number, or a decimal with an optional point and an
optional power of ten. `Double.text` writes one with the fewest digits that denote it, never with
a power of ten; of two equally close decimals the larger one is taken.
-/

namespace DebugAdapter.Double

/-- Whether the sign bit of a double is set. -/
def isSigned (x : Float) : Bool :=
  0x8000000000000000 ≤ x.toBits.toNat

/-- Positive infinity. -/
def infinity : Float :=
  Float.ofBits 0x7FF0000000000000

/-- What is no number. -/
def notANumber : Float :=
  Float.ofBits 0x7FF8000000000000

/-! ## Reading -/

/-- Whether a minus sign stands in front, and what follows the sign if there is one. -/
def cutSign : List Char → Bool × List Char
  | '-' :: cs => (true, cs)
  | '+' :: cs => (false, cs)
  | cs => (false, cs)

/-- The power of ten behind the digits of a decimal. -/
def exponentOf? : List Char → Option Int
  | [] => some 0
  | mark :: cs =>
    let (negative, digits) := cutSign cs
    if (mark = 'e' ∨ mark = 'E') ∧ !digits.isEmpty ∧ digits.all Char.isDigit then
      some (if negative then -(Text.naturalOf digits) else Text.naturalOf digits)
    else none

/-- The decimal that the characters spell: digits, which a point may precede, follow or divide,
and a power of ten. -/
def decimalOf? (cs : List Char) : Option Decimal :=
  let whole := cs.takeWhile Char.isDigit
  let rest := cs.dropWhile Char.isDigit
  let (fraction, rest) :=
    match rest with
    | '.' :: cs => (cs.takeWhile Char.isDigit, cs.dropWhile Char.isDigit)
    | _ => ([], rest)
  if whole.isEmpty ∧ fraction.isEmpty then none
  else (exponentOf? rest).map fun e => ⟨Text.naturalOf (whole ++ fraction), e - fraction.length⟩

/-- The magnitude that the characters spell. Words may be in any case. -/
def magnitudeOf? (cs : List Char) : Option Float :=
  let word := String.ofList (cs.map Char.toLower)
  if word = "inf" ∨ word = "infinity" then some infinity
  else if word = "nan" then some notANumber
  else (decimalOf? cs).map Decimal.nearest

/-- The double that the characters spell, with a sign or without. -/
def ofChars? (cs : List Char) : Option Float :=
  let (negative, cs) := cutSign cs
  (magnitudeOf? cs).map fun x => if negative then -x else x

/-! ## Writing -/

/-- The text of a double. Behind a whole number `whole` stands for the point and what follows. -/
def textWith (whole : String) (x : Float) : String :=
  let magnitude (y : Float) : List Char :=
    if y == 0 then '0' :: whole.toList else (Decimal.shortest .up y).positional whole.toList
  if x.isNaN then "NaN"
  else if x.isInf then if isSigned x then "-inf" else "inf"
  else String.ofList (if isSigned x then '-' :: magnitude (-x) else magnitude x)

/-- The text of a double, without a point if it is whole. -/
def text (x : Float) : String :=
  textWith "" x

/-- The text of a double, with a point even if it is whole. -/
def pointedText (x : Float) : String :=
  textWith ".0" x

end DebugAdapter.Double
