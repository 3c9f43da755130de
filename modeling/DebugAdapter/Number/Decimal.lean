/-!
# Decimals of doubles

A `Decimal` stands for `digits · 10 ^ exponent`. `Decimal.nearest` is the double closest to it.
`shortest` finds, for a positive finite double, the decimal with the fewest digits whose nearest
double it is, and of those the one closest to it. `positional` and `scientific` write a decimal
without and with a power of ten.
-/

namespace DebugAdapter

/-- `digits · 10 ^ exponent`. -/
structure Decimal where
  /-- The digits, read as one natural number. -/
  digits : Nat
  /-- The power of ten that the last digit counts. -/
  exponent : Int
  deriving DecidableEq, Repr

namespace Decimal

/-- How many decimal digits `n` has; one for zero. -/
def digitCount (n : Nat) : Nat :=
  (Nat.toDigits 10 n).length

/-! ## From decimals to doubles -/

/-- The fraction `num / den` in units of `2 ^ e`, rounded to the closest whole number, and to the
even one of two that are equally close. -/
def inUnits (num den : Nat) (e : Int) : Nat :=
  let n := if e < 0 then num * Nat.pow 2 e.natAbs else num
  let d := if e < 0 then den else den * Nat.pow 2 e.natAbs
  let q := n / d
  let left := 2 * (n % d)
  if left < d then q else if d < left then q + 1 else q + q % 2

/-- The unit in which a double near to `num / den` is a whole number below `2 ^ 53`, as a power of
two. -/
def unitOf (num den : Nat) : Int :=
  let e := (num.log2 : Int) - den.log2 - 53
  let small := num * Nat.pow 2 (-e).toNat < den * Nat.pow 2 (e.toNat + 53)
  max (if small then e else e + 1) (-1074)

/-- The double closest to a positive fraction, infinity when the fraction exceeds them all. The
bits of a double are its distance from zero, counted in doubles. -/
def ofFraction (num den : Nat) : Float :=
  let e := unitOf num den
  let bits := (e + 1074).toNat * 0x10000000000000 + inUnits num den e
  Float.ofBits (UInt64.ofNat (min bits 0x7FF0000000000000))

/-- The double closest to the decimal, infinity when the decimal exceeds them all. Beyond
`10 ^ 400` and below `10 ^ (-400)` there is nothing to compute. -/
def nearest (d : Decimal) : Float :=
  let size := d.exponent + digitCount d.digits
  if d.digits = 0 ∨ size < -400 then 0
  else if 400 < size then Float.ofBits 0x7FF0000000000000
  else ofFraction (d.digits * Nat.pow 10 d.exponent.toNat) (Nat.pow 10 (-d.exponent).toNat)

/-! ## From doubles to decimals -/

/-- The magnitude of a finite double as a fraction with a positive denominator. -/
def fraction (x : Float) : Nat × Nat :=
  let bits := x.toBits.toNat
  let field := bits / 0x10000000000000 % 0x800
  let low := bits % 0x10000000000000
  let (m, shift) := if field = 0 then (low, 1) else (low + 0x10000000000000, field)
  if 1075 ≤ shift then (m * Nat.pow 2 (shift - 1075), 1) else (m, Nat.pow 2 (1075 - shift))

/-- The power of ten that the first digit of a positive fraction counts. -/
def magnitude (num den : Nat) : Int :=
  if den ≤ num then (digitCount (num / den) : Int) - 1
  else
    let j := digitCount (den / num) - 1
    if den ≤ num * Nat.pow 10 j then -(j : Int) else -(j : Int) - 1

/-- The fraction `num / den` in units of `10 ^ k`, rounded down, and the fraction left over. -/
def scaled (num den : Nat) (k : Int) : Nat × Nat × Nat :=
  let n := if k < 0 then num * Nat.pow 10 k.natAbs else num
  let d := if k < 0 then den else den * Nat.pow 10 k.natAbs
  (n / d, n % d, d)

/-- Which of two equally close decimals is taken. -/
inductive Tie where
  /-- The one with the even last digit. -/
  | toEven
  /-- The larger one. -/
  | up
  deriving DecidableEq, Repr

/-- The decimal with `n` digits that `x` is nearest to, if there is one; of two the closer. -/
def withDigits? (tie : Tie) (x : Float) (num den : Nat) (n : Nat) : Option Decimal :=
  let k := magnitude num den - (n - 1 : Nat)
  let (down, left, unit) := scaled num den k
  let low : Decimal := ⟨down, k⟩
  let high : Decimal := ⟨down + 1, k⟩
  match decide (low.nearest = x), decide (high.nearest = x) with
  | true, false => some low
  | false, true => some high
  | true, true =>
    if 2 * left < unit then some low
    else if unit < 2 * left then some high
    else if tie = .toEven ∧ down % 2 = 0 then some low
    else some high
  | false, false => none

/-- The decimal without zeros at its end. -/
def strip : Nat → Decimal → Decimal
  | 0, d => d
  | fuel + 1, d =>
    if d.digits ≠ 0 ∧ d.digits % 10 = 0 then strip fuel ⟨d.digits / 10, d.exponent + 1⟩ else d

/-- The shortest decimal that a positive finite double is nearest to. Seventeen digits always
suffice. -/
def shortest (tie : Tie) (x : Float) : Decimal :=
  let (num, den) := fraction x
  let found := (List.range 17).findSome? fun i => withDigits? tie x num den (i + 1)
  strip 20 (found.getD ⟨0, 0⟩)

/-! ## The text of decimals -/

/-- The digits of the decimal, first one first. -/
def text (d : Decimal) : List Char :=
  Nat.toDigits 10 d.digits

/-- The power of ten that the first digit counts. -/
def scale (d : Decimal) : Int :=
  d.exponent + d.text.length - 1

/-- The decimal with digits on either side of a point; behind a whole number `whole` stands for the
point and what follows. -/
def positional (whole : List Char) (d : Decimal) : List Char :=
  let e := d.scale
  if 0 ≤ e then
    let places := e.toNat + 1
    let padded := d.text ++ List.replicate (places - d.text.length) '0'
    let tail := padded.drop places
    padded.take places ++ (if tail.isEmpty then whole else '.' :: tail)
  else
    ['0', '.'] ++ List.replicate (e.natAbs - 1) '0' ++ d.text

/-- The decimal with one digit before the point and a signed power of ten. -/
def scientific (d : Decimal) : List Char :=
  let tail := d.text.drop 1
  d.text.take 1 ++ (if tail.isEmpty then [] else '.' :: tail) ++ 'e' ::
    (if d.scale < 0 then '-' else '+') :: Nat.toDigits 10 d.scale.natAbs

end Decimal

end DebugAdapter
