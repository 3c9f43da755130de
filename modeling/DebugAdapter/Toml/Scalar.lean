import DebugAdapter.Number.Double
import DebugAdapter.Toml.Basic
/-!
# Numbers and dates

A number, a date or a time is a run of letters, digits and `+ - _ . :`. `scalarOf?` says what a run
denotes. Integers have to fit a signed word, and dates have to be days of the calendar.
-/

namespace DebugAdapter.Toml

open Text (digitOf? naturalOf numberOf)

/-- Whether a run may hold `c`. -/
def inRun (c : Char) : Bool :=
  c.isAlphanum || c == '+' || c == '-' || c == '_' || c == '.' || c == ':'

/-! ## Digits -/

/-- Digits, where single underscores may stand between two of them. -/
def digitsOf? (base : Nat) : List Char → Option (List Nat)
  | [] => none
  | [c] => (digitOf? base c).map ([·])
  | c :: '_' :: cs => (digitOf? base c).bind fun d => (digitsOf? base cs).map (d :: ·)
  | c :: cs => (digitOf? base c).bind fun d => (digitsOf? base cs).map (d :: ·)

/-- The number that digits spell without a zero in front. -/
def decimalOf? (cs : List Char) : Option Nat :=
  (digitsOf? 10 cs).bind fun digits =>
    if digits.head? = some 0 ∧ digits.length ≠ 1 then none else some (numberOf 10 digits)

/-! ## Integers -/

/-- The integer, if it fits a signed word. -/
def wordOf? (negative : Bool) (n : Nat) : Option Int :=
  let i : Int := if negative then -(n : Int) else n
  if -0x8000000000000000 ≤ i ∧ i < 0x8000000000000000 then some i else none

/-- The integer that a run spells. -/
def integerOf? : List Char → Option Int
  | '0' :: 'x' :: cs => (digitsOf? 16 cs).bind fun ds => wordOf? false (numberOf 16 ds)
  | '0' :: 'o' :: cs => (digitsOf? 8 cs).bind fun ds => wordOf? false (numberOf 8 ds)
  | '0' :: 'b' :: cs => (digitsOf? 2 cs).bind fun ds => wordOf? false (numberOf 2 ds)
  | cs =>
    let (negative, digits) := Double.cutSign cs
    (decimalOf? digits).bind (wordOf? negative)

/-! ## Floats -/

/-- The power of ten behind its letter. -/
def exponentOf? (cs : List Char) : Option Int :=
  let (negative, digits) := Double.cutSign cs
  (digitsOf? 10 digits).map fun ds =>
    let n : Int := numberOf 10 ds
    if negative then -n else n

/-- Whether `c` starts a power of ten. -/
def isExponentMark (c : Char) : Bool :=
  c == 'e' || c == 'E'

/-- The digits behind the point, and the power of ten, of what follows the whole digits. -/
def fractionOf? : List Char → Option (List Nat × Int)
  | [] => none
  | '.' :: cs =>
    (digitsOf? 10 (cs.takeWhile (!isExponentMark ·))).bind fun fraction =>
      match cs.dropWhile (!isExponentMark ·) with
      | [] => some (fraction, 0)
      | _ :: e => (exponentOf? e).map fun e => (fraction, e)
  | _ :: cs => (exponentOf? cs).map fun e => ([], e)

/-- The double that a run spells. What exceeds all doubles is none, unless it is negative. -/
def floatOf? (cs : List Char) : Option Float :=
  let (negative, cs) := Double.cutSign cs
  if cs = "inf".toList then some (if negative then -Double.infinity else Double.infinity)
  else if cs = "nan".toList then some Double.notANumber
  else
    let ends (c : Char) : Bool := c == '.' || isExponentMark c
    let whole := cs.takeWhile (!ends ·)
    (decimalOf? whole).bind fun _ =>
      (digitsOf? 10 whole).bind fun digits =>
        (fractionOf? (cs.dropWhile (!ends ·))).bind fun (fraction, e) =>
          let x := Decimal.nearest ⟨numberOf 10 (digits ++ fraction), e - fraction.length⟩
          if negative then some (-x) else if x.isInf then none else some x

/-! ## Dates and times -/

/-- The number that exactly these digits spell. -/
def fixedOf? (count : Nat) (cs : List Char) : Option Nat :=
  if cs.length = count ∧ cs.all Char.isDigit then some (naturalOf cs) else none

/-- How many days a month has. -/
def daysIn (year month : Nat) : Nat :=
  if month = 2 then
    if year % 4 = 0 ∧ (year % 100 ≠ 0 ∨ year % 400 = 0) then 29 else 28
  else if month = 4 ∨ month = 6 ∨ month = 9 ∨ month = 11 then 30
  else 31

/-- Whether the characters are a day of the calendar. -/
def isDate (cs : List Char) : Bool :=
  match fixedOf? 4 (cs.take 4), cs.drop 4 with
  | some year, '-' :: m₁ :: m₂ :: '-' :: day =>
    match fixedOf? 2 [m₁, m₂], fixedOf? 2 day with
    | some month, some day =>
      1 ≤ month && month ≤ 12 && 1 ≤ day && day ≤ daysIn year month
    | _, _ => false
  | _, _ => false

/-- Whether two digits spell a number of at most `limit`. -/
def isPart (limit : Nat) (a b : Char) : Bool :=
  match fixedOf? 2 [a, b] with
  | some n => n ≤ limit
  | none => false

/-- What follows a time of the day, if one comes first. -/
def afterTime? : List Char → Option (List Char)
  | h₁ :: h₂ :: ':' :: m₁ :: m₂ :: ':' :: s₁ :: s₂ :: rest =>
    if isPart 23 h₁ h₂ && isPart 59 m₁ m₂ && isPart 60 s₁ s₂ then
      match rest with
      | '.' :: f => if (f.head?.map Char.isDigit).getD false then some (f.dropWhile Char.isDigit)
        else none
      | _ => some rest
    else none
  | _ => none

/-- Whether the characters are a time zone, or none. -/
def isOffset : List Char → Bool
  | [] | ['Z'] | ['z'] => true
  | [sign, h₁, h₂, ':', m₁, m₂] =>
    (sign == '+' || sign == '-') && isPart 23 h₁ h₂ && isPart 59 m₁ m₂
  | _ => false

/-- Whether the characters are a time of the day. -/
def isTime (cs : List Char) : Bool :=
  afterTime? cs == some []

/-- Whether the characters are a time of the day in a time zone, or in none. -/
def isZonedTime (cs : List Char) : Bool :=
  ((afterTime? cs).map isOffset).getD false

/-- Whether the characters are a day and a time with a `T` in between. -/
def isDateTime (cs : List Char) : Bool :=
  isDate (cs.take 10) &&
    match cs.drop 10 with
    | t :: time => (t == 'T' || t == 't') && isZonedTime time
    | [] => true

/-! ## Runs -/

/-- What a run denotes. -/
def scalarOf? (cs : List Char) : Option Value :=
  if cs = "true".toList then some (.boolean true)
  else if cs = "false".toList then some (.boolean false)
  else if isDateTime cs || isTime cs then some .datetime
  else
    match integerOf? cs with
    | some n => some (.integer n)
    | none => (floatOf? cs).map .float

end DebugAdapter.Toml
