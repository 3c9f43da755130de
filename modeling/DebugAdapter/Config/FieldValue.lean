import DebugAdapter.Number.Double
import DebugAdapter.Pattern.Support
import DebugAdapter.Text.Split
/-!
# Values of fields

A log directive may ask for the value of a field. `FieldValue.ofText?` takes the text of a value
for the first of these that it can be: a truth value, a word without or with a sign, a double, a
pattern. Only texts that are no pattern either are refused.
-/

namespace DebugAdapter.Config

/-- What the value of a field has to be. -/
inductive FieldValue where
  /-- A truth value. -/
  | boolean (b : Bool)
  /-- A double that is a number. -/
  | double (x : Float)
  /-- A double that is no number. -/
  | notANumber
  /-- A word without a sign. -/
  | unsigned (n : Nat)
  /-- A word with a sign. -/
  | signed (n : Int)
  /-- A text that matches a pattern. -/
  | pattern (source : String)
  deriving DecidableEq, Repr

namespace FieldValue

/-- The word that a minus sign and digits spell. -/
def signedOf? : List Char → Option Int
  | '-' :: c :: cs =>
    (Text.numeralFrom 0 (c :: cs)).toOption.bind fun n =>
      if n ≤ 0x8000000000000000 then some (-n) else none
  | _ => none

/-- The value of a double. -/
def ofFloat (x : Float) : FieldValue :=
  if x.isNaN then notANumber else double x

/-- The value of a pattern. -/
def ofPattern? (s : String) : Option FieldValue :=
  if Pattern.isValid s then some (pattern s) else none

/-- The value that a text stands for. -/
def ofText? (s : String) : Option FieldValue :=
  if s = "true" then some (boolean true)
  else if s = "false" then some (boolean false)
  else ((Text.parseIndex? s).map unsigned).or <|
    ((signedOf? s.toList).map signed).or <|
    ((Double.ofChars? s.toList).map ofFloat).or <| ofPattern? s

/-- The text of a value. -/
def text : FieldValue → String
  | boolean b => if b then "true" else "false"
  | double x => Double.text x
  | notANumber => "NaN"
  | unsigned n => toString n
  | signed n => toString n
  | pattern s => s

/-- The number of the kind of a value, by which values of different kinds are ordered. -/
def kind : FieldValue → Nat
  | boolean _ => 0
  | double _ => 1
  | notANumber => 2
  | unsigned _ => 3
  | signed _ => 4
  | pattern _ => 5

/-- Compares two doubles that are numbers; both zeros are equal. -/
def compareDouble (x y : Float) : Ordering :=
  if x < y then .lt else if y < x then .gt else .eq

/-- Compares two values. -/
def compare : FieldValue → FieldValue → Ordering
  | boolean a, boolean b => Ord.compare a.toNat b.toNat
  | double x, double y => compareDouble x y
  | unsigned m, unsigned n => Ord.compare m n
  | signed m, signed n => Ord.compare m n
  | pattern s, pattern t => Ord.compare s t
  | v, w => Ord.compare v.kind w.kind

end FieldValue

end DebugAdapter.Config
