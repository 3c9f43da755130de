import DebugAdapter.Number.Decimal
import DebugAdapter.Text.Table
/-!
# JSON values

`Json` is the value that scripts compute with, that requests carry and that variables show. A
`Json.Number` is a whole number that fits 64 bits, signed or unsigned, or a finite double. Objects
keep their entries in a `Table`.
-/

namespace DebugAdapter

namespace Json

/-- The whole numbers that a JSON number holds exactly. -/
abbrev FitsWord (n : Int) : Prop :=
  -0x8000000000000000 ≤ n ∧ n < 0x10000000000000000

/-- A JSON number. -/
inductive Number where
  /-- A whole number. -/
  | int (n : Int) (fits : FitsWord n)
  /-- A finite double. -/
  | double (x : Float) (finite : x.isFinite = true)
  deriving DecidableEq

namespace Number

/-- Whether the number is a double. -/
def isDouble : Number → Bool
  | int _ _ => false
  | double _ _ => true

/-- The number as a signed word, if it is one. -/
def toSigned? : Number → Option Int
  | int n _ => if n < 0x8000000000000000 then some n else none
  | double _ _ => none

/-- The double closest to the number. -/
def toFloat : Number → Float
  | int n _ => Float.ofInt n
  | double x _ => x

/-- The number for a whole number, if it fits. -/
def ofInt? (n : Int) : Option Number :=
  if h : FitsWord n then some (int n h) else none

/-- The number for a natural number below `2 ^ 64`. -/
def ofNat (n : Nat) (h : n < 0x10000000000000000) : Number :=
  int n ⟨by omega, by omega⟩

/-- The number for a double, if it is finite. -/
def ofFloat? (x : Float) : Option Number :=
  if h : x.isFinite = true then some (double x h) else none

end Number

end Json

/-- A JSON value. -/
inductive Json where
  /-- The value `null`. -/
  | null
  /-- A truth value. -/
  | bool (b : Bool)
  /-- A number. -/
  | number (n : Json.Number)
  /-- A text. -/
  | string (s : String)
  /-- A list of values. -/
  | array (items : List Json)
  /-- Values under names. -/
  | object (entries : List (String × Json))
  deriving Inhabited

namespace Json

/-- The members of an object. -/
abbrev Fields := Table Json

/-- The number for a natural number, which the callers keep below `2 ^ 64`; larger ones become
the nearest double, or `null` beyond them all. -/
def ofNat (n : Nat) : Json :=
  if h : n < 0x10000000000000000 then number (Number.ofNat n h)
  else ((Number.ofFloat? (Float.ofNat n)).map number).getD null

/-- The number for an integer; one that fits no word becomes the nearest double. -/
def ofInt (n : Int) : Json :=
  match Number.ofInt? n with
  | some m => number m
  | none => ((Number.ofFloat? (Float.ofInt n)).map number).getD null

/-- The object with these members. -/
def mk (members : List (String × Json)) : Json :=
  object (Table.ofList members)

/-- The member `key` of an object. -/
def member? : Json → String → Option Json
  | object entries, key => Table.get? entries key
  | _, _ => none

/-- The text of a string value. -/
def text? : Json → Option String
  | string s => some s
  | _ => none

/-- Whether the value is `null`. -/
def isNull : Json → Bool
  | null => true
  | _ => false

end Json

end DebugAdapter
