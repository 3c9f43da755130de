/-!
# Cutting texts

`splitOn` cuts a text at every occurrence of a character; `cutAt?` cuts it at the first one.
`parseIndex?` reads a number that addresses an item of a list.
-/

namespace DebugAdapter.Text

/-- The pieces of `cs` between the occurrences of `sep`; one more than there are occurrences. -/
def splitChars (sep : Char) : List Char → List (List Char)
  | [] => [[]]
  | c :: cs =>
    if c = sep then [] :: splitChars sep cs
    else match splitChars sep cs with
      | [] => [[c]]
      | piece :: pieces => (c :: piece) :: pieces

/-- The pieces of `s` between the occurrences of `sep`. -/
def splitOn (sep : Char) (s : String) : List String :=
  (splitChars sep s.toList).map String.ofList

/-- What stands before and after the first `sep`, if there is one. -/
def cutAt? (sep : Char) : List Char → Option (List Char × List Char)
  | [] => none
  | c :: cs => if c = sep then some ([], cs) else (cutAt? sep cs).map fun p => (c :: p.1, p.2)

/-- What follows `front` in `cs`, if `cs` begins with it. -/
def afterPrefix? : (front : List Char) → List Char → Option (List Char)
  | [], cs => some cs
  | _ :: _, [] => none
  | f :: front, c :: cs => if f = c then afterPrefix? front cs else none

/-- Whether `part` occurs in `cs`. -/
def occursIn (part : List Char) : List Char → Bool
  | [] => part.isEmpty
  | c :: cs => part.isPrefixOf (c :: cs) || occursIn part cs

/-- Why a number could not be read. -/
inductive NumeralFault where
  /-- There is no character at all. -/
  | empty
  /-- A character is no digit, or there is no digit. -/
  | invalidDigit
  /-- The number does not fit 64 bits. -/
  | tooLarge
  deriving DecidableEq, Repr

/-- The words for a fault of a number. -/
def NumeralFault.text : NumeralFault → String
  | empty => "cannot parse integer from empty string"
  | invalidDigit => "invalid digit found in string"
  | tooLarge => "number too large to fit in target type"

/-- Reads digits onto `n`, below `2 ^ 64`. -/
def numeralFrom (n : Nat) : List Char → Except NumeralFault Nat
  | [] => .ok n
  | c :: cs =>
    if c.isDigit then
      if n * 10 + (c.toNat - 48) < 0x10000000000000000 then
        numeralFrom (n * 10 + (c.toNat - 48)) cs
      else .error .tooLarge
    else .error .invalidDigit

/-- Reads a natural number below `2 ^ 64`; one plus sign may come first. -/
def parseNumeral (s : String) : Except NumeralFault Nat :=
  match s.toList with
  | [] => .error .empty
  | '+' :: [] => .error .invalidDigit
  | '+' :: cs => numeralFrom 0 cs
  | cs => numeralFrom 0 cs

/-- The index that a text denotes, if it denotes one. -/
def parseIndex? (s : String) : Option Nat :=
  (parseNumeral s).toOption

end DebugAdapter.Text
