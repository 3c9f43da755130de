/-!
# Digits

`digitOf?` is the value of a digit in a base of at most sixteen, in either case, and `numberOf`
the number that digits spell.
-/

namespace DebugAdapter.Text

/-- The value of a digit in a base of at most sixteen. -/
def digitOf? (base : Nat) (c : Char) : Option Nat :=
  let v :=
    if c.isDigit then c.toNat - 48
    else if 'a' ≤ c ∧ c ≤ 'f' then c.toNat - 87
    else if 'A' ≤ c ∧ c ≤ 'F' then c.toNat - 55
    else base
  if v < base then some v else none

/-- The number that digits spell. -/
def numberOf (base : Nat) (digits : List Nat) : Nat :=
  digits.foldl (fun n d => n * base + d) 0

/-- The number that decimal digits spell. -/
def naturalOf (cs : List Char) : Nat :=
  numberOf 10 (cs.map fun c => c.toNat - 48)

end DebugAdapter.Text
