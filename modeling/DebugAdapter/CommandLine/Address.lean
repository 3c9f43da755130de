/-!
# Socket addresses

An address names a place to listen on: an IPv4 address or an IPv6 address in brackets, a colon and
the number of a socket. `isAddress` tells whether a text is one.
-/

namespace DebugAdapter.CommandLine

/-- How a number in an address is written. -/
structure Numeral where
  base : Nat
  /-- The most digits it may have. -/
  maxDigits : Option Nat
  /-- Whether it may start with a zero that does not count. -/
  leadingZeros : Bool
  /-- The greatest number. -/
  bound : Nat

namespace Numeral

/-- A part of an IPv4 address. -/
def octet : Numeral := ⟨10, some 3, false, 0xFF⟩

/-- A part of an IPv6 address. -/
def group : Numeral := ⟨16, some 4, true, 0xFFFF⟩

/-- The number of a socket. -/
def socket : Numeral := ⟨10, none, true, 0xFFFF⟩

/-- The number of an interface. -/
def scope : Numeral := ⟨10, none, true, 0xFFFFFFFF⟩

/-- The value of a digit. -/
def digit? (base : Nat) (c : Char) : Option Nat :=
  let value? :=
    if '0' ≤ c ∧ c ≤ '9' then some (c.toNat - '0'.toNat)
    else if 'a' ≤ c ∧ c ≤ 'f' then some (c.toNat - 'a'.toNat + 10)
    else if 'A' ≤ c ∧ c ≤ 'F' then some (c.toNat - 'A'.toNat + 10)
    else none
  value?.filter (· < base)

/-- What follows the number at the start of a text, if there is one. -/
def take? (n : Numeral) (cs : List Char) : Option (List Char) :=
  let (digits, rest) := cs.span fun c => (digit? n.base c).isSome
  let value := digits.foldl (fun v c => v * n.base + (digit? n.base c).getD 0) 0
  if digits.isEmpty || n.maxDigits.any (· < digits.length) || n.bound < value ||
      (!n.leadingZeros && digits.head? == some '0' && digits.length != 1) then none
  else some rest

end Numeral

/-- What follows a character at the start of a text, if it is there. -/
def takeChar? (c : Char) : List Char → Option (List Char)
  | [] => none
  | d :: cs => if d = c then some cs else none

/-- Takes `take?` off a text `n` times, with `separator` in between. -/
def takeSeparated? (separator : Char) (take? : List Char → Option (List Char)) :
    (n : Nat) → List Char → Option (List Char)
  | 0, cs => some cs
  | 1, cs => take? cs
  | n + 2, cs => do takeSeparated? separator take? (n + 1) (← takeChar? separator (← take? cs))

/-- What follows the IPv4 address at the start of a text, if there is one. -/
def takeIPv4? (cs : List Char) : Option (List Char) :=
  takeSeparated? '.' Numeral.octet.take? 4 cs

/-- The groups of an IPv6 address at the start of a text. -/
structure Groups where
  /-- How many there are; an IPv4 address at the end counts twice. -/
  count : Nat
  /-- Whether there is an IPv4 address at the end. -/
  hasIPv4 : Bool
  /-- What follows. -/
  rest : List Char

/-- Takes groups off a text of which `count` were taken before, at most `left` more. -/
def takeGroups : (left count : Nat) → List Char → Groups
  | 0, count, cs => ⟨count, false, cs⟩
  | left + 1, count, cs =>
    let next? := if count = 0 then some cs else takeChar? ':' cs
    match if left = 0 then none else next?.bind takeIPv4? with
    | some rest => ⟨count + 2, true, rest⟩
    | none =>
      match next?.bind Numeral.group.take? with
      | some rest => takeGroups left (count + 1) rest
      | none => ⟨count, false, cs⟩

/-- What follows the IPv6 address at the start of a text, if there is one. Two colons stand for at
least one group of zeros. -/
def takeIPv6? (cs : List Char) : Option (List Char) :=
  let front := takeGroups 8 0 cs
  if front.count = 8 then some front.rest
  else if front.hasIPv4 then none
  else
    match front.rest with
    | ':' :: ':' :: cs => some (takeGroups (7 - front.count) 0 cs).rest
    | _ => none

/-- What follows the number of an interface, if there is one, or else the whole text. -/
def takeScope (cs : List Char) : List Char :=
  ((takeChar? '%' cs).bind Numeral.scope.take?).getD cs

/-- What follows the host of an address, if there is one. -/
def takeHost? (cs : List Char) : Option (List Char) :=
  match takeChar? '[' cs with
  | none => takeIPv4? cs
  | some cs => do takeChar? ']' (takeScope (← takeIPv6? cs))

/-- Whether a text is an address. -/
def isAddress (text : String) : Bool :=
  (do Numeral.socket.take? (← takeChar? ':' (← takeHost? text.toList))) == some []

end DebugAdapter.CommandLine
