import DebugAdapter.Json.Basic
import DebugAdapter.Json.Fault
/-!
# Reading JSON text

`Json.parse` reads one value from bytes, nothing but blanks around it, with lists and objects
nested at most 127 deep. Of members with one name the last value counts, at the first one's place.
A number with neither point nor power of ten is a whole number if it fits a word. Any other is
read as a double in two roundings: its leading digits, as far as they fit 64 bits, and one power
of ten.
-/

namespace DebugAdapter.Json

open Ascii

/-- Stops with only `rest` left. -/
def stop {α : Type} (fault : Fault) (rest : Bytes) : Except Stop (α × Bytes) :=
  .error ⟨fault, rest⟩

/-- The bytes that may stand between the parts of a text. -/
def isBlankByte (b : UInt8) : Bool :=
  b == 0x20 || b == lineFeed || b == 0x09 || b == carriageReturn

/-- The bytes from the first one that is not blank. -/
def skipBlank (bs : Bytes) : Bytes :=
  bs.dropWhile isBlankByte

/-- Takes exactly the bytes `word`. -/
def takeWord : (word : Bytes) → Bytes → Except Stop (Unit × Bytes)
  | [], bs => .ok ((), bs)
  | _ :: _, [] => stop .endInValue []
  | w :: word, b :: bs => if w = b then takeWord word bs else stop .expectedIdent bs

/-! ## Numbers -/

/-- Whether the next byte is a digit. -/
def digitNext : Bytes → Bool
  | b :: _ => isDigit b
  | [] => false

/-- Takes digits onto `n` as long as the number stays below `2 ^ 64`; also how many it took. -/
def takeDigits (n taken : Nat) : Bytes → Nat × Nat × Bytes
  | b :: bs =>
    if isDigit b ∧ n * 10 + digitValue b < 0x10000000000000000 then
      takeDigits (n * 10 + digitValue b) (taken + 1) bs
    else (n, taken, b :: bs)
  | [] => (n, taken, [])

/-- Drops digits; also how many there were. -/
def dropDigits (dropped : Nat) : Bytes → Nat × Bytes
  | b :: bs => if isDigit b then dropDigits (dropped + 1) bs else (dropped, b :: bs)
  | [] => (dropped, [])

/-- `10 ^ e` as a double. -/
def powerOfTen (e : Nat) : Float :=
  Decimal.nearest ⟨1, e⟩

/-- `x · 10 ^ e`, rounded at each step; nothing when it exceeds every double. -/
def scaleByTen (x : Float) (e : Int) : Option Float :=
  if e.natAbs ≤ 308 then
    if 0 ≤ e then
      let y := x * powerOfTen e.natAbs
      if y.isInf then none else some y
    else some (x / powerOfTen e.natAbs)
  else if x == 0 then some x
  else if 0 ≤ e then none
  else scaleByTen (x / powerOfTen 308) (e + 308)
termination_by e.natAbs

/-- Ends a number whose digits and power of ten are known. -/
def endScaled (negative : Bool) (significand : Nat) (exponent : Int) (rest : Bytes) :
    Except Stop (Number × Bytes) :=
  match (scaleByTen (Float.ofNat significand) exponent).bind fun x =>
      Number.ofFloat? (if negative then -x else x) with
  | some n => .ok (n, rest)
  | none => stop .numberOutOfRange rest

/-- The largest power of ten that is counted out. -/
def maxExponent : Nat :=
  0x7FFFFFFF

/-- Takes the digits of a power of ten; nothing once they exceed `maxExponent`. -/
def takeExponent (e : Nat) : Bytes → Option Nat × Bytes
  | b :: bs =>
    if isDigit b then
      if e * 10 + digitValue b ≤ maxExponent then takeExponent (e * 10 + digitValue b) bs
      else (none, bs)
    else (some e, b :: bs)
  | [] => (some e, [])

/-- Reads the power of ten of a number, after its letter. -/
def scanExponent (negative : Bool) (significand : Nat) (start : Int) (bs : Bytes) :
    Except Stop (Number × Bytes) :=
  let (down, digits) := match bs with
    | plus :: r => (false, r)
    | minus :: r => (true, r)
    | _ => (false, bs)
  match digits with
  | [] => stop .endInValue []
  | d :: r =>
    if isDigit d then
      match takeExponent (digitValue d) r with
      | (some e, rest) =>
        let exponent := if down then start - e else start + e
        endScaled negative significand (max (-0x80000000) (min 0x7FFFFFFF exponent)) rest
      | (none, rest) =>
        if significand ≠ 0 ∧ ¬down then stop .numberOutOfRange rest
        else endScaled negative 0 0 (dropDigits 0 rest).2
    else stop .invalidNumber r

/-- Reads what follows the digits of a number that is no whole number. -/
def scanScaled (negative : Bool) (significand : Nat) (exponent : Int) :
    Bytes → Except Stop (Number × Bytes)
  | b :: bs =>
    if b = 0x65 ∨ b = 0x45 then scanExponent negative significand exponent bs
    else endScaled negative significand exponent (b :: bs)
  | [] => endScaled negative significand exponent []

/-- Reads the digits after the point. Digits that no longer fit 64 bits are dropped. -/
def scanFraction (negative : Bool) (significand : Nat) (exponent : Int) (bs : Bytes) :
    Except Stop (Number × Bytes) :=
  let (n, taken, rest) := takeDigits significand 0 bs
  if digitNext rest then
    scanScaled negative n (exponent - taken) (dropDigits 0 rest).2
  else if taken = 0 then
    if rest.isEmpty then stop .endInValue [] else stop .invalidNumber (rest.drop 1)
  else scanScaled negative n (exponent - taken) rest

/-- Reads what follows the whole digits of a number; `dropped` of them did not fit 64 bits. -/
def scanAfterWhole (negative : Bool) (significand dropped : Nat) :
    Bytes → Except Stop (Number × Bytes)
  | b :: bs =>
    if b = point then scanFraction negative significand dropped bs
    else scanScaled negative significand dropped (b :: bs)
  | [] => scanScaled negative significand dropped []

/-- Whether a fraction or a power of ten follows. -/
def scaledNext : Bytes → Bool
  | b :: _ => b = point ∨ b = 0x65 ∨ b = 0x45
  | [] => false

/-- Reads a number after its sign. -/
def scanUnsigned (negative : Bool) : Bytes → Except Stop (Number × Bytes)
  | [] => stop .endInValue []
  | d :: bs =>
    if isDigit d then
      if d = zero ∧ digitNext bs then stop .invalidNumber (bs.drop 1)
      else
        let (n, _, rest) := takeDigits (digitValue d) 0 bs
        let (dropped, after) := dropDigits 0 rest
        if dropped ≠ 0 ∨ scaledNext after then scanAfterWhole negative n dropped after
        else
          let whole : Int := if negative then -(n : Int) else n
          match
            if negative ∧ (n = 0 ∨ 0x8000000000000000 < n) then none else Number.ofInt? whole with
          | some m => .ok (m, after)
          | none => endScaled negative n 0 after
    else stop .invalidNumber bs

/-! ## Strings -/

/-- The UTF-8 bytes of a code point. -/
def codePointBytes (n : Nat) : Bytes :=
  String.utf8EncodeChar (Char.ofNat n)

/-- Reads four digits in base sixteen. -/
def scanFourHex : Bytes → Except Stop (Nat × Bytes)
  | a :: b :: c :: d :: bs =>
    match hexValue? a, hexValue? b, hexValue? c, hexValue? d with
    | some a, some b, some c, some d => .ok (((a * 16 + b) * 16 + c) * 16 + d, bs)
    | _, _, _, _ => stop .invalidEscape bs
  | _ => stop .endInString []

/-- Takes the byte `b`, which a pair of surrogates needs here. -/
def takeForPair (b : UInt8) : Bytes → Except Stop (Unit × Bytes)
  | [] => stop .endInString []
  | x :: bs => if x = b then .ok ((), bs) else stop .unfinishedSurrogate bs

/-- Reads an escape by number, after its letter. -/
def scanNumericEscape (bs : Bytes) : Except Stop (Bytes × Bytes) := do
  let (n, bs) ← scanFourHex bs
  if 0xDC00 ≤ n ∧ n ≤ 0xDFFF then stop .loneSurrogate bs
  else if 0xD800 ≤ n ∧ n ≤ 0xDBFF then
    let ((), bs) ← takeForPair backslash bs
    let ((), bs) ← takeForPair 0x75 bs
    let (m, bs) ← scanFourHex bs
    if 0xDC00 ≤ m ∧ m ≤ 0xDFFF then
      return (codePointBytes ((n - 0xD800) * 1024 + (m - 0xDC00) + 0x10000), bs)
    else stop .loneSurrogate bs
  else return (codePointBytes n, bs)

/-- Reads an escape, after its backslash. -/
def scanEscape : Bytes → Except Stop (Bytes × Bytes)
  | [] => stop .endInString []
  | b :: bs =>
    if b = quote ∨ b = backslash ∨ b = 0x2F then .ok ([b], bs)
    else if b = 0x62 then .ok ([0x08], bs)
    else if b = 0x66 then .ok ([0x0C], bs)
    else if b = 0x6E then .ok ([0x0A], bs)
    else if b = 0x72 then .ok ([0x0D], bs)
    else if b = 0x74 then .ok ([0x09], bs)
    else if b = 0x75 then scanNumericEscape bs
    else stop .invalidEscape bs

/-- Reads the bytes of a string, its escapes resolved, up to and with the closing quote; `held` are
the bytes so far, latest first. -/
def scanStringBytes : (fuel : Nat) → (held : Bytes) → Bytes → Except Stop (Bytes × Bytes)
  | 0, _, bs => stop .endInString bs
  | _, _, [] => stop .endInString []
  | fuel + 1, held, b :: bs =>
    if b = quote then .ok (held.reverse, bs)
    else if b = backslash then do
      let (escaped, bs) ← scanEscape bs
      scanStringBytes fuel (escaped.reverse ++ held) bs
    else if b < 0x20 then stop .controlCharacter bs
    else scanStringBytes fuel (b :: held) bs

/-- Reads a string after its opening quote. Content that is no UTF-8 is found at the closing quote.
Its place is counted back from behind that quote: one byte for each byte of the content from the
first on that begins no character. If no escape follows, this is right behind that first byte;
each escape that does follow moves it on, as it is longer than what it stands for. -/
def scanString (bs : Bytes) : Except Stop (String × Bytes) := do
  let (content, rest) ← scanStringBytes (bs.length + 1) [] bs
  match Utf8.toString? content with
  | some s => return (s, rest)
  | none =>
    let left := rest.length + (Utf8.dropWellFormed content).length
    stop .invalidCodePoint (bs.drop (bs.length - left))

/-! ## Values -/

/-- Reads the colon between a name and its value. -/
def scanColon (bs : Bytes) : Except Stop (Unit × Bytes) :=
  match skipBlank bs with
  | [] => stop .endInObject []
  | b :: bs => if b = colon then .ok ((), bs) else stop .expectedColon bs

/-- Reads the name and the colon of a member. -/
def scanKey (bs : Bytes) : Except Stop (String × Bytes) := do
  let (key, bs) ← scanString bs
  let ((), bs) ← scanColon bs
  return (key, bs)

/-- One more than the number of lists and objects that may be nested. -/
def depthLimit : Nat := 128

mutual

/-- Reads a value within at most `depth - 1` more lists and objects. -/
def scanValue : (fuel depth : Nat) → Bytes → Except Stop (Json × Bytes)
  | 0, _, bs => stop .endInValue bs
  | fuel + 1, depth, bs =>
    match skipBlank bs with
    | [] => stop .endInValue []
    | b :: bs =>
      if b = 0x6E then (takeWord [0x75, 0x6C, 0x6C] bs).map fun p => (null, p.2)
      else if b = 0x74 then (takeWord [0x72, 0x75, 0x65] bs).map fun p => (bool true, p.2)
      else if b = 0x66 then (takeWord [0x61, 0x6C, 0x73, 0x65] bs).map fun p => (bool false, p.2)
      else if b = minus then (scanUnsigned true bs).map fun p => (number p.1, p.2)
      else if isDigit b then (scanUnsigned false (b :: bs)).map fun p => (number p.1, p.2)
      else if b = quote then (scanString bs).map fun p => (string p.1, p.2)
      else if b = openBracket then
        if depth ≤ 1 then stop .tooDeep bs
        else (scanItems fuel (depth - 1) true bs).map fun p => (array p.1, p.2)
      else if b = openBrace then
        if depth ≤ 1 then stop .tooDeep bs
        else (scanMembers fuel (depth - 1) true bs).map fun p => (mk p.1, p.2)
      else stop .expectedValue bs

/-- Reads the items of a list up to its closing bracket. -/
def scanItems : (fuel depth : Nat) → (first : Bool) → Bytes → Except Stop (List Json × Bytes)
  | 0, _, _, bs => stop .endInList bs
  | fuel + 1, depth, first, bs =>
    match skipBlank bs with
    | [] => stop .endInList []
    | b :: after =>
      if b = closeBracket then .ok ([], after)
      else if first then do
        let (item, bs) ← scanValue fuel depth (b :: after)
        let (items, bs) ← scanItems fuel depth false bs
        return (item :: items, bs)
      else if b = comma then
        match skipBlank after with
        | [] => stop .endInValue []
        | c :: after =>
          if c = closeBracket then stop .trailingComma after
          else do
            let (item, bs) ← scanValue fuel depth (c :: after)
            let (items, bs) ← scanItems fuel depth false bs
            return (item :: items, bs)
      else stop .expectedListCommaOrEnd after

/-- Reads the members of an object up to its closing brace. -/
def scanMembers : (fuel depth : Nat) → (first : Bool) → Bytes →
    Except Stop (List (String × Json) × Bytes)
  | 0, _, _, bs => stop .endInObject bs
  | fuel + 1, depth, first, bs =>
    match skipBlank bs with
    | [] => stop .endInObject []
    | b :: after =>
      if b = closeBrace then .ok ([], after)
      else if first then
        if b = quote then do
          let (key, bs) ← scanKey after
          let (value, bs) ← scanValue fuel depth bs
          let (members, bs) ← scanMembers fuel depth false bs
          return ((key, value) :: members, bs)
        else stop .keyNotString after
      else if b = comma then
        match skipBlank after with
        | [] => stop .endInValue []
        | c :: after =>
          if c = quote then do
            let (key, bs) ← scanKey after
            let (value, bs) ← scanValue fuel depth bs
            let (members, bs) ← scanMembers fuel depth false bs
            return ((key, value) :: members, bs)
          else if c = closeBrace then stop .trailingComma after
          else stop .keyNotString after
      else stop .expectedObjectCommaOrEnd after

end

/-- Reads a value at the start of `bs`. -/
def scan (depth : Nat) (bs : Bytes) : Except Stop (Json × Bytes) :=
  scanValue (2 * bs.length + 2) depth bs

/-- Ends a text: only blanks may be left. -/
def scanEnd {α : Type} (r : α × Bytes) : Except Stop α :=
  match skipBlank r.2 with
  | [] => .ok r.1
  | _ :: bs => .error ⟨.trailingCharacters, bs⟩

/-- The value that a JSON text denotes. -/
def parse (text : Bytes) : Except SyntaxError Json :=
  (scan depthLimit text >>= scanEnd).mapError (Stop.locate text)

/-- The value that a JSON text denotes, if it is one. -/
def ofText? (text : String) : Option Json :=
  (parse (Utf8.ofString text)).toOption

end DebugAdapter.Json
