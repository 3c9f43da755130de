/-!
# UTF-8

`encode` writes characters as bytes. `decode?` reads bytes that are well formed throughout;
`decodeLossy` reads any bytes, one replacement character for each longest ill-formed run.
`dropWellFormed` finds the first of these runs. `decodeFirst?` is the step of all three: the
character whose encoding begins the bytes.
-/

namespace DebugAdapter

/-- Byte strings, as they come off the wire and out of files. -/
abbrev Bytes := List UInt8

namespace Utf8

/-- The bytes of the characters, one encoding after the other. -/
def encode (cs : List Char) : Bytes :=
  cs.flatMap String.utf8EncodeChar

/-- The bytes of a text. -/
def ofString (s : String) : Bytes :=
  encode s.toList

/-- The low six bits of a continuation byte. -/
def payload (b : UInt8) : Nat :=
  b.toNat % 64

/-- The code point that the first `n` bytes would carry, lead byte masked for that length. -/
def assemble : Bytes → Nat → Nat
  | a :: _, 1 => a.toNat
  | a :: b :: _, 2 => a.toNat % 32 * 64 + payload b
  | a :: b :: c :: _, 3 => (a.toNat % 16 * 64 + payload b) * 64 + payload c
  | a :: b :: c :: d :: _, 4 => ((a.toNat % 8 * 64 + payload b) * 64 + payload c) * 64 + payload d
  | _, _ => 0

/-- How many bytes a sequence with this lead byte has. -/
def leadLength (a : UInt8) : Nat :=
  if a < 0x80 then 1 else if a < 0xE0 then 2 else if a < 0xF0 then 3 else 4

/-- The character whose encoding begins `bs`. -/
def decodeFirst? (bs : Bytes) : Option Char :=
  match bs with
  | [] => none
  | a :: _ =>
    let c := Char.ofNat (assemble bs (leadLength a))
    if (String.utf8EncodeChar c).isPrefixOf bs then some c else none

theorem length_drop_lt {bs : Bytes} {c : Char} (h : decodeFirst? bs = some c) :
    (bs.drop c.utf8Size).length < bs.length := by
  cases bs with
  | nil => simp [decodeFirst?] at h
  | cons a r =>
    have := c.utf8Size_pos
    simp only [List.length_drop, List.length_cons]
    omega

/-- Whether `b` may follow the lead byte `a` of a sequence of three or four bytes. -/
def secondFits (a b : UInt8) : Bool :=
  if a == 0xE0 then 0xA0 ≤ b && b ≤ 0xBF
  else if a == 0xED then 0x80 ≤ b && b ≤ 0x9F
  else if a == 0xF0 then 0x90 ≤ b && b ≤ 0xBF
  else if a == 0xF4 then 0x80 ≤ b && b ≤ 0x8F
  else 0xE1 ≤ a && a ≤ 0xF3 && 0x80 ≤ b && b ≤ 0xBF

/-- How many bytes the ill-formed run at the start of the bytes has: the longest beginning of
some well-formed sequence, and at least one byte. -/
def faultLength : Bytes → Nat
  | a :: b :: c :: _ =>
    if secondFits a b then if 0xF0 ≤ a && 0x80 ≤ c && c ≤ 0xBF then 3 else 2 else 1
  | [a, b] => if secondFits a b then 2 else 1
  | _ => 1

theorem faultLength_pos (bs : Bytes) : 0 < faultLength bs := by
  unfold faultLength
  split <;> repeat' split
  all_goals omega

/-- The characters that the bytes encode, if they are well formed throughout. -/
def decode? (bs : Bytes) : Option (List Char) :=
  match bs with
  | [] => some []
  | a :: r =>
    match _h : decodeFirst? (a :: r) with
    | some c => (decode? ((a :: r).drop c.utf8Size)).map (c :: ·)
    | none => none
termination_by bs.length
decreasing_by exact length_drop_lt _h

/-- The bytes from the first ill-formed run on, none if they are well formed throughout. -/
def dropWellFormed (bs : Bytes) : Bytes :=
  match bs with
  | [] => []
  | a :: r =>
    match _h : decodeFirst? (a :: r) with
    | some c => dropWellFormed ((a :: r).drop c.utf8Size)
    | none => a :: r
termination_by bs.length
decreasing_by exact length_drop_lt _h

/-- The characters of the bytes, ill-formed runs read as U+FFFD. -/
def decodeLossy (bs : Bytes) : List Char :=
  match bs with
  | [] => []
  | a :: r =>
    match _h : decodeFirst? (a :: r) with
    | some c => c :: decodeLossy ((a :: r).drop c.utf8Size)
    | none => '\uFFFD' :: decodeLossy ((a :: r).drop (faultLength (a :: r)))
termination_by bs.length
decreasing_by
  · exact length_drop_lt _h
  · have := faultLength_pos (a :: r)
    simp only [List.length_drop, List.length_cons]
    omega

/-- The text that the bytes encode, if they are well formed throughout. -/
def toString? (bs : Bytes) : Option String :=
  (decode? bs).map String.ofList

/-- The text of the bytes, ill-formed runs read as U+FFFD. -/
def toStringLossy (bs : Bytes) : String :=
  String.ofList (decodeLossy bs)

@[simp] theorem encode_nil : encode [] = [] := rfl

@[simp] theorem encode_cons (c : Char) (cs : List Char) :
    encode (c :: cs) = String.utf8EncodeChar c ++ encode cs := rfl

@[simp] theorem encode_append (cs ds : List Char) : encode (cs ++ ds) = encode cs ++ encode ds := by
  simp [encode]

end Utf8

end DebugAdapter
