import DebugAdapter.Json.Parser
import DebugAdapter.Json.Decode
/-!
# Decoding JSON text directly

The decoders here take typed data straight off a text, without a value in between. So the first
thing wrong decides the error, be it the text or the data, and every error has a place; a field
may not come twice; and members that are no field are passed over by `passValue`, however deep.
-/

namespace DebugAdapter.Json

open Ascii

/-- Why typed data could not be taken off a text. -/
inductive StreamFault where
  /-- The text is no JSON. -/
  | malformed (fault : Fault)
  /-- The data is of another kind. -/
  | undecodable (error : DecodeError)
  deriving DecidableEq, Repr

/-- A fault and the bytes not yet taken when it was found. -/
structure StreamStop where
  /-- What is wrong. -/
  fault : StreamFault
  /-- The bytes not taken. -/
  rest : Bytes
  deriving DecidableEq, Repr

/-- The message for a stop in `text`. -/
def StreamStop.message (text : Bytes) (s : StreamStop) : String :=
  (match s.fault with
    | .malformed f => f.text
    | .undecodable e => e.message) ++ (Place.before text s.rest).text

/-- A stop of the reader of values, as one of typed data. -/
def Stop.toStream (s : Stop) : StreamStop :=
  ⟨.malformed s.fault, s.rest⟩

/-- Takes typed data off a text within at most `depth - 1` more lists and objects. -/
abbrev StreamDecoder (α : Type) := (depth : Nat) → Bytes → Except StreamStop (α × Bytes)

namespace StreamDecoder

/-- Stops because the text is no JSON. -/
def malformed {α : Type} (fault : Fault) (rest : Bytes) : Except StreamStop (α × Bytes) :=
  .error ⟨.malformed fault, rest⟩

/-- Stops because the data is of another kind. -/
def undecodable {α : Type} (error : DecodeError) (rest : Bytes) : Except StreamStop (α × Bytes) :=
  .error ⟨.undecodable error, rest⟩

/-- What the reader of values gives, as the result of a decoder. -/
def lift {α : Type} (r : Except Stop (α × Bytes)) : Except StreamStop (α × Bytes) :=
  r.mapError Stop.toStream

/-! ## Passing over -/

/-- Passes over an escape, after its backslash. -/
def passEscape : Bytes → Except Stop (Unit × Bytes)
  | [] => stop .endInString []
  | b :: bs =>
    if b = 0x75 then (scanFourHex bs).map fun p => ((), p.2)
    else if b = quote ∨ b = backslash ∨ b = 0x2F ∨ b = 0x62 ∨ b = 0x66 ∨ b = 0x6E ∨ b = 0x72 ∨
      b = 0x74 then .ok ((), bs)
    else stop .invalidEscape bs

/-- Passes over a string, after its opening quote. -/
def passString : (fuel : Nat) → Bytes → Except Stop (Unit × Bytes)
  | 0, bs => stop .endInString bs
  | _, [] => stop .endInString []
  | fuel + 1, b :: bs =>
    if b = quote then .ok ((), bs)
    else if b = backslash then do
      let ((), bs) ← passEscape bs
      passString fuel bs
    else if b < 0x20 then stop .controlCharacter (b :: bs)
    else passString fuel bs

/-- Passes over a power of ten, after its letter. -/
def passExponent (bs : Bytes) : Except Stop (Unit × Bytes) :=
  let digits := match bs with
    | b :: r => if b = plus ∨ b = minus then r else bs
    | [] => []
  match digits with
  | [] => stop .invalidNumber []
  | d :: r => if isDigit d then .ok ((), (dropDigits 0 r).2) else stop .invalidNumber r

/-- Passes over what follows the whole digits of a number. -/
def passScaled : Bytes → Except Stop (Unit × Bytes)
  | [] => .ok ((), [])
  | b :: bs =>
    if b = 0x65 ∨ b = 0x45 then passExponent bs
    else if b = point then
      match dropDigits 0 bs with
      | (0, rest) => stop .invalidNumber (rest.drop 1)
      | (_, e :: rest) =>
        if e = 0x65 ∨ e = 0x45 then passExponent rest else .ok ((), e :: rest)
      | (_, []) => .ok ((), [])
    else .ok ((), b :: bs)

/-- Passes over a number, after its sign. -/
def passNumber : Bytes → Except Stop (Unit × Bytes)
  | [] => stop .invalidNumber []
  | d :: bs =>
    if d = zero then
      if digitNext bs then stop .invalidNumber (bs.drop 1) else passScaled bs
    else if isDigit d then passScaled (dropDigits 0 bs).2
    else stop .invalidNumber bs

/-- Passes over a value that is no list and no object. -/
def passScalar (b : UInt8) (bs : Bytes) : Except Stop (Unit × Bytes) :=
  if b = 0x6E then takeWord [0x75, 0x6C, 0x6C] bs
  else if b = 0x74 then takeWord [0x72, 0x75, 0x65] bs
  else if b = 0x66 then takeWord [0x61, 0x6C, 0x73, 0x65] bs
  else if b = minus then passNumber bs
  else if isDigit b then passNumber (b :: bs)
  else if b = quote then passString (bs.length + 1) bs
  else stop .expectedValue bs

/-- Passes over the name and the colon of a member. -/
def passKey (bs : Bytes) : Except Stop (Unit × Bytes) :=
  match skipBlank bs with
  | [] => stop .endInObject []
  | b :: bs =>
    if b = quote then do
      let ((), bs) ← passString (bs.length + 1) bs
      scanColon bs
    else stop .keyNotString bs

mutual

/-- Passes over a value within the lists (`false`) and objects (`true`) of `frames`, innermost
first, and then over the rest of those. -/
def passFrom : (fuel : Nat) → (frames : List Bool) → Bytes → Except Stop (Unit × Bytes)
  | 0, _, bs => stop .endInValue bs
  | fuel + 1, frames, bs =>
    match skipBlank bs with
    | [] => stop .endInValue []
    | b :: bs =>
      if b = openBracket then passRest fuel false (false :: frames) bs
      else if b = openBrace then passRest fuel false (true :: frames) bs
      else do
        let ((), bs) ← passScalar b bs
        passRest fuel true frames bs

/-- Passes over the rest of the lists and objects of `frames`; a comma may come first if the
innermost one has a value already. -/
def passRest : (fuel : Nat) → (commaFits : Bool) → (frames : List Bool) → Bytes →
    Except Stop (Unit × Bytes)
  | _, _, [], bs => .ok ((), bs)
  | 0, _, _ :: _, bs => stop .endInValue bs
  | fuel + 1, commaFits, inObject :: frames, bs =>
    match skipBlank bs with
    | [] => stop (if inObject then .endInObject else .endInList) []
    | b :: after =>
      if b = (if inObject then closeBrace else closeBracket) then passRest fuel true frames after
      else if commaFits ∧ b ≠ comma then
        stop (if inObject then .expectedObjectCommaOrEnd else .expectedListCommaOrEnd) after
      else do
        let next := if commaFits then after else b :: after
        if inObject then
          let ((), next) ← passKey next
          passFrom fuel (inObject :: frames) next
        else passFrom fuel (inObject :: frames) next

end

/-- Passes over a value. -/
def passValue (bs : Bytes) : Except Stop (Unit × Bytes) :=
  passFrom (2 * bs.length + 2) [] bs

/-! ## Taking data -/

/-- Stops at a value of another kind than `wanted`; a scalar is taken first. -/
def mismatch {α : Type} (wanted : String) (bs : Bytes) : Except StreamStop (α × Bytes) :=
  match bs with
  | [] => malformed .endInValue []
  | b :: _ =>
    if b = openBracket then undecodable (.wrongType .sequence wanted) bs
    else if b = openBrace then undecodable (.wrongType .map wanted) bs
    else
      match scan depthLimit bs with
      | .ok (v, rest) => undecodable (.wrongType v.found wanted) rest
      | .error s => .error s.toStream

/-- Takes any value. -/
def any : StreamDecoder Json := fun depth bs =>
  lift (scan depth bs)

/-- Takes a string. -/
def text : StreamDecoder String := fun _ bs =>
  match skipBlank bs with
  | quote :: after => lift (scanString after)
  | bs => mismatch "a string" bs

/-- Takes `null` for nothing, and else what `d` takes. -/
def optional {α : Type} (d : StreamDecoder α) : StreamDecoder (Option α) := fun depth bs =>
  match skipBlank bs with
  | 0x6E :: after => lift ((takeWord [0x75, 0x6C, 0x6C] after).map fun p => (none, p.2))
  | bs => (d depth bs).map fun p => (some p.1, p.2)

/-- Takes the separator in front of an item, if an item follows. -/
def itemNext (first : Bool) (bs : Bytes) : Except Stop (Bool × Bytes) :=
  match skipBlank bs with
  | [] => stop .endInList []
  | b :: after =>
    if b = closeBracket then .ok (false, b :: after)
    else if first then .ok (true, b :: after)
    else if b = comma then
      match skipBlank after with
      | [] => stop .endInValue []
      | c :: after => if c = closeBracket then stop .trailingComma after else .ok (true, c :: after)
    else stop .expectedListCommaOrEnd after

/-- Takes the items of a list up to its closing bracket. -/
def items {α : Type} (d : StreamDecoder α) (depth : Nat) :
    (fuel : Nat) → (first : Bool) → Bytes → Except StreamStop (List α × Bytes)
  | 0, _, bs => malformed .endInList bs
  | fuel + 1, first, bs => do
    let (more, bs) ← lift (itemNext first bs)
    if more then
      let (a, bs) ← d depth bs
      let (as, bs) ← items d depth fuel false bs
      return (a :: as, bs)
    else return ([], bs.drop 1)

/-- Takes a list of what `d` takes. -/
def list {α : Type} (d : StreamDecoder α) : StreamDecoder (List α) := fun depth bs =>
  match skipBlank bs with
  | openBracket :: after =>
    if depth ≤ 1 then malformed .tooDeep after
    else items d (depth - 1) (after.length + 1) true after
  | bs => mismatch "a sequence" bs

/-- A field of a record of type `ρ`. -/
structure Field (ρ : Type) where
  /-- The member that holds the field. -/
  name : String
  /-- Whether the field has no default. -/
  required : Bool
  /-- Takes the field off a text and stores it. -/
  store : ρ → StreamDecoder ρ

/-- A field that `d` takes and `put` stores. -/
def Field.of {ρ α : Type} (name : String) (required : Bool) (d : StreamDecoder α)
    (put : α → ρ → ρ) : Field ρ :=
  ⟨name, required, fun r depth bs => (d depth bs).map fun p => (put p.1 r, p.2)⟩

/-- The fields of a record of type `ρ`, in order. -/
structure Shape (ρ : Type) where
  /-- What messages call the record. -/
  name : String
  /-- The record before any field is stored. -/
  blank : ρ
  /-- The fields in order. -/
  fields : List (Field ρ)

/-- Where an error in the data of an object or list is placed: behind its end, if that comes. -/
def pastClose (close : UInt8) (bs : Bytes) : Bytes :=
  match skipBlank bs with
  | [] => []
  | b :: after => if b = close then after else b :: after

/-- Takes the separator in front of a member, if one follows. -/
def memberNext (first : Bool) (bs : Bytes) : Except Stop (Bool × Bytes) :=
  match skipBlank bs with
  | [] => stop .endInObject []
  | b :: after =>
    if b = closeBrace then .ok (false, after)
    else if first then if b = quote then .ok (true, after) else stop .keyNotString after
    else if b = comma then
      match skipBlank after with
      | [] => stop .endInValue []
      | c :: after =>
        if c = quote then .ok (true, after)
        else if c = closeBrace then stop .trailingComma after
        else stop .keyNotString after
    else stop .expectedObjectCommaOrEnd after

namespace Shape

variable {ρ : Type} (shape : Shape ρ)

/-- Takes the members of an object up to its closing brace. `seen` are the fields stored so far. -/
def members (depth : Nat) : (fuel : Nat) → (seen : List String) → (first : Bool) → ρ → Bytes →
    Except StreamStop (ρ × Bytes)
  | 0, _, _, _, bs => malformed .endInObject bs
  | fuel + 1, seen, first, r, bs => do
    let (more, bs) ← lift (memberNext first bs)
    if more then
      let (key, bs) ← lift (scanString bs)
      match shape.fields.find? (·.name == key) with
      | none =>
        let ((), bs) ← lift (scanColon bs)
        let ((), bs) ← lift (passValue bs)
        members depth fuel seen false r bs
      | some field =>
        if seen.contains key then undecodable (.duplicateField key) (pastClose closeBrace bs)
        else
          let ((), bs) ← lift (scanColon bs)
          let (r, bs) ← field.store r depth bs
          members depth fuel (key :: seen) false r bs
    else
      match shape.fields.find? fun f => f.required && !seen.contains f.name with
      | some field => undecodable (.missingField field.name) bs
      | none => return (r, bs)

/-- Takes the items of a list for the fields, one by one; `index` fields are stored already. -/
def fieldItems (depth : Nat) : (index : Nat) → List (Field ρ) → ρ → Bytes →
    Except StreamStop (ρ × Bytes)
  | _, [], r, bs => .ok (r, bs)
  | index, field :: fields, r, bs => do
    let (more, bs) ← lift (itemNext (index == 0) bs)
    if more then
      let (r, bs) ← field.store r depth bs
      fieldItems depth (index + 1) fields r bs
    else if field.required then
      undecodable (.tooFewItems index shape.name shape.fields.length) (pastClose closeBracket bs)
    else fieldItems depth (index + 1) fields r bs

/-- Takes the end of a list whose items are all taken. -/
def listEnd (bs : Bytes) : Except Stop (Unit × Bytes) :=
  match skipBlank bs with
  | [] => stop .endInList []
  | b :: after =>
    if b = closeBracket then .ok ((), after)
    else if b = comma then
      match skipBlank after with
      | [] => stop .trailingCharacters []
      | c :: after =>
        stop (if c = closeBracket then .trailingComma else .trailingCharacters) after
    else stop .trailingCharacters after

/-- Takes a record. -/
def decode : StreamDecoder ρ := fun depth bs =>
  match skipBlank bs with
  | openBrace :: after =>
    if depth ≤ 1 then malformed .tooDeep after
    else shape.members (depth - 1) (after.length + 1) [] true shape.blank after
  | openBracket :: after =>
    if depth ≤ 1 then malformed .tooDeep after
    else do
      let (r, bs) ← shape.fieldItems (depth - 1) 0 shape.fields shape.blank after
      let ((), bs) ← lift (listEnd bs)
      return (r, bs)
  | bs => mismatch ("struct " ++ shape.name) bs

end Shape

/-- Takes the data of a whole text, or gives the message of what is wrong. -/
def run {α : Type} (d : StreamDecoder α) (text : Bytes) : Except String α :=
  (do
    let r ← d depthLimit text
    (scanEnd r).mapError Stop.toStream : Except StreamStop α).mapError (StreamStop.message text)

end StreamDecoder

end DebugAdapter.Json
