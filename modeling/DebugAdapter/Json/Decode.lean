import DebugAdapter.Json.Printer
import DebugAdapter.Text.Quoted
/-!
# Decoding JSON values

A decoder turns a value into typed data or says, as a `DecodeError`, what it found and what it
wanted. Records come as objects, members in any order, or as lists of their fields in order.
The first member or item at fault decides the error; fields that are missing come last.
-/

namespace DebugAdapter.Json

/-- What a decoder found where it wanted something else. -/
inductive Found where
  | null
  | bool (b : Bool)
  | int (n : Int)
  | float (text : String)
  | string (s : String)
  | sequence
  | map
  deriving DecidableEq, Repr

/-- The words for what was found. -/
def Found.text : Found → String
  | null => "null"
  | bool b => "boolean `" ++ (if b then "true" else "false") ++ "`"
  | int n => "integer `" ++ toString n ++ "`"
  | float t => "floating point `" ++ t ++ "`"
  | string s => "string " ++ Text.quote s
  | sequence => "sequence"
  | map => "map"

/-- A value as a decoder reports it. -/
def found : Json → Found
  | null => .null
  | bool b => .bool b
  | number (.int n _) => .int n
  | number (.double x h) => .float (String.ofList (Number.double x h).render)
  | string s => .string s
  | array _ => .sequence
  | object _ => .map

/-- Why a value could not be decoded. -/
inductive DecodeError where
  /-- A value of another kind was wanted. -/
  | wrongType (found : Found) (wanted : String)
  /-- The number is not in the wanted range. -/
  | wrongValue (n : Int) (wanted : String)
  /-- A field without a default is missing. -/
  | missingField (name : String)
  /-- A field comes twice. -/
  | duplicateField (name : String)
  /-- A record of `fields` fields came as a list of fewer items. -/
  | tooFewItems (given : Nat) (record : String) (fields : Nat)
  /-- A record came as a list of more items than it has fields. -/
  | tooManyItems (given : Nat)
  deriving DecidableEq, Repr

/-- The message for a value that could not be decoded. -/
def DecodeError.message : DecodeError → String
  | wrongType f wanted => "invalid type: " ++ f.text ++ ", expected " ++ wanted
  | wrongValue n wanted => "invalid value: integer `" ++ toString n ++ "`, expected " ++ wanted
  | missingField name => "missing field `" ++ name ++ "`"
  | duplicateField name => "duplicate field `" ++ name ++ "`"
  | tooFewItems given record fields =>
    "invalid length " ++ toString given ++ ", expected struct " ++ record ++ " with " ++
      toString fields ++ (if fields = 1 then " element" else " elements")
  | tooManyItems given =>
    "invalid length " ++ toString given ++ ", expected fewer elements in array"

/-- Turns a value into typed data. -/
abbrev Decoder (α : Type) := Json → Except DecodeError α

namespace Decoder

/-- Fails with what was found. -/
def mismatch {α : Type} (wanted : String) (v : Json) : Except DecodeError α :=
  .error (.wrongType v.found wanted)

/-- Takes any value. -/
def any : Decoder Json := .ok

/-- Takes a string. -/
def text : Decoder String
  | .string s => .ok s
  | v => mismatch "a string" v

/-- Takes a whole number from `lo` to below `hi`. -/
def whole (wanted : String) (lo hi : Int) : Decoder Int
  | .number (.int n _) => if lo ≤ n ∧ n < hi then .ok n else .error (.wrongValue n wanted)
  | v => mismatch wanted v

/-- Takes a signed word. -/
def signed : Decoder Int :=
  whole "i64" (-0x8000000000000000) 0x8000000000000000

/-- Takes an unsigned half word. -/
def unsigned : Decoder UInt32 := fun v =>
  (whole "u32" 0 0x100000000 v).map fun n => UInt32.ofNat n.toNat

/-- Takes `null` for nothing, and else what `d` takes. -/
def optional {α : Type} (d : Decoder α) : Decoder (Option α)
  | .null => .ok none
  | v => (d v).map some

/-- Takes a list of what `d` takes. -/
def list {α : Type} (d : Decoder α) : Decoder (List α)
  | .array items => items.mapM d
  | v => mismatch "a sequence" v

end Decoder

/-- A field of a record of type `ρ`. -/
structure Field (ρ : Type) where
  /-- The member that holds the field. -/
  name : String
  /-- Whether the field has no default. -/
  required : Bool
  /-- Decodes a value and stores it. -/
  store : Json → ρ → Except DecodeError ρ

/-- A field that `d` decodes and `put` stores. -/
def Field.of {ρ α : Type} (name : String) (required : Bool) (d : Decoder α)
    (put : α → ρ → ρ) : Field ρ :=
  ⟨name, required, fun v r => (d v).map fun a => put a r⟩

/-- The fields of a record of type `ρ`, in order. -/
structure RecordShape (ρ : Type) where
  /-- What messages call the record. -/
  name : String
  /-- The record before any field is stored. -/
  blank : ρ
  /-- The fields in order. -/
  fields : List (Field ρ)

namespace RecordShape

variable {ρ : Type}

/-- Stores the members of an object in their order. Members that are no field are passed over. -/
def storeMembers (shape : RecordShape ρ) : Fields → ρ → Except DecodeError ρ
  | [], r => .ok r
  | (key, value) :: members, r =>
    match shape.fields.find? (·.name == key) with
    | none => storeMembers shape members r
    | some field => do
      let r ← field.store value r
      storeMembers shape members r

/-- The first field without a default that is no member. -/
def firstMissing? (shape : RecordShape ρ) (members : Fields) : Option String :=
  (shape.fields.find? fun f => f.required && !members.keys.contains f.name).map (·.name)

/-- Stores the items of a list in the fields, one by one; `index` fields are stored already. -/
def storeItems (shape : RecordShape ρ) :
    (index : Nat) → List (Field ρ) → List Json → ρ → Except DecodeError ρ
  | _, [], _, r => .ok r
  | index, field :: fields, [], r =>
    if field.required then .error (.tooFewItems index shape.name shape.fields.length)
    else storeItems shape (index + 1) fields [] r
  | index, field :: fields, item :: items, r => do
    let r ← field.store item r
    storeItems shape (index + 1) fields items r

/-- Takes a record. -/
def decode (shape : RecordShape ρ) : Decoder ρ
  | .object members => do
    let r ← shape.storeMembers members shape.blank
    match shape.firstMissing? members with
    | some name => .error (.missingField name)
    | none => .ok r
  | .array items => do
    let r ← shape.storeItems 0 shape.fields items shape.blank
    if shape.fields.length < items.length then .error (.tooManyItems items.length) else .ok r
  | v => Decoder.mismatch ("struct " ++ shape.name) v

end RecordShape

end DebugAdapter.Json
