import DebugAdapter.Text.Utf8
import DebugAdapter.Text.Ascii
/-!
# Faults in JSON text

A `Fault` says what is wrong with a text. Reading stops with a `Stop`: the fault and the bytes not
yet taken. `Stop.locate` turns it into a `SyntaxError`, which names the line and how many bytes of
that line were taken.
-/

namespace DebugAdapter.Json

/-- What can be wrong with a JSON text. -/
inductive Fault where
  | endInList
  | endInObject
  | endInString
  | endInValue
  | expectedColon
  | expectedListCommaOrEnd
  | expectedObjectCommaOrEnd
  | expectedIdent
  | expectedValue
  | invalidEscape
  | invalidNumber
  | numberOutOfRange
  | invalidCodePoint
  | controlCharacter
  | keyNotString
  | loneSurrogate
  | trailingComma
  | trailingCharacters
  | unfinishedSurrogate
  | tooDeep
  deriving DecidableEq, Repr

/-- The words for a fault. -/
def Fault.text : Fault → String
  | endInList => "EOF while parsing a list"
  | endInObject => "EOF while parsing an object"
  | endInString => "EOF while parsing a string"
  | endInValue => "EOF while parsing a value"
  | expectedColon => "expected `:`"
  | expectedListCommaOrEnd => "expected `,` or `]`"
  | expectedObjectCommaOrEnd => "expected `,` or `\x7d`"
  | expectedIdent => "expected ident"
  | expectedValue => "expected value"
  | invalidEscape => "invalid escape"
  | invalidNumber => "invalid number"
  | numberOutOfRange => "number out of range"
  | invalidCodePoint => "invalid unicode code point"
  | controlCharacter => "control character (\\u0000-\\u001F) found while parsing a string"
  | keyNotString => "key must be a string"
  | loneSurrogate => "lone leading surrogate in hex escape"
  | trailingComma => "trailing comma"
  | trailingCharacters => "trailing characters"
  | unfinishedSurrogate => "unexpected end of hex escape"
  | tooDeep => "recursion limit exceeded"

/-- Where reading stopped: what is wrong and which bytes were not taken. -/
structure Stop where
  /-- What is wrong. -/
  fault : Fault
  /-- The bytes not taken. -/
  rest : Bytes
  deriving DecidableEq, Repr

/-- A place in a text. -/
structure Place where
  /-- The line, counted from one. -/
  line : Nat
  /-- How many bytes of the line come before the place. -/
  column : Nat
  deriving DecidableEq, Repr

/-- The place after the bytes `taken`. -/
def Place.after (taken : Bytes) : Place where
  line := 1 + taken.count Ascii.lineFeed
  column := (taken.reverse.takeWhile (· ≠ Ascii.lineFeed)).length

/-- The place in `text` where only `rest` is left. -/
def Place.before (text rest : Bytes) : Place :=
  .after (text.take (text.length - rest.length))

/-- The words for a place. -/
def Place.text (p : Place) : String :=
  " at line " ++ toString p.line ++ " column " ++ toString p.column

/-- A fault and its place. -/
structure SyntaxError where
  /-- What is wrong. -/
  fault : Fault
  /-- Where it was found. -/
  place : Place
  deriving DecidableEq, Repr

/-- The message for a text that is no JSON. -/
def SyntaxError.message (e : SyntaxError) : String :=
  e.fault.text ++ e.place.text

/-- The error of a reading of `text` that stopped. -/
def Stop.locate (text : Bytes) (s : Stop) : SyntaxError :=
  ⟨s.fault, .before text s.rest⟩

end DebugAdapter.Json
