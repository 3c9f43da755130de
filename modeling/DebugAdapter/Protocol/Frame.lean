import DebugAdapter.Json.Parser
import DebugAdapter.Protocol.Message
import DebugAdapter.Text.Blank
import DebugAdapter.Text.Quoted
import DebugAdapter.Text.Redacted
import DebugAdapter.Text.Split
/-!
# Frames

A message travels as a frame: header lines, an empty line, and as many bytes of JSON as the header
`Content-Length` says. `Frame.encode` writes one. `Frame.read` takes the body of one off a `Feed`,
which delivers the bytes in pieces, however they are cut, and which may be open still; and
`Frame.readValue` and `Frame.readRequest` read the body as well.
-/

namespace DebugAdapter.Protocol

/-- Bytes that are delivered in pieces. -/
structure Feed where
  /-- The pieces not yet read. -/
  pieces : List Bytes
  /-- Whether more pieces may follow. -/
  isOpen : Bool
  deriving DecidableEq, Repr

/-- The feed that delivers all of `bs` at once and then ends. -/
def Feed.ofBytes (bs : Bytes) : Feed :=
  ⟨[bs], false⟩

/-- The bytes not yet read. -/
def Feed.bytes (f : Feed) : Bytes :=
  f.pieces.flatten

/-- The feed with a piece added. -/
def Feed.push (f : Feed) (piece : Bytes) : Feed :=
  { f with pieces := f.pieces ++ [piece] }

/-- The feed with no more to come. -/
def Feed.finish (f : Feed) : Feed :=
  { f with isOpen := false }

/-- What is wrong with a frame. -/
inductive FrameError where
  /-- A header line is too long. -/
  | lineTooLong
  /-- A header line is no UTF-8. -/
  | lineNotText
  /-- The feed ended within the headers. -/
  | endInHeaders
  /-- The length is no number. -/
  | badLength (text : String) (fault : Text.NumeralFault)
  /-- No header gives the length. -/
  | noLength
  /-- The length exceeds the limit. -/
  | tooLong (length : Nat)
  /-- The feed ended within the body. -/
  | endInBody
  /-- The body is no JSON. -/
  | malformed (error : Json.SyntaxError)
  /-- The body is no request. -/
  | undecodable (error : Json.DecodeError)
  deriving DecidableEq, Repr

/-- Why a frame was not read. -/
inductive Halt where
  /-- The rest of the frame has not come yet. -/
  | starved
  /-- There is something wrong with it. -/
  | failed (error : FrameError)
  deriving DecidableEq, Repr

namespace Frame

/-- The longest header line, in bytes. -/
def maxLine : Nat := 8192

/-- The longest body, in bytes. -/
def maxBody : Nat := 16 * 1024 * 1024

/-- The kinds of errors in frames. -/
inductive ErrorKind where
  | input
  | json
  | protocol
  deriving DecidableEq, Repr

end Frame

/-- The kind of an error. -/
def FrameError.kind : FrameError → Frame.ErrorKind
  | endInHeaders | endInBody => .input
  | malformed _ | undecodable _ => .json
  | _ => .protocol

/-- What is wrong, without naming the kind. Values that were sent are redacted. -/
def FrameError.detail : FrameError → String
  | lineTooLong => "DAP header line exceeds maximum size (" ++ toString Frame.maxLine ++ " bytes)"
  | lineNotText => "DAP header line is not UTF-8"
  | endInHeaders => "EOF while reading DAP headers"
  | badLength text fault => "invalid Content-Length " ++ Text.quote text ++ ": " ++ fault.text
  | noLength => "missing Content-Length header"
  | tooLong length =>
    "DAP message Content-Length " ++ toString length ++ " exceeds maximum allowed size " ++
      toString Frame.maxBody
  | endInBody => "early eof"
  | malformed e => Text.redact e.message
  | undecodable e => Text.redact e.message

/-- The words for an error. -/
def FrameError.message (e : FrameError) : String :=
  (match e.kind with
    | .input => "io error: "
    | .json => "json error: "
    | .protocol => "dap protocol error: ") ++ e.detail

namespace Frame

/-! ## Writing -/

/-- The frame of a value. -/
def encode (v : Json) : Bytes :=
  let body := Utf8.encode v.renderChars
  Utf8.ofString ("Content-Length: " ++ toString body.length ++ "\r\n\r\n") ++ body

/-! ## Reading lines -/

/-- The bytes up to the first line feed, with it, and the bytes behind; nothing behind when there
is no line feed. -/
def cutLine : Bytes → Bytes × Option Bytes
  | [] => ([], none)
  | b :: bs =>
    if b = Ascii.lineFeed then ([b], some bs)
    else let (line, rest) := cutLine bs; (b :: line, rest)

/-- Puts bytes back in front of the pieces. -/
def putBack (bs : Bytes) (pieces : List Bytes) : List Bytes :=
  if bs.isEmpty then pieces else bs :: pieces

/-- Takes a line off the pieces, where `taken` came before; nothing when there is no byte left.
The last line may lack its line feed. -/
def takeLine (isOpen : Bool) (taken : Bytes) :
    List Bytes → Except Halt (Option (Bytes × List Bytes))
  | [] =>
    if isOpen then .error .starved
    else if taken.isEmpty then .ok none
    else .ok (some (taken, []))
  | piece :: pieces =>
    let (line, rest) := cutLine piece
    if maxLine < taken.length + line.length then .error (.failed .lineTooLong)
    else
      match rest with
      | some rest => .ok (some (taken ++ line, putBack rest pieces))
      | none => takeLine isOpen (taken ++ line) pieces

/-! ## Reading headers -/

/-- The header that gives the length, in lower case. -/
def lengthHeader : List Char :=
  "content-length".toList

/-- A header line without the line ends behind it. -/
def dropLineEnds (cs : List Char) : List Char :=
  Text.dropEndWhile (fun c => c = '\r' ∨ c = '\n') cs

/-- The length after a header line, where `length` is what the lines before gave. -/
def lengthAfter (length : Option Nat) (cs : List Char) : Except FrameError (Option Nat) :=
  match Text.cutAt? ':' cs with
  | none => .ok length
  | some (name, value) =>
    if name.map Char.toLower = lengthHeader then
      let text := String.ofList (Text.trimChars value)
      match Text.parseNumeral text with
      | .ok n => .ok (some n)
      | .error fault => .error (.badLength text fault)
    else .ok length

/-- Takes the headers, each of which takes at least one byte; nothing when there is no byte left. -/
def takeHeaders (isOpen : Bool) : (fuel : Nat) → (first : Bool) → (length : Option Nat) →
    List Bytes → Except Halt (Option (Option Nat × List Bytes))
  | 0, _, _, _ => .error .starved
  | fuel + 1, first, length, pieces => do
    match ← takeLine isOpen [] pieces with
    | none => if first then return none else .error (.failed .endInHeaders)
    | some (line, pieces) =>
      match Utf8.decode? line with
      | none => .error (.failed .lineNotText)
      | some cs =>
        let cs := dropLineEnds cs
        if cs.isEmpty then return some (length, pieces)
        else
          let length ← (lengthAfter length cs).mapError .failed
          takeHeaders isOpen fuel false length pieces

/-! ## Reading frames -/

/-- Takes `n` bytes off the pieces, if there are as many. -/
def takeBytes : (n : Nat) → List Bytes → Option (Bytes × List Bytes)
  | 0, pieces => some ([], pieces)
  | _ + 1, [] => none
  | n + 1, piece :: pieces =>
    if n + 1 < piece.length then some (piece.take (n + 1), piece.drop (n + 1) :: pieces)
    else (takeBytes (n + 1 - piece.length) pieces).map fun p => (piece ++ p.1, p.2)

/-- Takes the body of the next frame off a feed; nothing when the feed is at its end. -/
def read (f : Feed) : Except Halt (Option (Bytes × Feed)) := do
  match ← takeHeaders f.isOpen (f.bytes.length + 1) true none f.pieces with
  | none => return none
  | some (none, _) => .error (.failed .noLength)
  | some (some n, pieces) =>
    if maxBody < n then .error (.failed (.tooLong n))
    else
      match takeBytes n pieces with
      | some (body, pieces) => return some (body, ⟨pieces, f.isOpen⟩)
      | none => .error (if f.isOpen then .starved else .failed .endInBody)

/-- Takes the value of the next frame off a feed. -/
def readValue (f : Feed) : Except Halt (Option (Json × Feed)) := do
  match ← read f with
  | none => return none
  | some (body, f) =>
    match Json.parse body with
    | .ok v => return some (v, f)
    | .error e => .error (.failed (.malformed e))

/-- Takes the request of the next frame off a feed. -/
def readRequest (f : Feed) : Except Halt (Option (Request × Feed)) := do
  match ← readValue f with
  | none => return none
  | some (v, f) =>
    match Request.shape.decode v with
    | .ok request => return some (request, f)
    | .error e => .error (.failed (.undecodable e))

/-- How a reading of frames ended. -/
inductive Ending where
  /-- The feed ended between two frames. -/
  | clean
  /-- A frame was not read. -/
  | halted (halt : Halt)
  deriving DecidableEq, Repr

/-- Reads frame after frame with `next`, at most `fuel` of them. -/
def readAllWith {α : Type} (next : Feed → Except Halt (Option (α × Feed))) :
    (fuel : Nat) → Feed → List α × Ending
  | 0, _ => ([], .halted .starved)
  | fuel + 1, f =>
    match next f with
    | .ok none => ([], .clean)
    | .error halt => ([], .halted halt)
    | .ok (some (a, f)) =>
      let (as, ending) := readAllWith next fuel f
      (a :: as, ending)

/-- Reads frame after frame with `next` to the end of a feed. A frame has at least one byte. -/
def readAll {α : Type} (next : Feed → Except Halt (Option (α × Feed))) (f : Feed) :
    List α × Ending :=
  readAllWith next (f.bytes.length + 1) f

end Frame

end DebugAdapter.Protocol
