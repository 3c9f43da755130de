import DebugAdapter.Toml.Scalar
/-!
# Reading TOML

`Toml.parse` reads a document. It keeps no account of what is wrong with one that is malformed.
Lists and inline tables may be nested at most 79 deep, and a dotted key has at most 79 parts.
-/

namespace DebugAdapter.Toml

open Text (digitOf? numberOf)

/-- A reader takes something off the characters and gives the rest. -/
abbrev Reader (α : Type) := List Char → Option (α × List Char)

/-! ## Blanks, comments and line ends -/

/-- Whether `c` is a blank within a line. -/
def isGap (c : Char) : Bool :=
  c == ' ' || c == '\t'

/-- The characters behind the blanks. -/
def skipGap (cs : List Char) : List Char :=
  cs.dropWhile isGap

/-- Whether `c` may stand in comments and strings: no control but the tab. -/
def isPlain (c : Char) : Bool :=
  c == '\t' || (0x20 ≤ c.toNat && c != '\x7f')

/-- What follows a line end, if one comes first. -/
def afterNewline? : List Char → Option (List Char)
  | '\n' :: cs => some cs
  | '\r' :: '\n' :: cs => some cs
  | _ => none

/-- The characters behind a comment, if one comes first. -/
def skipComment : List Char → List Char
  | '#' :: cs => cs.dropWhile isPlain
  | cs => cs

/-- What follows the end of a line, where only blanks and a comment may come first. -/
def endLine (cs : List Char) : Option (List Char) :=
  match skipComment (skipGap cs) with
  | [] => some []
  | cs => afterNewline? cs

/-- The characters behind blanks, comments and line ends. -/
def skipLines : (fuel : Nat) → List Char → List Char
  | 0, cs => cs
  | fuel + 1, cs =>
    let cs := skipComment (skipGap cs)
    match afterNewline? cs with
    | some cs => skipLines fuel cs
    | none => cs

/-! ## Strings -/

/-- The character that the first `count` characters spell in base sixteen. -/
def codePoint (count : Nat) : Reader Char := fun cs => do
  let digits ← (cs.take count).mapM (digitOf? 16)
  let n := numberOf 16 digits
  if digits.length = count ∧ n.isValidChar then some (Char.ofNat n, cs.drop count) else none

/-- Reads an escape behind its backslash. -/
def escape : Reader Char
  | 'b' :: cs => some ('\x08', cs)
  | 'f' :: cs => some ('\x0c', cs)
  | 'n' :: cs => some ('\n', cs)
  | 'r' :: cs => some ('\r', cs)
  | 't' :: cs => some ('\t', cs)
  | '"' :: cs => some ('"', cs)
  | '\\' :: cs => some ('\\', cs)
  | 'u' :: cs => codePoint 4 cs
  | 'U' :: cs => codePoint 8 cs
  | _ => none

/-- Reads a string behind its opening quote. -/
def basicString : (fuel : Nat) → Reader (List Char)
  | 0, _ => none
  | _, [] => none
  | fuel + 1, c :: cs =>
    if c = '"' then some ([], cs)
    else if c = '\\' then do
      let (d, cs) ← escape cs
      let (s, cs) ← basicString fuel cs
      return (d :: s, cs)
    else if isPlain c then do
      let (s, cs) ← basicString fuel cs
      return (c :: s, cs)
    else none

/-- Reads a string without escapes behind its opening quote. -/
def literalString : Reader (List Char)
  | [] => none
  | c :: cs =>
    if c = '\'' then some ([], cs)
    else if isPlain c then do
      let (s, cs) ← literalString cs
      return (c :: s, cs)
    else none

/-- How many of `quote` come first. -/
def quoteRun (quote : Char) (cs : List Char) : Nat :=
  (cs.takeWhile (· = quote)).length

/-- The end of a string of several lines, if it comes here: up to two quotes before the last three
are part of the string. -/
def closeLong (quote : Char) (cs : List Char) : Option (List Char × List Char) :=
  let n := min (quoteRun quote cs) 5
  if 3 ≤ n then some (List.replicate (n - 3) quote, cs.drop n) else none

/-- What follows the blanks and line ends behind a backslash at the end of a line, if there is a
line end among the blanks. -/
def joinLine? (cs : List Char) : Option (List Char) :=
  (afterNewline? (skipGap cs)).map skipBlanks
where
  /-- The characters behind blanks and line ends. -/
  skipBlanks : List Char → List Char
  | [] => []
  | '\r' :: '\n' :: cs => skipBlanks cs
  | c :: cs => if isGap c || c == '\n' then skipBlanks cs else c :: cs

/-- Reads a string of several lines, where a backslash escapes if `escapes` is set. -/
def longString (quote : Char) (escapes : Bool) : (fuel : Nat) → Reader (List Char)
  | 0, _ => none
  | fuel + 1, cs =>
    match closeLong quote cs with
    | some end? => some end?
    | none =>
      match cs with
      | [] => none
      | c :: rest =>
        if c = '\\' ∧ escapes then
          match joinLine? rest with
          | some rest => longString quote escapes fuel rest
          | none => do
            let (d, rest) ← escape rest
            let (s, rest) ← longString quote escapes fuel rest
            return (d :: s, rest)
        else
          match afterNewline? cs with
          | some rest => do
            let (s, rest) ← longString quote escapes fuel rest
            return ('\n' :: s, rest)
          | none =>
            if isPlain c then do
              let (s, rest) ← longString quote escapes fuel rest
              return (c :: s, rest)
            else none

/-- Reads a string of one line at its opening quote. -/
def shortString : Reader (List Char)
  | '"' :: cs => basicString (cs.length + 1) cs
  | '\'' :: cs => literalString cs
  | _ => none

/-- Reads a string at its opening quote. A line end right behind three quotes does not count. -/
def quoted (cs : List Char) : Option (List Char × List Char) :=
  match cs with
  | '"' :: '"' :: '"' :: rest =>
    longString '"' true (cs.length + 1) ((afterNewline? rest).getD rest)
  | '\'' :: '\'' :: '\'' :: rest =>
    longString '\'' false (cs.length + 1) ((afterNewline? rest).getD rest)
  | _ => shortString cs

/-! ## Keys -/

/-- Whether a key without quotes may hold `c`. -/
def inBareKey (c : Char) : Bool :=
  c.isAlphanum || c == '-' || c == '_'

/-- Reads a part of a key. -/
def keyPart (cs : List Char) : Option (String × List Char) :=
  match cs with
  | '"' :: _ | '\'' :: _ => (shortString cs).map fun p => (String.ofList p.1, p.2)
  | _ =>
    let bare := cs.takeWhile inBareKey
    if bare.isEmpty then none else some (String.ofList bare, cs.drop bare.length)

/-- One more than the number of parts of a key, and of lists and tables that may be nested. -/
def nestingLimit : Nat := 80

/-- Reads the parts of a dotted key, with the blanks around them. -/
def keyParts : (fuel : Nat) → Reader (List String)
  | 0, _ => none
  | fuel + 1, cs => do
    let (part, cs) ← keyPart (skipGap cs)
    match skipGap cs with
    | '.' :: cs =>
      let (parts, cs) ← keyParts fuel cs
      return (part :: parts, cs)
    | cs => return ([part], cs)

/-- A dotted key: the path to a table and the last part. -/
structure Key where
  path : List String
  last : String

/-- Reads a dotted key. -/
def key (cs : List Char) : Option (Key × List Char) := do
  let (parts, cs) ← keyParts (nestingLimit - 1) cs
  let last ← parts.getLast?
  return (⟨parts.dropLast, last⟩, cs)

/-! ## Values -/

/-- Reads a value that is a run. A day may be followed by a blank and a time. -/
def scalar (cs : List Char) : Option (Value × List Char) :=
  let run := cs.takeWhile inRun
  let rest := cs.drop run.length
  if isDate run then
    match rest with
    | ' ' :: more =>
      let time := more.takeWhile inRun
      some (.datetime, if isZonedTime time then more.drop time.length else rest)
    | _ => some (.datetime, rest)
  else (scalarOf? run).map fun v => (v, rest)

mutual

/-- Reads a value within at most `depth - 1` more lists and tables. -/
def value : (fuel depth : Nat) → Reader Value
  | 0, _, _ => none
  | fuel + 1, depth, cs =>
    match cs with
    | [] => none
    | c :: rest =>
      if c = '"' ∨ c = '\'' then (quoted cs).map fun p => (.string (String.ofList p.1), p.2)
      else if c = '[' then
        if depth ≤ 1 then none
        else (listItems fuel (depth - 1) rest).map fun p => (.list p.1, p.2)
      else if c = '\x7b' then
        if depth ≤ 1 then none
        else match skipGap rest with
          | '\x7d' :: after => some (.table .inline [], after)
          | _ => (inlineEntries fuel (depth - 1) [] rest).map fun p => (.table .inline p.1, p.2)
      else scalar cs

/-- Reads the items of a list up to its closing bracket. -/
def listItems : (fuel depth : Nat) → Reader (List Value)
  | 0, _, _ => none
  | fuel + 1, depth, cs =>
    match skipLines (cs.length + 1) cs with
    | ']' :: cs => some ([], cs)
    | cs => do
      let (item, cs) ← value fuel depth cs
      match skipLines (cs.length + 1) cs with
      | ']' :: cs => return ([item], cs)
      | ',' :: cs =>
        let (items, cs) ← listItems fuel depth cs
        return (item :: items, cs)
      | _ => none

/-- Reads the entries of an inline table up to its closing brace, onto `es`. -/
def inlineEntries : (fuel depth : Nat) → Entries → Reader Entries
  | 0, _, _, _ => none
  | fuel + 1, depth, es, cs => do
    let (k, cs) ← key cs
    match cs with
    | '=' :: cs =>
      let (v, cs) ← value fuel depth (skipGap cs)
      let es ← es.assignHere k.path k.last v
      match skipGap cs with
      | '\x7d' :: cs => return (es, cs)
      | ',' :: cs => inlineEntries fuel depth es cs
      | _ => none
    | _ => none

end

/-! ## Documents -/

/-- A document so far: its entries, and the table that the last header opened. -/
structure Draft where
  entries : Entries := []
  opened : List String := []

/-- Reads a header of one table. -/
def tableHeader (d : Draft) (cs : List Char) : Option (Draft × List Char) := do
  let (k, cs) ← key cs
  match cs with
  | ']' :: cs =>
    let cs ← endLine cs
    return (⟨← d.entries.openTable k.path k.last, k.path ++ [k.last]⟩, cs)
  | _ => none

/-- Reads a header of one of several tables. -/
def itemHeader (d : Draft) (cs : List Char) : Option (Draft × List Char) := do
  let (k, cs) ← key cs
  match cs with
  | ']' :: ']' :: cs =>
    let cs ← endLine cs
    return (⟨← d.entries.openItem k.path k.last, k.path ++ [k.last]⟩, cs)
  | _ => none

/-- Reads a key and its value. -/
def assignment (d : Draft) (cs : List Char) : Option (Draft × List Char) := do
  let (k, cs) ← key cs
  match cs with
  | '=' :: cs =>
    let (v, cs) ← value (2 * cs.length + 2) nestingLimit (skipGap cs)
    let cs ← endLine cs
    return (⟨← d.entries.assign d.opened k.path k.last v, d.opened⟩, cs)
  | _ => none

/-- Reads the lines of a document. -/
def documentLines : (fuel : Nat) → Draft → List Char → Option Entries
  | 0, _, _ => none
  | fuel + 1, d, cs =>
    match skipLines (cs.length + 1) cs with
    | [] => some d.entries
    | '[' :: '[' :: cs => (itemHeader d cs).bind fun p => documentLines fuel p.1 p.2
    | '[' :: cs => (tableHeader d cs).bind fun p => documentLines fuel p.1 p.2
    | cs => (assignment d cs).bind fun p => documentLines fuel p.1 p.2

/-- The entries of a document; a byte order mark may come first. -/
def parse (text : String) : Option Entries :=
  let cs := match text.toList with
    | '\uFEFF' :: cs => cs
    | cs => cs
  documentLines (cs.length + 1) {} cs

end DebugAdapter.Toml
