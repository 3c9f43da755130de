import DebugAdapter.Json.Parser
import DebugAdapter.Script.Statement
import DebugAdapter.Text.Blank
import DebugAdapter.Text.Lines
import DebugAdapter.Text.Split
/-!
# Reading scripts

`Program.parse` reads a script line by line; blank lines and comments are no statements.
`splitPlus` cuts an expression at its plus signs: those outside strings and brackets that follow
a blank, so that `1e+5` stays one literal.
-/

namespace DebugAdapter.Script

/-- Why a line is no statement. -/
inductive Misfit where
  | unknownStatement (text : String)
  | noEqualsSign (text : String)
  | badName (name : String)
  | noExpression
  | badExpression (text : String)
  deriving DecidableEq, Repr

/-- The words for a misfit. -/
def Misfit.text : Misfit → String
  | unknownStatement t => "unrecognized statement `" ++ t ++ "`"
  | noEqualsSign t => "expected `=` in `" ++ t ++ "`"
  | badName n => "invalid variable name `" ++ n ++ "`"
  | noExpression => "expected an expression"
  | badExpression t => "invalid expression `" ++ t ++ "`"

/-! ## Expressions -/

/-- Whether a name may start with `c`. -/
def startsName (c : Char) : Bool :=
  c.isAlpha || c == '_'

/-- Whether a name may go on with `c`. -/
def continuesName (c : Char) : Bool :=
  c.isAlphanum || c == '_'

/-- Whether the characters are a name: ASCII letters, digits and underscores, no digit first. -/
def isName : List Char → Bool
  | [] => false
  | c :: cs => startsName c && cs.all continuesName

/-- How far a chain of terms is read. -/
structure Cursor where
  /-- Whether the place is in a string. -/
  quoted : Bool := false
  /-- Whether the last character of that string was a backslash that escapes. -/
  escaped : Bool := false
  /-- How many brackets are open. -/
  depth : Int := 0
  /-- Whether the last character was blank. -/
  afterBlank : Bool := false
  deriving DecidableEq, Repr

/-- Whether `c` is a plus sign between terms. -/
def Cursor.cuts (k : Cursor) (c : Char) : Bool :=
  c == '+' && !k.quoted && k.depth == 0 && k.afterBlank

/-- The place after the character `c`. -/
def Cursor.next (k : Cursor) (c : Char) : Cursor :=
  let k := { k with afterBlank := Text.isBlank c }
  if k.quoted then
    if k.escaped then { k with escaped := false }
    else if c = '\\' then { k with escaped := true }
    else if c = '"' then { k with quoted := false }
    else k
  else if c = '"' then { k with quoted := true }
  else if c = '[' ∨ c = '\x7b' then { k with depth := k.depth + 1 }
  else if c = ']' ∨ c = '\x7d' then { k with depth := k.depth - 1 }
  else k

/-- The pieces of an expression from the place `k` on. -/
def piecesFrom (k : Cursor) : List Char → List (List Char)
  | [] => [[]]
  | c :: cs =>
    if k.cuts c then [] :: piecesFrom (k.next c) cs
    else match piecesFrom (k.next c) cs with
      | [] => [[c]]
      | piece :: pieces => (c :: piece) :: pieces

/-- The pieces of an expression between its plus signs. -/
def splitPlus (cs : List Char) : List (List Char) :=
  piecesFrom {} cs

/-- The words that look like names but are literals. -/
def literalWords : List String :=
  ["true", "false", "null"]

/-- The path that the characters spell, if they spell one. -/
def pathOf? (cs : List Char) : Option Term :=
  let segments := Text.splitChars '.' cs
  if segments.all isName && !literalWords.contains (String.ofList cs) then
    match segments.map String.ofList with
    | [] => none
    | root :: members => some (.path root members)
  else none

/-- Reads a term. -/
def parseTerm (cs : List Char) : Except Misfit Term :=
  let cs := Text.trimChars cs
  if cs.isEmpty then .error .noExpression
  else match pathOf? cs with
    | some path => .ok path
    | none =>
      match Json.parse (Utf8.encode cs) with
      | .ok value => .ok (.literal value)
      | .error _ => .error (.badExpression (String.ofList cs))

/-- Reads a chain of terms. -/
def parseExpr (cs : List Char) : Except Misfit Expr := do
  match ← (splitPlus cs).mapM parseTerm with
  | first :: more => return ⟨first, more⟩
  | [] => .error .noExpression

/-! ## Statements -/

/-- What follows the word `word` and the blanks behind it, if `cs` begins with them. -/
def afterWord? (word : String) (cs : List Char) : Option (List Char) :=
  match Text.afterPrefix? word.toList cs with
  | some (c :: rest) => if Text.isBlank c then some (Text.trimChars (c :: rest)) else none
  | _ => none

/-- Reads an assignment. -/
def parseAssignment (cs : List Char) : Except Misfit Action :=
  match Text.cutAt? '=' cs with
  | none => .error (.noEqualsSign (String.ofList cs))
  | some (before, after) =>
    let name := Text.trimChars before
    if isName name then
      (parseExpr (Text.trimChars after)).map (.assign (String.ofList name))
    else .error (.badName (String.ofList name))

/-- Reads a statement that stands without blanks around it. -/
def parseAction (cs : List Char) : Except Misfit Action :=
  if let some rest := afterWord? "var" cs then parseAssignment rest
  else if let some rest := afterWord? "print" cs then
    (parseExpr rest).map (.print .stdout true)
  else if let some rest := afterWord? "eprint" cs then
    (parseExpr rest).map (.print .stderr true)
  else if let some rest := afterWord? "write" cs then
    (parseExpr rest).map (.print .stdout false)
  else if cs = "return".toList then .ok (.finish ⟨.literal .null, []⟩)
  else if let some rest := afterWord? "return" cs then (parseExpr rest).map .finish
  else if let some rest := afterWord? "throw" cs then (parseExpr rest).map .fail
  else if cs.contains '=' then parseAssignment cs
  else .error (.unknownStatement (String.ofList cs))

/-- Whether a line without blanks around it is no statement. -/
def isSilent (cs : List Char) : Bool :=
  cs.isEmpty || "//".toList.isPrefixOf cs

/-- Reads the lines of a script, the first of which is line `line`. -/
def parseLines (line : UInt32) : List (List Char) → Except ScriptError Program
  | [] => .ok []
  | cs :: rest =>
    let trimmed := Text.trimChars cs
    if isSilent trimmed then parseLines (line + 1) rest
    else
      match parseAction trimmed with
      | .error misfit => .error (.compile line misfit.text)
      | .ok action => do
        let width := UInt32.ofNat (Text.dropEndWhile Text.isBlank cs).length
        return ⟨line, width, action⟩ :: (← parseLines (line + 1) rest)

/-- Reads a script. -/
def Program.parse (text : String) : Except ScriptError Program :=
  parseLines 1 (Text.linesFrom [] text.toList)

/-- The lines that carry a statement. -/
def Program.lines (p : Program) : List UInt32 :=
  p.map Statement.line

end DebugAdapter.Script
