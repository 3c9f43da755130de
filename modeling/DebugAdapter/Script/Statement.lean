import DebugAdapter.Json.Printer
import DebugAdapter.Output.Channel
/-!
# Statements

A script has one statement a line. Its expressions are chains of terms; a term is a JSON literal
or the dotted path of a variable. `Action.render` writes a statement the way scripts do, and
`ScriptError` is what can go wrong with a script.
-/

namespace DebugAdapter.Script

/-- What a script adds up. -/
inductive Term where
  /-- A value as written. -/
  | literal (value : Json)
  /-- The variable `root`, or what the member names lead to from there. -/
  | path (root : String) (members : List String)
  deriving Inhabited

/-- A chain of one or more terms, added up from left to right. -/
structure Expr where
  /-- The first term. -/
  first : Term
  /-- The terms added to it. -/
  more : List Term

/-- What a statement does. -/
inductive Action where
  /-- Binds a variable. -/
  | assign (name : String) (value : Expr)
  /-- Writes a value to a channel, and a line feed if `newline` is set. -/
  | print (channel : Channel) (newline : Bool) (value : Expr)
  /-- Ends the script with a value. -/
  | finish (value : Expr)
  /-- Ends the script with an error. -/
  | fail (value : Expr)

/-- An action and where it stands. -/
structure Statement where
  /-- The line, counted from one. -/
  line : UInt32
  /-- How many characters the line has up to its last one that is not blank. -/
  width : UInt32
  /-- What the statement does. -/
  action : Action

/-- The statements of a script in order. -/
abbrev Program := List Statement

/-- The part of a script that a statement covers. -/
structure Span where
  startLine : UInt32
  startColumn : UInt32
  endLine : UInt32
  endColumn : UInt32
  deriving DecidableEq, Repr

/-- The span of a statement. -/
def Statement.span (s : Statement) : Span :=
  ⟨s.line, 1, s.line, s.width + 1⟩

/-- The numbers of a span in order. -/
def Span.toList (s : Span) : List UInt32 :=
  [s.startLine, s.startColumn, s.endLine, s.endColumn]

/-- What can go wrong with a script. -/
inductive ScriptError where
  /-- A line is no statement. -/
  | compile (line : UInt32) (message : String)
  /-- The script failed. -/
  | runtime (message : String)
  /-- The script was abandoned. -/
  | aborted
  deriving DecidableEq, Repr

/-- The words for an error. -/
def ScriptError.message : ScriptError → String
  | compile line message =>
    "compile error at line " ++ toString line.toNat ++ ": " ++ message
  | runtime message => message
  | aborted => "script execution aborted"

/-! ## Writing statements -/

/-- The text of a term. -/
def Term.render : Term → String
  | literal value => value.render
  | path root members => ".".intercalate (root :: members)

/-- The text of a chain. -/
def Expr.render (e : Expr) : String :=
  " + ".intercalate (e.first.render :: e.more.map Term.render)

/-- The word in front of what a print statement writes. -/
def printWord : Channel → (newline : Bool) → String
  | .stdout, true => "print"
  | .stderr, _ => "eprint"
  | .stdout, false => "write"

/-- The text of a statement that does `a`. -/
def Action.render : Action → String
  | assign name value => "var " ++ name ++ " = " ++ value.render
  | print channel newline value => printWord channel newline ++ " " ++ value.render
  | finish value => "return " ++ value.render
  | fail value => "throw " ++ value.render

end DebugAdapter.Script
