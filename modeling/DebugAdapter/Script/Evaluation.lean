import DebugAdapter.Script.Parser
/-!
# Running statements

`Expr.eval` computes a chain of terms from the variables of a script, and `Action.perform` says
what a statement does to them. `evaluate` reads and computes a single expression.
-/

namespace DebugAdapter.Script

/-! ## Expressions -/

/-- The member of a value that a script sees; what is not there is `null`. -/
def memberOrNull (v : Json) (name : String) : Json :=
  (v.member? name).getD .null

/-- The value of a term. -/
def Term.eval (vars : Json.Fields) : Term → Except ScriptError Json
  | literal value => .ok value
  | path root members =>
    match vars.get? root with
    | none => .error (.runtime ("undefined variable `" ++ root ++ "`"))
    | some value => .ok (members.foldl memberOrNull value)

/-- The number `x`, or `null` when it is not finite. -/
def ofFloat (x : Float) : Json :=
  ((Json.Number.ofFloat? x).map .number).getD .null

/-- The sum of two numbers: signed words as long as they fit, and else doubles. -/
def addNumbers (a b : Json.Number) : Json :=
  let inexact := ofFloat (a.toFloat + b.toFloat)
  match a.toSigned?, b.toSigned? with
  | some m, some n =>
    if -0x8000000000000000 ≤ m + n ∧ m + n < 0x8000000000000000 then Json.ofInt (m + n)
    else inexact
  | _, _ => inexact

/-- The sum of two values: of numbers a number, of all else the texts one after the other. -/
def add : Json → Json → Json
  | .number a, .number b => addNumbers a b
  | a, b => .string (a.display ++ b.display)

/-- Adds the terms up onto a value. -/
def sumFrom (vars : Json.Fields) : Json → List Term → Except ScriptError Json
  | sum, [] => .ok sum
  | sum, term :: terms => do
    let value ← term.eval vars
    sumFrom vars (add sum value) terms

/-- The value of a chain of terms. -/
def Expr.eval (vars : Json.Fields) (e : Expr) : Except ScriptError Json := do
  let value ← e.first.eval vars
  sumFrom vars value e.more

/-- Reads an expression and computes it. -/
def evaluate (text : String) (vars : Json.Fields) : Except ScriptError Json :=
  match parseExpr (Text.trimChars text.toList) with
  | .error misfit => .error (.compile 1 misfit.text)
  | .ok e => e.eval vars

/-! ## Statements -/

/-- How a script ended. -/
abbrev Outcome := Except ScriptError Json

/-- What a statement did. -/
inductive Effect where
  /-- The script goes on with these variables. -/
  | proceed (vars : Json.Fields)
  /-- The script goes on after writing a text. -/
  | write (channel : Channel) (text : String)
  /-- The script is over. -/
  | over (outcome : Outcome)

/-- What an action does when the script has these variables. -/
def Action.perform (vars : Json.Fields) : Action → Effect
  | assign name value =>
    match value.eval vars with
    | .ok v => .proceed (vars.insert name v)
    | .error e => .over (.error e)
  | print channel newline value =>
    match value.eval vars with
    | .ok v => .write channel (v.display ++ (if newline then "\n" else ""))
    | .error e => .over (.error e)
  | finish value => .over (value.eval vars)
  | fail value =>
    .over (.error (match value.eval vars with
      | .ok v => .runtime v.display
      | .error e => e))

end DebugAdapter.Script
