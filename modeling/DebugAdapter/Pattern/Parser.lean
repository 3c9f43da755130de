import DebugAdapter.Pattern.Basic
import DebugAdapter.Text.Blank
import DebugAdapter.Text.Digits
import DebugAdapter.Text.Letters
import DebugAdapter.Text.Split
/-!
# Reading patterns

`Pattern.parse?` reads a regular expression. There are no counted repetitions, no properties of
characters and no numbers in braces, since patterns stand where no brace can be closed; and no
references back to groups. Many readers take `spaced`, which says whether blanks and comments
count as nothing.
-/

namespace DebugAdapter.Pattern

/-- A reader takes something off the characters and gives the rest. -/
abbrev Reader (α : Type) := List Char → Option (α × List Char)

/-! ## Blanks and comments -/

/-- The characters behind blanks and comments, where `comment` says that one has begun. -/
def afterSpace (comment : Bool) : List Char → List Char
  | [] => []
  | c :: cs =>
    if comment then afterSpace (c ≠ '\n') cs
    else if c = '#' then afterSpace true cs
    else if Text.isBlank c then afterSpace false cs
    else c :: cs

/-- The characters behind what counts as nothing. -/
def skip (spaced : Bool) (cs : List Char) : List Char :=
  if spaced then afterSpace false cs else cs

/-! ## Escapes -/

/-- What a backslash and what follows it stand for. -/
inductive Escape where
  /-- A character; `byte` says that it is spelled by a number of two digits. -/
  | char (c : Char) (byte : Bool)
  /-- A class of characters, or its complement. -/
  | category (negated : Bool)
  /-- A place in the text; `word` says that it is a border of a word. -/
  | anchor (word : Bool)
  deriving DecidableEq, Repr

/-- Reads so many digits in base sixteen. -/
def hexDigits (spaced : Bool) : (count : Nat) → Reader (List Nat)
  | 0, cs => some ([], cs)
  | count + 1, cs =>
    match skip spaced cs with
    | [] => none
    | c :: cs => do
      let d ← Text.digitOf? 16 c
      let (ds, cs) ← hexDigits spaced count cs
      return (d :: ds, cs)

/-- Reads the number of a character. -/
def codePoint (spaced : Bool) (count : Nat) : Reader Char := fun cs => do
  let (digits, cs) ← hexDigits spaced count cs
  let n := Text.numberOf 16 digits
  if n.isValidChar then some (Char.ofNat n, cs) else none

/-- The characters that have a letter of their own. -/
def letterEscapes : List (Char × Char) :=
  [('a', '\x07'), ('f', '\x0c'), ('t', '\t'), ('n', '\n'), ('r', '\r'), ('v', '\x0b')]

/-- Reads an escape behind its backslash. ASCII signs stand for themselves. -/
def escape (spaced : Bool) : Reader Escape
  | [] => none
  | c :: cs =>
    if c = 'x' then (codePoint spaced 2 cs).map fun (d, cs) => (.char d true, cs)
    else if c = 'u' then (codePoint spaced 4 cs).map fun (d, cs) => (.char d false, cs)
    else if c = 'U' then (codePoint spaced 8 cs).map fun (d, cs) => (.char d false, cs)
    else if c = 'd' ∨ c = 's' ∨ c = 'w' then some (.category false, cs)
    else if c = 'D' ∨ c = 'S' ∨ c = 'W' then some (.category true, cs)
    else if c = 'A' ∨ c = 'z' then some (.anchor false, cs)
    else if c = 'b' ∨ c = 'B' ∨ c = '<' ∨ c = '>' then some (.anchor true, cs)
    else match letterEscapes.lookup c with
      | some d => some (.char d false, cs)
      | none => if c.toNat < 0x80 ∧ !c.isAlphanum then some (.char c false, cs) else none

/-! ## Classes in brackets -/

/-- The names of classes in colons. -/
def classNames : List String :=
  ["alnum", "alpha", "ascii", "blank", "cntrl", "digit", "graph", "lower", "print", "punct",
    "space", "upper", "word", "xdigit"]

/-- Reads a class in colons behind its opening bracket. -/
def namedClass : Reader ClassSet
  | ':' :: cs =>
    let (negated, cs) := match cs with
      | '^' :: cs => (true, cs)
      | _ => (false, cs)
    match Text.cutAt? ':' cs with
    | some (name, ']' :: rest) =>
      if classNames.contains (String.ofList name) then some (.named negated, rest) else none
    | _ => none
  | _ => none

/-- Reads what a range in brackets may begin and end with. -/
def classEscape (spaced : Bool) : Reader Escape
  | [] => none
  | '\\' :: cs => escape spaced cs
  | c :: cs => some (.char c false, cs)

/-- The character before which a hyphen makes no range. In a comment only its first sign is passed
over. -/
def behindHyphen (spaced : Bool) (cs : List Char) : Option Char :=
  if spaced then
    match cs.dropWhile Text.isBlank with
    | '#' :: cs => (cs.dropWhile Text.isBlank).head?
    | cs => cs.head?
  else cs.head?

/-- The set of an escape alone. Places in the text make no set. -/
def Escape.toSet? : Escape → Option ClassSet
  | char c _ => some (.char c)
  | category negated => some (.category negated)
  | anchor _ => none

/-- The range between two characters. -/
def Escape.toRange? : Escape → Escape → Option ClassSet
  | char first _, char last _ => if first ≤ last then some (.range first last) else none
  | _, _ => none

/-- Reads a range or a single member of a class. -/
def classMember (spaced : Bool) : Reader ClassSet := fun cs => do
  let (first, cs) ← classEscape spaced cs
  match skip spaced cs with
  | '-' :: rest =>
    if behindHyphen spaced rest = some ']' ∨ behindHyphen spaced rest = some '-' then
      (first.toSet?).map fun s => (s, '-' :: rest)
    else
      let (last, cs) ← classEscape spaced (skip spaced rest)
      (first.toRange? last).map fun s => (s, cs)
  | rest => (first.toSet?).map fun s => (s, rest)

/-- Takes the hyphens that come first in a class. -/
def leadingHyphens (spaced : Bool) : (fuel : Nat) → List Char → List ClassSet × List Char
  | 0, cs => ([], cs)
  | fuel + 1, cs =>
    match skip spaced cs with
    | '-' :: cs =>
      let (sets, cs) := leadingHyphens spaced fuel cs
      (.char '-' :: sets, cs)
    | cs => ([], cs)

/-- The beginning of a class in brackets. -/
structure ClassOpening where
  negated : Bool
  /-- The members that only the beginning may have, the last one first. -/
  members : List ClassSet

/-- Takes the beginning of a class behind its bracket: a circumflex, and hyphens or a closing
bracket that are members. -/
def openClass (spaced : Bool) (cs : List Char) : ClassOpening × List Char :=
  let (negated, cs) := match skip spaced cs with
    | '^' :: cs => (true, cs)
    | cs => (false, cs)
  match leadingHyphens spaced cs.length cs with
  | ([], cs) =>
    match skip spaced cs with
    | ']' :: cs => (⟨negated, [.char ']']⟩, cs)
    | cs => (⟨negated, []⟩, cs)
  | (hyphens, cs) => (⟨negated, hyphens⟩, cs)

/-- The members that were read last, the last one first, behind an operator if there was one. -/
def closeOperand (left : Option ClassSet) (members : List ClassSet) : ClassSet :=
  let right := ClassSet.ofList members.reverse
  (left.map fun l => .combined l right).getD right

/-- Reads the rest of a class up to its closing bracket. -/
def classRest (spaced : Bool) : (fuel : Nat) → (left : Option ClassSet) →
    (members : List ClassSet) → Reader ClassSet
  | 0, _, _, _ => none
  | fuel + 1, left, members, cs =>
    match skip spaced cs with
    | ']' :: cs => some (closeOperand left members, cs)
    | '[' :: cs =>
      match namedClass cs with
      | some (s, cs) => classRest spaced fuel left (s :: members) cs
      | none => do
        let (opening, cs) := openClass spaced cs
        let (s, cs) ← classRest spaced fuel none opening.members cs
        classRest spaced fuel left (.bracket opening.negated s :: members) cs
    | '&' :: '&' :: cs | '-' :: '-' :: cs | '~' :: '~' :: cs =>
      classRest spaced fuel (some (closeOperand left members)) [] cs
    | cs => do
      let (s, cs) ← classMember spaced cs
      classRest spaced fuel left (s :: members) cs

/-- Reads a class behind its opening bracket. -/
def bracketed (spaced : Bool) : Reader Pattern := fun cs => do
  let (opening, rest) := openClass spaced cs
  let (s, rest) ← classRest spaced (cs.length + 1) none opening.members rest
  return (.bracket opening.negated s, rest)

/-! ## Groups -/

/-- Whether the characters are the name of a group. -/
def isGroupName : List Char → Bool
  | [] => false
  | c :: cs =>
    (c == '_' || Text.isLetter c) &&
      cs.all fun c =>
        c == '_' || c == '.' || c == '[' || c == ']' || Text.isLetterOrDigit c

/-- The switches that letters turn on, and off behind a hyphen. Each letter may come once. -/
def switchesOf? (cs : List Char) : Option Switches := do
  let (on, off) ← match Text.cutAt? '-' cs with
    | none => some (cs, [])
    | some (_, []) => none
    | some cut => some cut
  let on ← on.mapM Switch.ofLetter?
  let off ← off.mapM Switch.ofLetter?
  if (on ++ off).Nodup then some ⟨on, off⟩ else none

/-- What a parenthesis opens. -/
inductive Opening where
  /-- Nothing, it only turns switches. -/
  | switches (turned : Switches)
  /-- A group. -/
  | group (name : Option String) (turned : Switches)
  deriving DecidableEq, Repr

/-- Reads the name of a group and the angle behind it. -/
def groupName : Reader Opening := fun cs =>
  (Text.cutAt? '>' cs).bind fun (name, rest) =>
    if isGroupName name then some (.group (some (String.ofList name)) {}, rest) else none

/-- Reads switches and what ends them. -/
def turnedSwitches : Reader Opening := fun cs => do
  let letters := cs.takeWhile fun c => c != ':' && c != ')'
  let turned ← switchesOf? letters
  match cs.drop letters.length with
  | ':' :: rest => some (.group none turned, rest)
  | ')' :: rest => if letters.isEmpty then none else some (.switches turned, rest)
  | _ => none

/-- Reads the beginning of a group behind its parenthesis. -/
def opening (spaced : Bool) : Reader Opening := fun cs =>
  match skip spaced cs with
  | '?' :: 'P' :: '<' :: cs | '?' :: '<' :: cs => groupName cs
  | '?' :: cs => turnedSwitches cs
  | cs => some (.group none {}, cs)

/-! ## Patterns -/

/-- The pattern of an escape. -/
def ofEscape : Escape → Pattern
  | .char c byte => .char c byte
  | .category negated => .category negated
  | .anchor word => .anchor word

/-- Reads a part that is neither a group nor a class in brackets. -/
def simplePart (spaced : Bool) : Reader Pattern
  | [] => none
  | c :: cs =>
    if c = '\\' then (escape spaced cs).map fun (e, cs) => (ofEscape e, cs)
    else if c = '.' then some (.anyChar, cs)
    else if c = '^' ∨ c = '$' then some (.anchor false, cs)
    else if c = '\x7b' then none
    else some (.char c false, cs)

/-- The parts with the last one repeated, the last one first. Switches cannot be repeated. -/
def repeatLast? : List Pattern → Option (List Pattern)
  | [] => none
  | .switches _ :: _ => none
  | p :: parts => some (.repeated p :: parts)

/-- What follows the question mark of a repetition that takes as little as it can. -/
def afterQuestion : List Char → List Char
  | '?' :: cs => cs
  | cs => cs

/-- Reads the rest of a group up to its closing parenthesis, or up to the end. What was read of it
comes with the last part first. -/
def groupRest : (fuel : Nat) → (spaced : Bool) → (branches parts : List Pattern) → Reader Pattern
  | 0, _, _, _, _ => none
  | fuel + 1, spaced, branches, parts, cs =>
    let branch := ofParts parts.reverse
    match skip spaced cs with
    | [] => some (ofBranches (branch :: branches).reverse, [])
    | ')' :: cs => some (ofBranches (branch :: branches).reverse, ')' :: cs)
    | '|' :: cs => groupRest fuel spaced (branch :: branches) [] cs
    | '(' :: cs => do
      let (opening, cs) ← opening spaced cs
      match opening with
      | .switches turned =>
        groupRest fuel (turned.apply .spaced spaced) branches (.switches turned :: parts) cs
      | .group name turned =>
        let (p, cs) ← groupRest fuel (turned.apply .spaced spaced) [] [] cs
        match cs with
        | ')' :: cs => groupRest fuel spaced branches (.group name turned p :: parts) cs
        | _ => none
    | '[' :: cs => do
      let (p, cs) ← bracketed spaced cs
      groupRest fuel spaced branches (p :: parts) cs
    | '?' :: cs | '*' :: cs | '+' :: cs => do
      let parts ← repeatLast? parts
      groupRest fuel spaced branches parts (afterQuestion cs)
    | cs => do
      let (p, cs) ← simplePart spaced cs
      groupRest fuel spaced branches (p :: parts) cs

/-- Reads a pattern. -/
def parse? (s : String) : Option Pattern :=
  match groupRest (s.length + 1) false [] [] s.toList with
  | some (p, []) => some p
  | _ => none

end DebugAdapter.Pattern
