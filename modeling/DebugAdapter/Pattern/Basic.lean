/-!
# Patterns

A `Pattern` is what a regular expression looks like, as far as that decides whether it can be
used: characters, classes, anchors, groups and repetitions. A class in brackets is a `ClassSet`.
`Pattern.height` says how deep a pattern is nested, and `Pattern.names` lists the names of its
groups.
-/

namespace DebugAdapter

namespace Pattern

/-! ## Switches -/

/-- What can be switched on and off within a pattern. -/
inductive Switch where
  /-- Letters stand for themselves in either case. -/
  | ignoreCase
  /-- Anchors of the text are anchors of its lines. -/
  | multiLine
  /-- The point stands for line ends too. -/
  | dotAll
  /-- Repetitions take as little as they can. -/
  | lazy
  /-- Lines end in a carriage return and a line feed. -/
  | returns
  /-- Classes are those of all scripts. -/
  | unicode
  /-- Blanks and comments do not count. -/
  | spaced
  deriving DecidableEq, Repr

/-- The letter of a switch. -/
def Switch.letter : Switch → Char
  | ignoreCase => 'i'
  | multiLine => 'm'
  | dotAll => 's'
  | lazy => 'U'
  | returns => 'R'
  | unicode => 'u'
  | spaced => 'x'

/-- All switches. -/
def Switch.all : List Switch :=
  [ignoreCase, multiLine, dotAll, lazy, returns, unicode, spaced]

/-- The switch of a letter. -/
def Switch.ofLetter? (c : Char) : Option Switch :=
  all.find? (·.letter == c)

/-- The switches that are turned in one place. -/
structure Switches where
  on : List Switch := []
  off : List Switch := []
  deriving DecidableEq, Repr

/-- The state of a switch that was in the state `before`. -/
def Switches.apply (turned : Switches) (s : Switch) (before : Bool) : Bool :=
  if s ∈ turned.on then true else if s ∈ turned.off then false else before

/-! ## Classes -/

/-- What stands between brackets. -/
inductive ClassSet where
  /-- A single character. -/
  | char (c : Char)
  /-- The characters from the first to the last one. -/
  | range (first last : Char)
  /-- A class with a name in colons, or its complement. -/
  | named (negated : Bool)
  /-- A class with a letter behind a backslash, or its complement. -/
  | category (negated : Bool)
  /-- A set in brackets, or its complement. -/
  | bracket (negated : Bool) (set : ClassSet)
  /-- All sets together. -/
  | union (sets : List ClassSet)
  /-- The intersection or a difference of two sets. -/
  | combined (left right : ClassSet)
  deriving Repr

/-- All sets together; a single one is taken as it is. -/
def ClassSet.ofList : List ClassSet → ClassSet
  | [s] => s
  | sets => union sets

mutual

/-- How deep a set is nested. -/
def ClassSet.height : ClassSet → Nat
  | bracket _ s => s.height + 1
  | union [] => 0
  | union (s :: ss) => max s.height (heights ss) + 1
  | combined l r => max l.height r.height + 1
  | _ => 0

/-- How deep the deepest of the sets is nested. -/
def ClassSet.heights : List ClassSet → Nat
  | [] => 0
  | s :: ss => max s.height (heights ss)

end

end Pattern

/-! ## Patterns -/

/-- The parts of a regular expression. -/
inductive Pattern where
  /-- Nothing at all. -/
  | empty
  /-- Turns switches for what follows in the group. -/
  | switches (turned : Pattern.Switches)
  /-- A character; `byte` says that it is spelled by a number of two digits. -/
  | char (c : Char) (byte : Bool)
  /-- Any character. -/
  | anyChar
  /-- A place in the text; `word` says that it is a border of a word. -/
  | anchor (word : Bool)
  /-- A class with a letter behind a backslash, or its complement. -/
  | category (negated : Bool)
  /-- A class in brackets. -/
  | bracket (negated : Bool) (set : Pattern.ClassSet)
  /-- A pattern several times. -/
  | repeated (p : Pattern)
  /-- A pattern in a group, which may have a name and turn switches. -/
  | group (name : Option String) (turned : Pattern.Switches) (p : Pattern)
  /-- One of several patterns. -/
  | either (branches : List Pattern)
  /-- Several patterns one after the other. -/
  | chain (parts : List Pattern)
  deriving Repr, Inhabited

namespace Pattern

/-- Patterns one after the other; a single one is taken as it is. -/
def ofParts : List Pattern → Pattern
  | [] => empty
  | [p] => p
  | parts => chain parts

/-- One of the patterns; a single one is taken as it is. -/
def ofBranches : List Pattern → Pattern
  | [p] => p
  | branches => either branches

mutual

/-- How deep a pattern is nested. -/
def height : Pattern → Nat
  | bracket _ s => s.height + 1
  | repeated p | group _ _ p => p.height + 1
  | either ps | chain ps => heights ps + 1
  | _ => 0

/-- How deep the deepest of the patterns is nested. -/
def heights : List Pattern → Nat
  | [] => 0
  | p :: ps => max p.height (heights ps)

end

mutual

/-- The names of all groups, from left to right. -/
def names : Pattern → List String
  | group name _ p => name.toList ++ p.names
  | repeated p => p.names
  | either ps | chain ps => namesAll ps
  | _ => []

/-- The names of all groups of the patterns. -/
def namesAll : List Pattern → List String
  | [] => []
  | p :: ps => p.names ++ namesAll ps

end

end Pattern

end DebugAdapter
