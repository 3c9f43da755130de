import DebugAdapter.Pattern.Parser
/-!
# Patterns that can be used

Patterns are matched on UTF-8 text and without tables of Unicode classes, so not all of them can
be used. While the switch `unicode` is on, classes with a letter, borders of words and letters in
either case would need the tables. While it is off, what matches a byte that is not ASCII could
split a character. `Pattern.isValid` holds of the texts that are patterns, nested at most 250
deep, and can be used.
-/

namespace DebugAdapter.Pattern

/-- The switches on which it depends what can be used. -/
structure Modes where
  ignoreCase : Bool := false
  unicode : Bool := true
  deriving DecidableEq, Repr

/-- The modes behind switches that are turned. -/
def Modes.turn (m : Modes) (turned : Switches) : Modes where
  ignoreCase := turned.apply .ignoreCase m.ignoreCase
  unicode := turned.apply .unicode m.unicode

/-- Whether `c` is ASCII. -/
def isAscii (c : Char) : Bool :=
  c.toNat < 0x80

mutual

/-- Whether a set can be used. -/
def ClassSet.isUsable (m : Modes) : ClassSet → Bool
  | char c => if m.unicode then !m.ignoreCase else isAscii c
  | range first last => if m.unicode then !m.ignoreCase else isAscii first && isAscii last
  | named negated => if m.unicode then !m.ignoreCase else !negated
  | category negated => !m.unicode && !negated
  | bracket negated s => (m.unicode || !negated) && s.isUsable m
  | union ss => areUsable m ss
  | combined l r => l.isUsable m && r.isUsable m

/-- Whether all the sets can be used. -/
def ClassSet.areUsable (m : Modes) : List ClassSet → Bool
  | [] => true
  | s :: ss => s.isUsable m && areUsable m ss

end

mutual

/-- The modes behind a pattern, if it can be used. Switches last up to the end of their group. -/
def modesAfter? (m : Modes) : Pattern → Option Modes
  | empty => some m
  | switches turned => some (m.turn turned)
  | char c byte =>
    if m.unicode then if m.ignoreCase then none else some m
    else if byte ∧ !isAscii c then none else some m
  | anyChar => if m.unicode then some m else none
  | anchor word => if word ∧ m.unicode then none else some m
  | category negated => if m.unicode ∨ negated then none else some m
  | bracket negated s => if (ClassSet.bracket negated s).isUsable m then some m else none
  | repeated p => modesAfter? m p
  | group _ turned p => (modesAfter? (m.turn turned) p).map fun _ => m
  | either ps | chain ps => modesAfterAll? m ps

/-- The modes behind several patterns, if all of them can be used. -/
def modesAfterAll? (m : Modes) : List Pattern → Option Modes
  | [] => some m
  | p :: ps => (modesAfter? m p).bind fun m => modesAfterAll? m ps

end

/-- Whether the pattern can be used. -/
def isUsable (p : Pattern) : Bool :=
  (modesAfter? {} p).isSome

/-- How deep a pattern may be nested. -/
def heightLimit : Nat := 250

/-- Whether a text is a pattern that can be used. The names of its groups have to differ. -/
def isValid (s : String) : Bool :=
  match parse? s with
  | none => false
  | some p => decide p.names.Nodup && decide (p.height ≤ heightLimit) && p.isUsable

end DebugAdapter.Pattern
