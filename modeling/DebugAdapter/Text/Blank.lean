/-!
# Blank characters

`isBlank` is the Unicode property `White_Space`. `trim` cuts blank characters from both ends of a
text, and `trimChars` from those of a list of characters.
-/

namespace DebugAdapter.Text

/-- The code points with the property `White_Space`. -/
def isBlank (c : Char) : Bool :=
  let n := c.toNat
  (9 ≤ n && n ≤ 13) || n == 0x20 || n == 0x85 || n == 0xA0 || n == 0x1680 ||
    (0x2000 ≤ n && n ≤ 0x200A) || n == 0x2028 || n == 0x2029 || n == 0x202F ||
    n == 0x205F || n == 0x3000

/-- `cs` without its longest tail in the class `p`. -/
def dropEndWhile (p : Char → Bool) (cs : List Char) : List Char :=
  (cs.reverse.dropWhile p).reverse

/-- The characters of `cs` between its first and its last one that is not blank. -/
def trimChars (cs : List Char) : List Char :=
  dropEndWhile isBlank (cs.dropWhile isBlank)

/-- `s` without the blanks at either end. -/
def trim (s : String) : String :=
  String.ofList (trimChars s.toList)

end DebugAdapter.Text
