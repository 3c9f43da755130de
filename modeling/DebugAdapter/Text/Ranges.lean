/-!
# Tables of ranges

A class of characters is an ascending array of ranges of code points, both ends included.
`inRanges` searches one by halving.
-/

namespace DebugAdapter.Text

/-- Searches the ranges from `lo` to `hi` for one that holds `n`. -/
def searchRanges (table : Array (Nat × Nat)) (n lo hi : Nat) : Bool :=
  if _h : lo < hi then
    let mid := (lo + hi) / 2
    match table[mid]? with
    | none => false
    | some (first, last) =>
      if n < first then searchRanges table n lo mid
      else if last < n then searchRanges table n (mid + 1) hi
      else true
  else false
termination_by hi - lo

/-- Whether a range of the table holds `c`. -/
def inRanges (table : Array (Nat × Nat)) (c : Char) : Bool :=
  searchRanges table c.toNat 0 table.size

end DebugAdapter.Text
