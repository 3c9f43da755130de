/-!
# Line maps

A `LineMap α` holds values under line numbers, lowest line first. `insert` replaces the value of a
line that has one.
-/

namespace DebugAdapter

/-- Values under ascending line numbers. -/
abbrev LineMap (α : Type) := List (UInt32 × α)

namespace LineMap

variable {α : Type}

/-- Gives a line a value. -/
def insert (line : UInt32) (value : α) : LineMap α → LineMap α
  | [] => [(line, value)]
  | (l, v) :: m =>
    if line < l then (line, value) :: (l, v) :: m
    else if line = l then (line, value) :: m
    else (l, v) :: insert line value m

/-- The value of a line. -/
def get? : LineMap α → UInt32 → Option α
  | [], _ => none
  | (l, v) :: m, line => if l = line then some v else get? m line

/-- The lines that have a value, lowest first. -/
def lines (m : LineMap α) : List UInt32 :=
  m.map Prod.fst

theorem get?_nil (line : UInt32) : get? ([] : LineMap α) line = none := rfl

theorem get?_insert (m : LineMap α) (line line' : UInt32) (value : α) :
    (m.insert line value).get? line' = if line = line' then some value else m.get? line' := by
  induction m with
  | nil => simp [insert, get?]
  | cons p m ih =>
    obtain ⟨l, v⟩ := p
    simp only [insert]
    by_cases hlt : line < l
    · simp [hlt, get?]
    · by_cases heq : line = l
      · subst heq
        by_cases h : line = line' <;> simp [get?, h]
      · simp only [hlt, heq, if_false, get?, ih]
        by_cases hl : l = line'
        · have hne : line ≠ line' := fun h => heq (h.trans hl.symm)
          simp [hl, hne]
        · simp [hl]

end LineMap

end DebugAdapter
