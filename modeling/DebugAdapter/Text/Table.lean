/-!
# Tables

A `Table α` binds texts to values in the order in which the texts were first bound. `insert`
binds a new text last and rebinds a bound one in its place. The same list without that promise is
a `Bindings α`, where a later binding of a name shadows the earlier ones.
-/

namespace DebugAdapter

/-- Values under names, in the order in which the names were first bound. -/
abbrev Table (α : Type) := List (String × α)

namespace Table

variable {α : Type}

/-- The value under `key`. -/
def get? : Table α → String → Option α
  | [], _ => none
  | (k, v) :: t, key => if k = key then some v else get? t key

/-- Binds `key` to `value`, in the place of an earlier binding if there is one. -/
def insert : Table α → String → α → Table α
  | [], key, value => [(key, value)]
  | (k, v) :: t, key, value => if k = key then (k, value) :: t else (k, v) :: insert t key value

/-- Inserts the pairs one after the other. -/
def insertAll (t : Table α) (pairs : List (String × α)) : Table α :=
  pairs.foldl (fun t p => t.insert p.1 p.2) t

/-- The table of the pairs, inserted one after the other. -/
def ofList (pairs : List (String × α)) : Table α :=
  insertAll [] pairs

/-- The names in order. -/
def keys (t : Table α) : List String :=
  t.map Prod.fst

@[simp] theorem get?_nil (key : String) : get? ([] : Table α) key = none := rfl

@[simp] theorem get?_insert (t : Table α) (key key' : String) (value : α) :
    (t.insert key value).get? key' = if key = key' then some value else t.get? key' := by
  induction t with
  | nil => simp [insert, get?]
  | cons p t ih =>
    obtain ⟨k, v⟩ := p
    by_cases h : k = key
    · subst h
      by_cases h' : k = key' <;> simp [insert, get?, h']
    · by_cases h' : k = key'
      · subst h'
        simp [insert, get?, h, Ne.symm h]
      · simp [insert, get?, h, h', ih]

/-- A new name comes last, and a bound one keeps its place. -/
theorem keys_insert (t : Table α) (key : String) (value : α) :
    (t.insert key value).keys = if key ∈ t.keys then t.keys else t.keys ++ [key] := by
  induction t with
  | nil => simp [insert, keys]
  | cons p t ih =>
    obtain ⟨k, v⟩ := p
    by_cases h : k = key
    · simp [insert, keys, h]
    · simp only [insert, h, if_false, keys, List.map_cons, List.mem_cons, Ne.symm h, false_or]
        at ih ⊢
      rw [ih]
      split <;> simp_all

end Table

/-- Values under names, where a later binding of a name shadows the earlier ones. -/
abbrev Bindings (α : Type) := List (String × α)

namespace Bindings

variable {α : Type}

/-- The value of the innermost binding of `name`. -/
def find? : Bindings α → String → Option α
  | [], _ => none
  | (n, v) :: rest, name => (find? rest name).or (if n = name then some v else none)

/-- Gives the innermost binding of `name` a new value, if there is one. -/
def assign? : Bindings α → String → α → Option (Bindings α)
  | [], _, _ => none
  | (n, v) :: rest, name, value =>
    match assign? rest name value with
    | some rest' => some ((n, v) :: rest')
    | none => if n = name then some ((n, value) :: rest) else none

end Bindings

end DebugAdapter
