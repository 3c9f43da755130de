import DebugAdapter.Breakpoints.Registry
/-!
# Which breakpoints a key finds

A request to replace the breakpoints of one source changes what other keys find too. Which keys find
the new breakpoints is `Registry.serves` (`Registry.lookup_replace`). The registry's own word on it,
`Replaced.matches`, is another condition : it compares keys without their resource types and does
not ask which entries there are. `Registry.judges_iff` says when its word is true.
-/

namespace DebugAdapter.Registry

open SourceKey (withoutKind normalize)

/-- The breakpoints that a request for a registry is for. -/
def requestedEntries (r : Registry) (requested : List SourceBreakpoint) : SourceBreakpoints :=
  entries (numbered r.nextId requested)

/-- Whether a script under the key `active` finds the breakpoints that are put under `key`. -/
def serves (r : Registry) (key active : String) : Prop :=
  active = key ∨ active = withoutKind key ∨
    r.sources.get? active = none ∧
      (withoutKind active = key ∨ withoutKind active = withoutKind key)

instance (r : Registry) (key active : String) : Decidable (r.serves key active) :=
  inferInstanceAs (Decidable (_ ∨ _ ∨ _ = none ∧ _))

/-- Whether breakpoints that are put under `key` are for the script under `active`, which finds them
there. -/
def reaches (r : Registry) (key active : String) : Prop :=
  active = key ∨ r.sources.get? active = none ∧ withoutKind active = withoutKind key

/-- Whether the registry tells rightly if a request is for the script under the key `active`. -/
def judges (r : Registry) (source : Source) (requested : List SourceBreakpoint)
    (active : String) : Prop :=
  let (replaced, r') := r.replace source requested
  (replaced.matches active = true → r'.lookup active = some (r.requestedEntries requested)) ∧
    (replaced.matches active = false → r'.lookup active = r.lookup active)

/-- Whether the registry passes the lines of a request on to the script under the key `active` just
when the script finds them there. -/
def judgesLines (r : Registry) (source : Source) (requested : List SourceBreakpoint)
    (active : String) : Prop :=
  ((r.replace source requested).1.matches active = true ↔
      r.serves (normalize (source.path.getD "")) active) ∨
    r.lines active = (r.replace source requested).1.lines

instance (r : Registry) (source : Source) (requested : List SourceBreakpoint) (active : String) :
    Decidable (r.judgesLines source requested active) :=
  inferInstanceAs (Decidable (_ ∨ _))

variable (r : Registry) (source : Source) (requested : List SourceBreakpoint) (active : String)

theorem get?_store (sources : Table SourceBreakpoints) (key k : String)
    (found : SourceBreakpoints) : (store sources key found).get? k =
      if k = key ∨ k = withoutKind key then some found else sources.get? k := by
  unfold store
  by_cases hkind : withoutKind key = key
  · simp [hkind, eq_comm]
  · simp only [hkind, if_false, Table.get?_insert, eq_comm (a := k)]
    by_cases hkey : key = k <;> simp [hkey]

/-- What a key finds after a request. -/
theorem lookup_replace : (r.replace source requested).2.lookup active =
    if r.serves (normalize (source.path.getD "")) active then
      some (r.requestedEntries requested)
    else r.lookup active := by
  simp only [replace, lookup, get?_store]
  by_cases hkey : active = normalize (source.path.getD "") ∨
      active = withoutKind (normalize (source.path.getD ""))
  · have hserves : r.serves (normalize (source.path.getD "")) active :=
      hkey.elim .inl fun h => .inr (.inl h)
    rw [if_pos hkey, if_pos hserves]
    rfl
  · rw [if_neg hkey]
    obtain ⟨hne, hne'⟩ := not_or.1 hkey
    cases hactive : r.sources.get? active with
    | some m => simp [serves, hne, hne', hactive]
    | none =>
      simp only [serves, hne, hne', hactive, false_or, true_and, Option.none_or]
      rfl

theorem matches_replace : (r.replace source requested).1.matches active = true ↔
    normalize (source.path.getD "") = active ∨
      withoutKind (normalize (source.path.getD "")) = withoutKind active := by
  simp [replace, Replaced.matches]

variable {r source active} in
theorem serves_of_reaches {key : String} (h : r.reaches key active) : r.serves key active :=
  h.imp_right fun ⟨hnone, hkind⟩ => .inr ⟨hnone, .inr hkind⟩

variable {r source active} in
theorem matches_of_reaches (h : r.reaches (normalize (source.path.getD "")) active) :
    (r.replace source requested).1.matches active = true :=
  (matches_replace ..).2 (h.imp Eq.symm fun ⟨_, hkind⟩ => hkind.symm)

/-- The registry tells rightly whether a request is for a script just when the script finds the new
breakpoints if and only if the keys match, or found the same before. -/
theorem judges_iff : r.judges source requested active ↔
    (((r.replace source requested).1.matches active = true ↔
        r.serves (normalize (source.path.getD "")) active) ∨
      r.lookup active = some (r.requestedEntries requested)) := by
  simp only [judges, lookup_replace]
  by_cases hserves : r.serves (normalize (source.path.getD "")) active
  · cases hmatches : (r.replace source requested).1.matches active <;> simp [hserves, eq_comm]
  · cases hmatches : (r.replace source requested).1.matches active <;> simp [hserves]

theorem lines_replace : (r.replace source requested).2.lines active =
    if r.serves (normalize (source.path.getD "")) active then
      (r.replace source requested).1.lines
    else r.lines active := by
  simp only [lines, lookup_replace]
  split <;> rfl

end DebugAdapter.Registry
