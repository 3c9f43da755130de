import DebugAdapter.Toml.Basic
import DebugAdapter.Variables.Segment
/-!
# The entries of a document

A document is a table, and what it holds at any depth is an entry of it. A list of `Segment`s leads
to an entry, by its name in a table and by its place in a list (`Value.Holds`). `Value.without`
leaves out the entries that are to be dropped, each with all that it holds, and
`key_mem_parts_without_iff` says what is left.
-/

namespace DebugAdapter.Toml

variable {drop : List Segment → Bool} {here path : List Segment} {s : Segment} {v w : Value}
  {es : Entries} {name : String}

namespace Value

/-- What a value holds, each part with the step that leads to it. -/
def parts : Value → List (Segment × Value)
  | table _ es => es.map fun p => (.key p.1, p.2)
  | list vs => vs.zipIdx.map fun p => (.index p.2, p.1)
  | tables items => (items.map (table .header)).zipIdx.map fun p => (.index p.2, p.1)
  | _ => []

/-- Whether a path leads to something in a value. -/
def Holds : Value → List Segment → Prop
  | _, [] => True
  | v, s :: ss => ∃ w, (s, w) ∈ v.parts ∧ w.Holds ss

mutual

/-- The value without the entries that are to be dropped, where `here` leads to the value. -/
def without (drop : List Segment → Bool) : (here : List Segment) → Value → Value
  | here, table origin es => table origin (entriesWithout drop here es)
  | here, list vs => list (itemsWithout drop here 0 vs)
  | here, tables items => tables (tablesWithout drop here 0 items)
  | _, string s => string s
  | _, integer n => integer n
  | _, float x => float x
  | _, boolean b => boolean b
  | _, datetime => datetime

/-- The entries of a table without those that are to be dropped. -/
def entriesWithout (drop : List Segment → Bool) : (here : List Segment) →
    List (String × Value) → List (String × Value)
  | _, [] => []
  | here, (name, v) :: es =>
    if drop (here ++ [.key name]) then entriesWithout drop here es
    else (name, v.without drop (here ++ [.key name])) :: entriesWithout drop here es

/-- The items of a list from place `i` on without those that are to be dropped. -/
def itemsWithout (drop : List Segment → Bool) : (here : List Segment) → (i : Nat) →
    List Value → List Value
  | _, _, [] => []
  | here, i, v :: vs =>
    if drop (here ++ [.index i]) then itemsWithout drop here (i + 1) vs
    else v.without drop (here ++ [.index i]) :: itemsWithout drop here (i + 1) vs

/-- The tables of one name from place `i` on without those that are to be dropped. -/
def tablesWithout (drop : List Segment → Bool) : (here : List Segment) → (i : Nat) →
    List (List (String × Value)) → List (List (String × Value))
  | _, _, [] => []
  | here, i, es :: items =>
    if drop (here ++ [.index i]) then tablesWithout drop here (i + 1) items
    else entriesWithout drop (here ++ [.index i]) es :: tablesWithout drop here (i + 1) items

end

/-- What a list holds stands at its place. -/
theorem exists_of_mem_items {vs : List Value}
    (h : (s, w) ∈ vs.zipIdx.map fun p => (Segment.index p.2, p.1)) :
    ∃ i, s = .index i ∧ vs[i]? = some w := by
  obtain ⟨⟨v, i⟩, hmem, heq⟩ := List.mem_map.1 h
  cases heq
  exact ⟨i, rfl, List.mem_zipIdx_iff_getElem?.1 hmem⟩

/-! ## What is left -/

/-- A value that holds nothing stays as it is. -/
theorem without_of_parts (h : v.parts = []) : v.without drop here = v := by
  cases v with
  | table origin es =>
    obtain rfl := List.map_eq_nil_iff.1 h
    rfl
  | list vs =>
    obtain rfl : vs = [] := by simpa [parts] using h
    rfl
  | tables items =>
    obtain rfl : items = [] := by simpa [parts] using h
    rfl
  | string _ | integer _ | float _ | boolean _ | datetime => rfl

theorem without_eq_datetime_iff : v.without drop here = datetime ↔ v = datetime := by
  cases v <;> simp [without]

/-- The tables of one name are a list of tables. -/
theorem map_tablesWithout (items : List (List (String × Value))) (i : Nat) :
    (tablesWithout drop here i items).map (table .header) =
      itemsWithout drop here i (items.map (table .header)) := by
  induction items generalizing i with
  | nil => rfl
  | cons es items ih =>
    rw [List.map_cons, itemsWithout, tablesWithout]
    split
    · exact ih (i + 1)
    · rw [List.map_cons, ih, without]

theorem mem_entriesWithout_iff : (name, w) ∈ entriesWithout drop here es ↔
    ∃ v, (name, v) ∈ es ∧ drop (here ++ [.key name]) = false ∧
      v.without drop (here ++ [.key name]) = w := by
  induction es with
  | nil => simp [entriesWithout]
  | cons p es ih =>
    obtain ⟨name', v⟩ := p
    cases hdrop : drop (here ++ [.key name']) with
    | true => grind [entriesWithout]
    | false => grind [entriesWithout]

/-- What is left under a name is what stood there and is not to be dropped, without what is to be
dropped in turn. -/
theorem key_mem_parts_without_iff : (.key name, w) ∈ (v.without drop here).parts ↔
    ∃ w', (.key name, w') ∈ v.parts ∧ drop (here ++ [.key name]) = false ∧
      w'.without drop (here ++ [.key name]) = w := by
  cases v with
  | table origin es =>
    have hmem (es : Entries) (u : Value) : (.key name, u) ∈ (table origin es).parts ↔
        (name, u) ∈ es := by simp [parts]
    rw [without, hmem, mem_entriesWithout_iff]
    simp only [hmem]
  | list _ | tables _ | string _ | integer _ | float _ | boolean _ | datetime =>
    simp [without, parts]

/-- A path of names leads to something that is left just when it led to something, and nothing that
it leads through is to be dropped. -/
theorem holds_keys_without_iff {names : List String} :
    (v.without drop here).Holds (names.map .key) ↔ v.Holds (names.map .key) ∧
      ∀ front, front ≠ [] → front <+: names → drop (here ++ front.map .key) = false := by
  induction names generalizing v here with
  | nil =>
    refine ⟨fun _ => ⟨trivial, fun front hne hfront => ?_⟩, fun _ => trivial⟩
    exact absurd (List.prefix_nil.1 hfront) hne
  | cons name names ih =>
    have hfronts : (∀ front, front ≠ [] → front <+: name :: names →
        drop (here ++ front.map .key) = false) ↔ drop (here ++ [.key name]) = false ∧
          ∀ front, front ≠ [] → front <+: names →
            drop (here ++ [.key name] ++ front.map .key) = false := by
      constructor
      · refine fun h => ⟨h [name] nofun (by simp), fun front _ hfront => ?_⟩
        simpa using h (name :: front) nofun (by simpa using hfront)
      · rintro ⟨hname, hrest⟩ (_ | ⟨name', front⟩) hne hfront
        · exact absurd rfl hne
        · obtain ⟨rfl, hbehind⟩ := List.cons_prefix_cons.1 hfront
          by_cases hempty : front = []
          · simpa [hempty] using hname
          · simpa using hrest front hempty hbehind
    simp only [List.map_cons, Holds, key_mem_parts_without_iff, hfronts]
    constructor
    · rintro ⟨-, ⟨w, hw, hname, rfl⟩, hrest⟩
      obtain ⟨hholds, hrest⟩ := ih.1 hrest
      exact ⟨⟨w, hw, hholds⟩, hname, hrest⟩
    · rintro ⟨⟨w, hw, hholds⟩, hname, hrest⟩
      exact ⟨_, ⟨w, hw, hname, rfl⟩, ih.2 ⟨hholds, hrest⟩⟩

end Value

end DebugAdapter.Toml
