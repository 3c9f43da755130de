import DebugAdapter.Config.Settings
import DebugAdapter.Proofs.Toml.Entries
/-!
# Sections

A section of the settings comes as a table or as a list, and recognizes the names of its keys or as
many items as it has keys. When it can be decoded, each name that it does not recognize is reported
(`SectionShape.mem_unknown_iff`), what it recognizes holds nothing in turn
(`SectionShape.parts_of_recognizes`), and it stores the same without anything that it does not
recognize (`SectionShape.decode_without`).
-/

namespace DebugAdapter.Config

open Toml (Value)

variable {ρ α : Type} {drop : List Segment → Bool} {here : List Segment} {v w : Value}
  {es : Toml.Entries} {r r' : ρ} {unknown : List KeyPath}

/-! ## Values without parts -/

/-- Whether a decoder takes only values that hold nothing. -/
def Decoder.TakesPlain (d : Decoder α) : Prop :=
  ∀ v a, d v = .ok a → v.parts = []

theorem Decoder.takesPlain_textAs (wanted : String) : (Decoder.textAs wanted).TakesPlain := by
  intro v a h
  cases v <;> first | rfl | cases h

theorem Decoder.takesPlain_flag : Decoder.flag.TakesPlain := by
  intro v a h
  cases v <;> first | rfl | cases h

theorem Decoder.takesPlain_natural : Decoder.natural.TakesPlain := by
  intro v a h
  cases v <;> first | rfl | cases h

/-- Whether a key stores only values that hold nothing. -/
def SectionKey.StoresPlain (key : SectionKey ρ) : Prop :=
  ∀ v r r', key.store v r = .ok r' → v.parts = []

theorem SectionKey.storesPlain_of {name : String} {d : Decoder α} {put : α → ρ → ρ}
    (hd : d.TakesPlain) : (SectionKey.of name d put).StoresPlain := by
  intro v r r' h
  cases hv : d v with
  | ok a => exact hd v a hv
  | error e =>
    simp only [SectionKey.of, hv] at h
    cases h

/-- Whether all keys of a section store only values that hold nothing. -/
def SectionShape.StoresPlain (shape : SectionShape ρ) : Prop :=
  ∀ key ∈ shape.keys, key.StoresPlain

theorem LoggingSettings.shape_storesPlain : LoggingSettings.shape.StoresPlain := by
  intro key hkey
  simp only [LoggingSettings.shape, List.mem_cons, List.not_mem_nil, or_false] at hkey
  rcases hkey with rfl | rfl | rfl | rfl | rfl
  · exact SectionKey.storesPlain_of (Decoder.takesPlain_textAs _)
  · exact SectionKey.storesPlain_of Decoder.takesPlain_flag
  · exact SectionKey.storesPlain_of Decoder.takesPlain_flag
  · exact SectionKey.storesPlain_of (Decoder.takesPlain_textAs _)
  · exact SectionKey.storesPlain_of Decoder.takesPlain_flag

theorem DebugSettings.shape_storesPlain : DebugSettings.shape.StoresPlain := by
  intro key hkey
  simp only [DebugSettings.shape, List.mem_cons, List.not_mem_nil, or_false] at hkey
  rcases hkey with rfl | rfl | rfl
  · exact SectionKey.storesPlain_of Decoder.takesPlain_natural
  · exact SectionKey.storesPlain_of Decoder.takesPlain_natural
  · exact SectionKey.storesPlain_of (Decoder.takesPlain_textAs _)

namespace SectionShape

variable {shape : SectionShape ρ}

/-- Whether a section has a place for what a step leads to. -/
def recognizes (shape : SectionShape ρ) : Segment → Bool
  | .key name => shape.keys.any (·.name == name)
  | .index i => decide (i < shape.keys.length)

/-! ## Sections that are tables -/

theorem find?_eq_none_iff {name : String} :
    shape.keys.find? (·.name == name) = none ↔ shape.recognizes (.key name) = false := by
  simp [recognizes]

/-- The first entry is reported, or a key stores it. -/
theorem storeEntries_cons_eq_ok {name : String}
    (h : shape.storeEntries ((name, v) :: es) r = .ok (r', unknown)) :
    (shape.recognizes (.key name) = false ∧
      ∃ rest, shape.storeEntries es r = .ok (r', rest) ∧ unknown = [name] :: rest) ∨
    shape.recognizes (.key name) = true ∧ ∃ key, shape.keys.find? (·.name == name) = some key ∧
      ∃ r₁, key.store v r = .ok r₁ ∧ shape.storeEntries es r₁ = .ok (r', unknown) := by
  rw [storeEntries] at h
  split at h
  next hnone =>
    refine .inl ⟨find?_eq_none_iff.1 hnone, ?_⟩
    cases hrest : shape.storeEntries es r with
    | error e => rw [hrest] at h; cases h
    | ok stored =>
      rw [hrest] at h
      cases h
      exact ⟨_, rfl, rfl⟩
  next key hkey =>
    refine .inr ⟨eq_true_of_ne_false fun hunknown => ?_, key, hkey, ?_⟩
    · cases (find?_eq_none_iff.2 hunknown).symm.trans hkey
    · cases hstore : key.store v r with
      | error e => rw [hstore] at h; cases h
      | ok r₁ =>
        rw [hstore] at h
        exact ⟨r₁, rfl, h⟩

/-- The names that are reported are those that no key has. -/
theorem mem_unknown_of_storeEntries (h : shape.storeEntries es r = .ok (r', unknown))
    (names : KeyPath) : names ∈ unknown ↔
      ∃ name, names = [name] ∧ (∃ w, (name, w) ∈ es) ∧ shape.recognizes (.key name) = false := by
  induction es generalizing r unknown with
  | nil =>
    cases h
    simp
  | cons p es ih =>
    obtain ⟨name, v⟩ := p
    rcases storeEntries_cons_eq_ok h with ⟨hunknown, rest, hrest, rfl⟩ |
      ⟨hrecognizes, key, -, r₁, -, hrest⟩
    · have := ih hrest
      grind
    · have := ih hrest
      grind

/-- What a key stores holds nothing. -/
theorem parts_of_storeEntries (hshape : shape.StoresPlain)
    (h : shape.storeEntries es r = .ok (r', unknown)) {name : String} (hw : (name, w) ∈ es)
    (hname : shape.recognizes (.key name) = true) : w.parts = [] := by
  induction es generalizing r unknown with
  | nil => cases hw
  | cons p es ih =>
    obtain ⟨name', v⟩ := p
    rcases storeEntries_cons_eq_ok h with ⟨hunknown, rest, hrest, rfl⟩ |
      ⟨-, key, hkey, r₁, hstore, hrest⟩
    · rcases List.mem_cons.1 hw with heq | hw
      · cases heq
        cases hunknown.symm.trans hname
      · exact ih hrest hw
    · rcases List.mem_cons.1 hw with heq | hw
      · cases heq
        exact hshape key (List.mem_of_find?_eq_some hkey) w r r₁ hstore
      · exact ih hrest hw

/-- Without names that no key has, the same is stored. -/
theorem storeEntries_without (hshape : shape.StoresPlain)
    (hdrop : ∀ s, shape.recognizes s = true → drop (here ++ [s]) = false)
    (h : shape.storeEntries es r = .ok (r', unknown)) :
    ∃ rest, shape.storeEntries (Value.entriesWithout drop here es) r = .ok (r', rest) := by
  induction es generalizing r unknown with
  | nil =>
    cases h
    exact ⟨[], rfl⟩
  | cons p es ih =>
    obtain ⟨name, v⟩ := p
    rcases storeEntries_cons_eq_ok h with ⟨hunknown, rest, hrest, rfl⟩ |
      ⟨hname, key, hkey, r₁, hstore, hrest⟩
    · obtain ⟨left, hleft⟩ := ih hrest
      rw [Value.entriesWithout]
      split
      · exact ⟨left, hleft⟩
      · refine ⟨[name] :: left, ?_⟩
        rw [storeEntries, find?_eq_none_iff.2 hunknown, hleft]
        rfl
    · obtain ⟨left, hleft⟩ := ih hrest
      have hplain := hshape key (List.mem_of_find?_eq_some hkey) v r r₁ hstore
      refine ⟨left, ?_⟩
      rw [Value.entriesWithout, if_neg (by simp [hdrop _ hname]), Value.without_of_parts hplain]
      simp only [storeEntries, hkey, hstore]
      exact hleft

/-! ## Sections that are lists -/

/-- A key stores the first item. -/
theorem storeItems_cons_eq_ok {key : SectionKey ρ} {keys : List (SectionKey ρ)} {vs : List Value}
    (h : storeItems (key :: keys) (v :: vs) r = .ok r') :
    ∃ r₁, key.store v r = .ok r₁ ∧ storeItems keys vs r₁ = .ok r' := by
  rw [storeItems] at h
  cases hstore : key.store v r with
  | error e => rw [hstore] at h; cases h
  | ok r₁ =>
    rw [hstore] at h
    exact ⟨r₁, rfl, h⟩

/-- The items that keys store hold nothing. -/
theorem parts_of_storeItems {keys : List (SectionKey ρ)} {vs : List Value}
    (hkeys : ∀ key ∈ keys, key.StoresPlain) (h : storeItems keys vs r = .ok r') {i : Nat}
    (hi : vs[i]? = some v) (hlt : i < keys.length) : v.parts = [] := by
  induction keys generalizing vs r i with
  | nil => cases hlt
  | cons key keys ih =>
    cases vs with
    | nil => cases hi
    | cons v' vs =>
      obtain ⟨r₁, hstore, hrest⟩ := storeItems_cons_eq_ok h
      cases i with
      | zero =>
        obtain rfl := Option.some.inj hi
        exact hkeys key List.mem_cons_self _ r r₁ hstore
      | succ i =>
        exact ih (fun key hkey => hkeys key (List.mem_cons_of_mem _ hkey)) hrest hi
          (Nat.lt_of_succ_lt_succ hlt)

/-- Without items beyond the keys, the same is stored. -/
theorem storeItems_without {keys : List (SectionKey ρ)} {vs : List Value} {i : Nat}
    (hkeys : ∀ key ∈ keys, key.StoresPlain)
    (hdrop : ∀ j < keys.length, drop (here ++ [.index (i + j)]) = false)
    (h : storeItems keys vs r = .ok r') :
    storeItems keys (Value.itemsWithout drop here i vs) r = .ok r' := by
  induction keys generalizing vs r i with
  | nil => exact h
  | cons key keys ih =>
    cases vs with
    | nil => exact h
    | cons v vs =>
      obtain ⟨r₁, hstore, hrest⟩ := storeItems_cons_eq_ok h
      have hplain := hkeys key List.mem_cons_self _ r r₁ hstore
      have hfirst : drop (here ++ [.index i]) = false := hdrop 0 (Nat.succ_pos _)
      have hothers : ∀ j < keys.length, drop (here ++ [.index (i + 1 + j)]) = false := by
        intro j hj
        simpa [Nat.add_assoc, Nat.add_comm 1] using hdrop (j + 1) (Nat.succ_lt_succ hj)
      rw [Value.itemsWithout, if_neg (by simp [hfirst]), Value.without_of_parts hplain, storeItems,
        hstore]
      exact ih (fun key hkey => hkeys key (List.mem_cons_of_mem _ hkey)) hothers hrest

/-! ## Sections -/

/-- The items of a section that is a list. -/
theorem storeItems_of_decode {vs : List Value}
    (h : (storeItems shape.keys vs shape.blank).map (fun r => (r, ([] : List KeyPath))) =
      .ok (r, unknown)) : storeItems shape.keys vs shape.blank = .ok r ∧ unknown = [] := by
  cases hitems : storeItems shape.keys vs shape.blank with
  | error e => rw [hitems] at h; cases h
  | ok r' =>
    rw [hitems] at h
    cases h
    exact ⟨rfl, rfl⟩

/-- A section reports each name that it does not recognize, and the name that stands for a date. -/
theorem mem_unknown_iff (h : shape.decode v = .ok (r, unknown)) (names : KeyPath) :
    names ∈ unknown ↔ (∃ name, names = [name] ∧ (∃ w, (.key name, w) ∈ v.parts) ∧
      shape.recognizes (.key name) = false) ∨ v = .datetime ∧ names = [datetimeKey] := by
  cases v with
  | table origin es =>
    rw [decode] at h
    simpa [Value.parts] using mem_unknown_of_storeEntries h names
  | datetime =>
    cases h
    simp [Value.parts]
  | list vs | tables items =>
    obtain ⟨-, rfl⟩ := storeItems_of_decode h
    simp [Value.parts]
  | string _ | integer _ | float _ | boolean _ => cases h

/-- The paths that a section reports, behind its own name. -/
theorem mem_map_unknown_iff (h : shape.decode v = .ok (r, unknown)) (name : String)
    (names : KeyPath) : names ∈ unknown.map (name :: ·) ↔
      (∃ key, names = [name, key] ∧ (∃ w, (.key key, w) ∈ v.parts) ∧
        shape.recognizes (.key key) = false) ∨ v = .datetime ∧ names = [name, datetimeKey] := by
  simp only [List.mem_map, mem_unknown_iff h]
  constructor
  · rintro ⟨-, ⟨key, rfl, hkey⟩ | ⟨hv, rfl⟩, rfl⟩
    · exact .inl ⟨key, rfl, hkey⟩
    · exact .inr ⟨hv, rfl⟩
  · rintro (⟨key, rfl, hkey⟩ | ⟨hv, rfl⟩)
    · exact ⟨_, .inl ⟨key, rfl, hkey⟩, rfl⟩
    · exact ⟨_, .inr ⟨hv, rfl⟩, rfl⟩

/-- What a section recognizes holds nothing. -/
theorem parts_of_recognizes (hshape : shape.StoresPlain) (h : shape.decode v = .ok (r, unknown))
    {s : Segment} (hw : (s, w) ∈ v.parts) (hs : shape.recognizes s = true) : w.parts = [] := by
  cases v with
  | table origin es =>
    rw [decode] at h
    obtain ⟨p, hp, heq⟩ := List.mem_map.1 hw
    cases heq
    exact parts_of_storeEntries hshape h hp hs
  | list vs | tables items =>
    obtain ⟨hitems, -⟩ := storeItems_of_decode h
    obtain ⟨i, rfl, hi⟩ := Value.exists_of_mem_items hw
    exact parts_of_storeItems hshape hitems hi (of_decide_eq_true hs)
  | datetime => cases hw
  | string _ | integer _ | float _ | boolean _ => cases h

/-- Without anything that it does not recognize, a section is the same. -/
theorem decode_without (hshape : shape.StoresPlain)
    (hdrop : ∀ s, shape.recognizes s = true → drop (here ++ [s]) = false)
    (h : shape.decode v = .ok (r, unknown)) :
    ∃ left, shape.decode (v.without drop here) = .ok (r, left) := by
  have hitems {vs : List Value} (hvs : storeItems shape.keys vs shape.blank = .ok r) :
      storeItems shape.keys (Value.itemsWithout drop here 0 vs) shape.blank = .ok r :=
    storeItems_without hshape (fun j hj => hdrop _ (by simpa [recognizes] using hj)) hvs
  cases v with
  | table origin es =>
    rw [decode] at h
    exact storeEntries_without hshape hdrop h
  | list vs =>
    refine ⟨[], ?_⟩
    rw [Value.without, decode, hitems (storeItems_of_decode h).1]
    rfl
  | tables items =>
    refine ⟨[], ?_⟩
    rw [Value.without, decode, Value.map_tablesWithout, hitems (storeItems_of_decode h).1]
    rfl
  | datetime => exact ⟨_, h⟩
  | string _ | integer _ | float _ | boolean _ => cases h

end SectionShape

end DebugAdapter.Config
