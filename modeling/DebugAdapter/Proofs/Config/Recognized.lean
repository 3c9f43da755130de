import DebugAdapter.Proofs.Config.Sections
/-!
# What the settings recognize

The settings have a place for the sections of a document and for what a section recognizes. An entry
is `Unknown` when they have no place for it and it is in no other such entry. When a document is
decoded, each entry at its top is `Taken` : it is unknown, or a section in which whatever is
recognized holds nothing in turn. So there are unknown entries at the top and in the sections only
(`unknown_iff`).

`mem_unknown_iff` says what is reported (`Reported`) : the unknown entries that have names, and a
name for each section that is a date. Without what they do not recognize, the settings are the same
(`Settings.decodeFrom_without`).
-/

namespace DebugAdapter.Config

open Toml (Value)

variable {drop : List Segment → Bool} {v w : Value} {es : Toml.Entries} {s s' : Settings}
  {unknown : List KeyPath} {name : String} {path : List Segment}

/-! ## What the settings recognize -/

/-- What the section of a name recognizes. -/
def Settings.section? (name : String) : Option (Segment → Bool) :=
  if name = "logging" then some LoggingSettings.shape.recognizes
  else if name = "debug" then some DebugSettings.shape.recognizes
  else none

/-- Whether the settings have a place for what a path leads to. -/
def Settings.recognizes : List Segment → Bool
  | [] => true
  | [.key name] => (section? name).isSome
  | [.key name, s] => (section? name).any (· s)
  | _ => false

/-- Whether a path leads to an entry that the settings do not recognize, and not through another
one. -/
structure Unknown (es : Toml.Entries) (path : List Segment) : Prop where
  holds : (Value.table .header es).Holds path
  unrecognized : Settings.recognizes path = false
  outermost : ∀ front, front <+: path → front ≠ path → Settings.recognizes front = true

/-! ## Entries -/

/-- What an entry of a document is that leads to these unknown keys: one that is unknown itself, or
a section of which nothing that it recognizes holds anything in turn. -/
inductive Taken (name : String) (v : Value) (unknown : List KeyPath) : Prop where
  | other (hname : Settings.section? name = none) (hunknown : unknown = [[name]])
  | known (recognized : Segment → Bool) (hname : Settings.section? name = some recognized)
    (hplain : ∀ t w, (t, w) ∈ v.parts → recognized t = true → w.parts = [])
    (hunknown : ∀ names, names ∈ unknown ↔
      (∃ key, names = [name, key] ∧ (∃ w, (.key key, w) ∈ v.parts) ∧
        recognized (.key key) = false) ∨ v = .datetime ∧ names = [name, SectionShape.datetimeKey])

namespace SectionShape

variable {ρ : Type} {shape : SectionShape ρ} {put : ρ → Settings}

/-- Takes the section of a name and puts it into the settings. -/
def decodeAs (shape : SectionShape ρ) (name : String) (put : ρ → Settings) (v : Value) :
    Except Json.DecodeError (WithUnknown Settings) :=
  (shape.decode v).map fun p => (put p.1, p.2.map (name :: ·))

theorem taken_of_decodeAs (hname : Settings.section? name = some shape.recognizes)
    (hshape : shape.StoresPlain) (h : shape.decodeAs name put v = .ok (s', unknown)) :
    Taken name v unknown := by
  rw [decodeAs] at h
  cases hdecode : shape.decode v with
  | error e => rw [hdecode] at h; cases h
  | ok stored =>
    rw [hdecode] at h
    cases h
    exact .known _ hname (fun t w => parts_of_recognizes hshape hdecode)
      (mem_map_unknown_iff hdecode name)

theorem decodeAs_without (hname : Settings.section? name = some shape.recognizes)
    (hshape : shape.StoresPlain)
    (hdrop : ∀ path, Settings.recognizes path = true → drop path = false)
    (h : shape.decodeAs name put v = .ok (s', unknown)) :
    ∃ left, shape.decodeAs name put (v.without drop [.key name]) = .ok (s', left) := by
  rw [decodeAs] at h
  cases hdecode : shape.decode v with
  | error e => rw [hdecode] at h; cases h
  | ok stored =>
    rw [hdecode] at h
    cases h
    have hkept (t : Segment) (ht : shape.recognizes t = true) : drop ([.key name] ++ [t]) = false :=
      hdrop _ (by simpa [Settings.recognizes, hname] using ht)
    obtain ⟨left, hleft⟩ := decode_without hshape hkept hdecode
    rw [decodeAs, hleft]
    exact ⟨_, rfl⟩

end SectionShape

namespace Settings

theorem section?_logging : section? "logging" = some LoggingSettings.shape.recognizes := rfl

theorem section?_debug : section? "debug" = some DebugSettings.shape.recognizes := rfl

/-- Takes an entry of a document. -/
def decodeEntry (name : String) (v : Value) (s : Settings) :
    Except Json.DecodeError (WithUnknown Settings) :=
  if name = "logging" then
    LoggingSettings.shape.decodeAs name (fun r => { s with logging := r }) v
  else if name = "debug" then
    DebugSettings.shape.decodeAs name (fun r => { s with debug := r }) v
  else .ok (s, [[name]])

theorem decodeFrom_cons (name : String) (v : Value) (es : Toml.Entries) (s : Settings) :
    decodeFrom ((name, v) :: es) s = (decodeEntry name v s).bind fun (s, inner) =>
      (decodeFrom es s).map fun (s, outer) => (s, inner ++ outer) := by
  rw [decodeFrom, decodeEntry]
  split
  · rw [SectionShape.decodeAs]
    cases LoggingSettings.shape.decode v <;> rfl
  · split
    · rw [SectionShape.decodeAs]
      cases DebugSettings.shape.decode v <;> rfl
    · rfl

theorem taken_of_decodeEntry (h : decodeEntry name v s = .ok (s', unknown)) :
    Taken name v unknown := by
  rw [decodeEntry] at h
  split at h
  next hname =>
    subst hname
    exact SectionShape.taken_of_decodeAs section?_logging LoggingSettings.shape_storesPlain h
  next hlogging =>
    split at h
    next hname =>
      subst hname
      exact SectionShape.taken_of_decodeAs section?_debug DebugSettings.shape_storesPlain h
    next hdebug =>
      cases h
      exact .other (by rw [section?, if_neg hlogging, if_neg hdebug]) rfl

/-- Without anything that the settings do not recognize, an entry stores the same. -/
theorem decodeEntry_without (hdrop : ∀ path, recognizes path = true → drop path = false)
    (h : decodeEntry name v s = .ok (s', unknown)) :
    ∃ left, decodeEntry name (v.without drop [.key name]) s = .ok (s', left) := by
  rw [decodeEntry] at h ⊢
  by_cases hlogging : name = "logging"
  · subst hlogging
    rw [if_pos rfl] at h ⊢
    exact SectionShape.decodeAs_without section?_logging LoggingSettings.shape_storesPlain hdrop h
  · by_cases hdebug : name = "debug"
    · subst hdebug
      rw [if_neg hlogging, if_pos rfl] at h ⊢
      exact SectionShape.decodeAs_without section?_debug DebugSettings.shape_storesPlain hdrop h
    · rw [if_neg hlogging, if_neg hdebug] at h ⊢
      exact ⟨_, h⟩

/-- An entry that is unknown stores nothing. -/
theorem eq_of_decodeEntry (hname : section? name = none)
    (h : decodeEntry name v s = .ok (s', unknown)) : s' = s := by
  rw [decodeEntry] at h
  split at h
  next hlogging => cases (hlogging ▸ hname : section? "logging" = none)
  next hlogging =>
    split at h
    next hdebug => cases (hdebug ▸ hname : section? "debug" = none)
    next hdebug =>
      cases h
      rfl

/-! ## Documents -/

/-- The first entry of a document is taken, and then the others. -/
theorem decodeFrom_cons_eq_ok (h : decodeFrom ((name, v) :: es) s = .ok (s', unknown)) :
    ∃ s₁ inner outer, decodeEntry name v s = .ok (s₁, inner) ∧
      decodeFrom es s₁ = .ok (s', outer) ∧ unknown = inner ++ outer := by
  rw [decodeFrom_cons] at h
  cases hentry : decodeEntry name v s with
  | error e => rw [hentry] at h; cases h
  | ok taken =>
    obtain ⟨s₁, inner⟩ := taken
    rw [hentry] at h
    cases hrest : decodeFrom es s₁ with
    | error e => simp only [Except.bind, hrest] at h; cases h
    | ok rest =>
      simp only [Except.bind, hrest] at h
      cases h
      exact ⟨s₁, inner, rest.2, rfl, hrest, rfl⟩

/-- The unknown keys of a document are those of its entries. -/
theorem exists_taken (h : decodeFrom es s = .ok (s', unknown)) :
    (∀ name v, (name, v) ∈ es → ∃ inner, Taken name v inner ∧ inner ⊆ unknown) ∧
      ∀ names ∈ unknown, ∃ name v inner, (name, v) ∈ es ∧ Taken name v inner ∧ names ∈ inner := by
  induction es generalizing s unknown with
  | nil =>
    cases h
    simp
  | cons p es ih =>
    obtain ⟨name, v⟩ := p
    obtain ⟨s₁, inner, outer, hentry, hrest, rfl⟩ := decodeFrom_cons_eq_ok h
    have htaken := taken_of_decodeEntry hentry
    obtain ⟨hall, honly⟩ := ih hrest
    constructor
    · intro name' v' hmem
      rcases List.mem_cons.1 hmem with heq | hmem
      · cases heq
        exact ⟨inner, htaken, List.subset_append_left _ _⟩
      · obtain ⟨inner', htaken', hsub⟩ := hall name' v' hmem
        exact ⟨inner', htaken', List.subset_append_of_subset_right _ hsub⟩
    · intro names hnames
      rcases List.mem_append.1 hnames with hnames | hnames
      · exact ⟨name, v, inner, List.mem_cons_self, htaken, hnames⟩
      · obtain ⟨name', v', inner', hmem, htaken', hnames⟩ := honly names hnames
        exact ⟨name', v', inner', List.mem_cons_of_mem _ hmem, htaken', hnames⟩

/-- Without anything that the settings do not recognize, a document gives the same settings. -/
theorem decodeFrom_without (hdrop : ∀ path, recognizes path = true → drop path = false)
    (h : decodeFrom es s = .ok (s', unknown)) :
    ∃ left, decodeFrom (Value.entriesWithout drop [] es) s = .ok (s', left) := by
  induction es generalizing s unknown with
  | nil =>
    cases h
    exact ⟨[], rfl⟩
  | cons p es ih =>
    obtain ⟨name, v⟩ := p
    obtain ⟨s₁, inner, outer, hentry, hrest, rfl⟩ := decodeFrom_cons_eq_ok h
    obtain ⟨left, hleft⟩ := ih hrest
    rw [Value.entriesWithout, List.nil_append]
    split
    next hdropped =>
      have hname : section? name = none := by
        have hunknown := mt (hdrop [.key name]) (by simp [hdropped])
        simpa [recognizes] using hunknown
      obtain rfl := eq_of_decodeEntry hname hentry
      exact ⟨left, hleft⟩
    next =>
      obtain ⟨first, hfirst⟩ := decodeEntry_without hdrop hentry
      refine ⟨first ++ left, ?_⟩
      rw [decodeFrom_cons, hfirst]
      simp only [Except.bind, hleft]
      rfl

end Settings

/-! ## What is reported -/

theorem mem_parts_table {t : Segment} : (t, w) ∈ (Value.table .header es).parts ↔
    ∃ name, t = .key name ∧ (name, w) ∈ es := by
  simp only [Value.parts, List.mem_map, Prod.mk.injEq]
  grind

/-- An unknown entry at the top of a document. -/
theorem unknown_singleton (hmem : (name, v) ∈ es) (hname : Settings.section? name = none) :
    Unknown es [.key name] where
  holds := ⟨v, mem_parts_table.2 ⟨name, rfl, hmem⟩, trivial⟩
  unrecognized := by simp [Settings.recognizes, hname]
  outermost front hfront hne := by
    rcases List.prefix_cons_iff.1 hfront with rfl | ⟨rest, rfl, hrest⟩
    · rfl
    · obtain rfl := List.prefix_nil.1 hrest
      exact absurd rfl hne

/-- An unknown entry of a section. -/
theorem unknown_pair {recognized : Segment → Bool} {t : Segment} (hmem : (name, v) ∈ es)
    (hname : Settings.section? name = some recognized) (hw : (t, w) ∈ v.parts)
    (ht : recognized t = false) : Unknown es [.key name, t] where
  holds := ⟨v, mem_parts_table.2 ⟨name, rfl, hmem⟩, w, hw, trivial⟩
  unrecognized := by simp [Settings.recognizes, hname, ht]
  outermost front hfront hne := by
    rcases List.prefix_cons_iff.1 hfront with rfl | ⟨rest, rfl, hrest⟩
    · rfl
    · rcases List.prefix_cons_iff.1 hrest with rfl | ⟨behind, rfl, hbehind⟩
      · simp [Settings.recognizes, hname]
      · obtain rfl := List.prefix_nil.1 hbehind
        exact absurd rfl hne

theorem Taken.parts {recognized : Segment → Bool} {t : Segment} (h : Taken name v unknown)
    (hname : Settings.section? name = some recognized) (hw : (t, w) ∈ v.parts)
    (ht : recognized t = true) : w.parts = [] := by
  cases h with
  | other hnone _ => cases hnone.symm.trans hname
  | known recognized' hname' hplain _ =>
    obtain rfl := Option.some.inj (hname'.symm.trans hname)
    exact hplain t w hw ht

/-- A path that is unknown ends where the settings do not recognize its front. -/
theorem Unknown.eq_of_prefix {front : List Segment} (h : Unknown es path) (hfront : front <+: path)
    (hunrecognized : Settings.recognizes front = false) : path = front := by
  refine Classical.byContradiction fun hne => ?_
  cases hunrecognized.symm.trans (h.outermost front hfront (Ne.symm hne))

/-- The unknown entries of a document that is taken stand at its top or in a section. -/
theorem unknown_iff (hes : ∀ name v, (name, v) ∈ es → ∃ inner, Taken name v inner) :
    Unknown es path ↔ ∃ name v, (name, v) ∈ es ∧
      (Settings.section? name = none ∧ path = [.key name] ∨
        ∃ recognized t, Settings.section? name = some recognized ∧ path = [.key name, t] ∧
          (∃ w, (t, w) ∈ v.parts) ∧ recognized t = false) := by
  constructor
  · intro h
    match path, h.holds, h with
    | [], _, h => cases h.unrecognized
    | t :: rest, ⟨v, hv, hrest⟩, h =>
      obtain ⟨name, rfl, hmem⟩ := mem_parts_table.1 hv
      refine ⟨name, v, hmem, ?_⟩
      cases hname : Settings.section? name with
      | none =>
        exact .inl ⟨rfl, h.eq_of_prefix (by simp) (by simp [Settings.recognizes, hname])⟩
      | some recognized =>
        match rest, hrest, h with
        | [], _, h => simpa [Settings.recognizes, hname] using h.unrecognized
        | t :: rest, ⟨w, hw, hrest⟩, h =>
          have ht : recognized t = false := by
            refine eq_false_of_ne_true fun ht => ?_
            obtain ⟨inner, htaken⟩ := hes name v hmem
            match rest, hrest, h with
            | [], _, h => simpa [Settings.recognizes, hname, ht] using h.unrecognized
            | t' :: _, ⟨w', hw', _⟩, _ => cases htaken.parts hname hw ht ▸ hw'
          have hunrecognized : Settings.recognizes [.key name, t] = false := by
            simp [Settings.recognizes, hname, ht]
          exact .inr ⟨recognized, t, rfl, h.eq_of_prefix (by simp) hunrecognized, ⟨w, hw⟩, ht⟩
  · rintro ⟨name, v, hmem, ⟨hname, rfl⟩ | ⟨recognized, t, hname, rfl, ⟨w, hw⟩, ht⟩⟩
    · exact unknown_singleton hmem hname
    · exact unknown_pair hmem hname hw ht

/-- What is reported: the unknown entries that have names only, and for each section that is a date
the name that stands for it. -/
def Reported (es : Toml.Entries) (names : KeyPath) : Prop :=
  Unknown es (names.map .key) ∨ ∃ name, (Settings.section? name).isSome = true ∧
    (name, .datetime) ∈ es ∧ names = [name, SectionShape.datetimeKey]

theorem map_key_eq_singleton {names : List String} (h : names.map .key = [Segment.key name]) :
    names = [name] := by
  obtain ⟨name', rfl, heq⟩ := List.map_eq_singleton_iff.1 h
  cases heq
  rfl

theorem map_key_eq_pair {names : List String} {t : Segment}
    (h : names.map .key = [Segment.key name, t]) : ∃ key, t = .key key ∧ names = [name, key] := by
  obtain ⟨name', rest, rfl, heq, hrest⟩ := List.map_eq_cons_iff.1 h
  obtain ⟨key, rfl, rfl⟩ := List.map_eq_singleton_iff.1 hrest
  cases heq
  exact ⟨key, rfl, rfl⟩

/-- A document reports what is unknown in it. -/
theorem mem_unknown_iff (h : Settings.decodeFrom es s = .ok (s', unknown)) (names : KeyPath) :
    names ∈ unknown ↔ Reported es names := by
  obtain ⟨hall, honly⟩ := Settings.exists_taken h
  constructor
  · intro hnames
    obtain ⟨name, v, inner, hmem, htaken, hnames⟩ := honly names hnames
    cases htaken with
    | other hname hinner =>
      obtain rfl := List.mem_singleton.1 (hinner ▸ hnames)
      exact .inl (unknown_singleton hmem hname)
    | known recognized hname _ hinner =>
      rcases (hinner names).1 hnames with ⟨key, rfl, ⟨w, hw⟩, hkey⟩ | ⟨rfl, rfl⟩
      · exact .inl (unknown_pair hmem hname hw hkey)
      · exact .inr ⟨name, by simp [hname], hmem, rfl⟩
  · rintro (hunknown | ⟨name, hname, hmem, rfl⟩)
    · have hes := fun name v hmem => (hall name v hmem).imp fun _ => And.left
      obtain ⟨name, v, hmem, hform⟩ := (unknown_iff hes).1 hunknown
      obtain ⟨inner, htaken, hsub⟩ := hall name v hmem
      rcases hform with ⟨hnone, hpath⟩ | ⟨recognized, t, hsome, hpath, ⟨w, hw⟩, ht⟩
      · obtain rfl := map_key_eq_singleton hpath
        cases htaken with
        | other _ hinner => exact hsub (by simp [hinner])
        | known _ hname _ _ => cases hnone.symm.trans hname
      · obtain ⟨key, rfl, rfl⟩ := map_key_eq_pair hpath
        cases htaken with
        | other hname _ => cases hname.symm.trans hsome
        | known recognized' hname _ hinner =>
          obtain rfl := Option.some.inj (hname.symm.trans hsome)
          exact hsub ((hinner _).2 (.inl ⟨key, rfl, ⟨w, hw⟩, ht⟩))
    · obtain ⟨inner, htaken, hsub⟩ := hall name _ hmem
      cases htaken with
      | other hnone _ => simp [hnone] at hname
      | known _ _ _ hinner => exact hsub ((hinner _).2 (.inr ⟨rfl, rfl⟩))

end DebugAdapter.Config
