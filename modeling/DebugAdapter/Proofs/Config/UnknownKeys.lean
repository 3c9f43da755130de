import DebugAdapter.Proofs.Config.Recognized
/-!
# Unknown keys

The names of an unknown entry are reported with points in between, but less the points in front,
which may be a part of the first name. The items of a section that is a list have no names, so they
are not reported. A document is `Faithful` when none of this matters and no section is a date, as
with sections that are tables and names that begin otherwise (`faithful_of_plain`).

Dropping what has no place in the settings and keeping what has one (`Forgets`) leaves them as they
are (`loadDocument_without`). Main statement: `unknownKeys_exact`. Some texts that are `Misreported`
follow it.
-/

namespace DebugAdapter.Config

open Toml (Value)

variable {drop : List Segment → Bool} {v : Value} {es : Toml.Entries} {s : Settings}
  {unknown : List KeyPath} {name : String} {path : List Segment}

/-! ## The list of keys -/

theorem mem_dropRepeats {key : String} {keys : List String} :
    key ∈ dropRepeats keys ↔ key ∈ keys := by
  fun_induction dropRepeats keys with
  | case1 => rfl
  | case2 => rfl
  | case3 t rest ih => simp [ih]
  | case4 s t rest hne ih => simp [ih]

theorem pairwise_dropRepeats {keys : List String} (h : keys.Pairwise (· ≤ ·)) :
    (dropRepeats keys).Pairwise (· < ·) := by
  fun_induction dropRepeats keys with
  | case1 => exact .nil
  | case2 => exact List.pairwise_singleton _ _
  | case3 t rest ih => exact ih h.of_cons
  | case4 s t rest hne ih =>
    refine List.pairwise_cons.2 ⟨fun key hkey => ?_, ih h.of_cons⟩
    obtain ⟨hs, hrest⟩ := List.pairwise_cons.1 h
    have hlt : s < t := Std.lt_of_le_of_ne (hs t List.mem_cons_self) hne
    rcases List.mem_cons.1 (mem_dropRepeats.1 hkey) with rfl | hkey
    · exact hlt
    · exact Std.lt_of_lt_of_le hlt ((List.pairwise_cons.1 hrest).1 key hkey)

theorem mem_listKeys_iff {key : String} {paths : List KeyPath} :
    key ∈ listKeys paths ↔ ∃ path ∈ paths, dottedText path = key := by
  rw [listKeys, mem_dropRepeats, List.mem_mergeSort, List.mem_map]

theorem pairwise_listKeys (paths : List KeyPath) : (listKeys paths).Pairwise (· < ·) := by
  have htrans (a b c : String) (hab : decide (a ≤ b) = true) (hbc : decide (b ≤ c) = true) :
      decide (a ≤ c) = true :=
    decide_eq_true (String.le_trans (of_decide_eq_true hab) (of_decide_eq_true hbc))
  have htotal (a b : String) : (decide (a ≤ b) || decide (b ≤ a)) = true := by
    simpa using String.le_total a b
  have hsorted := List.pairwise_mergeSort htrans htotal (paths.map dottedText)
  exact pairwise_dropRepeats (hsorted.imp of_decide_eq_true)

theorem listKeys_pair (p q : KeyPath) : listKeys [p, q] =
    if dottedText p = dottedText q then [dottedText p]
    else if dottedText p ≤ dottedText q then [dottedText p, dottedText q]
    else [dottedText q, dottedText p] := by
  simp only [listKeys, List.map_cons, List.map_nil, List.mergeSort,
    List.MergeSort.Internal.splitInTwo]
  split
  next heq => simp [heq, dropRepeats]
  next hne =>
    split
    next hle => simp [hle, hne, dropRepeats]
    next hle => simp [hle, Ne.symm hne, dropRepeats]

/-! ## Dotted paths -/

/-- The text of a step. -/
def stepText : Segment → String
  | .key name => name
  | .index i => toString i

/-- A path with points between its steps. -/
def dotted (path : List Segment) : String :=
  ".".intercalate (path.map stepText)

theorem dotted_map_key (names : List String) : dotted (names.map .key) = ".".intercalate names := by
  simp [dotted, stepText, Function.comp_def]

/-- A path that does not begin with a point is reported as it is. -/
theorem dottedText_eq {names : KeyPath} (h : (".".intercalate names).toList.head? ≠ some '.') :
    dottedText names = ".".intercalate names := by
  have hdrop : (".".intercalate names).toList.dropWhile (· = '.') =
      (".".intercalate names).toList := by
    cases hcs : (".".intercalate names).toList with
    | nil => rfl
    | cons c cs =>
      rw [hcs] at h
      exact List.dropWhile_cons_of_neg (by simpa using h)
  rw [dottedText, hdrop, String.ofList_toList]

/-- No key that is reported begins with a point. -/
theorem head?_dottedText (names : KeyPath) : (dottedText names).toList.head? ≠ some '.' := by
  rw [dottedText, String.toList_ofList]
  intro hhead
  have hnot := List.head?_dropWhile_not (· = '.') (".".intercalate names).toList
  rw [hhead] at hnot
  simp at hnot

/-! ## Loading -/

/-- The settings of a document that was read. -/
def Settings.loadDocument (es : Toml.Entries) : Except ConfigError Loaded :=
  match decodeFrom es {} with
  | .error e => .error (.undecodable e)
  | .ok (settings, unknown) => .ok ⟨settings, listKeys unknown⟩

theorem Settings.load_eq (text : String) :
    load text = (Toml.parse text).elim (.error .malformed) loadDocument := by
  rw [load]
  cases Toml.parse text <;> rfl

theorem Settings.loadDocument_eq_ok {loaded : Loaded} (h : loadDocument es = .ok loaded) :
    ∃ unknown, decodeFrom es {} = .ok (loaded.settings, unknown) ∧
      loaded.unknownKeys = listKeys unknown := by
  rw [loadDocument] at h
  cases hdecode : decodeFrom es {} with
  | error e => rw [hdecode] at h; cases h
  | ok decoded =>
    rw [hdecode] at h
    cases h
    exact ⟨decoded.2, rfl, rfl⟩

/-- Whether some section of a document is a date. -/
def Dated (es : Toml.Entries) : Prop :=
  ∃ name, (Settings.section? name).isSome = true ∧ (name, .datetime) ∈ es

/-- Whether nothing is dropped that the settings recognize, and each name that they do not. -/
structure Forgets (drop : List Segment → Bool) : Prop where
  known : ∀ path, Settings.recognizes path = true → drop path = false
  unknown : ∀ names : List String, Settings.recognizes (names.map .key) = false →
    drop (names.map .key) = true

/-- Without the names that the settings do not recognize, only sections that are dates are left to
report. -/
theorem reported_without {names : KeyPath} (hforgets : Forgets drop)
    (h : Reported (Value.entriesWithout drop [] es) names) : Dated es := by
  rcases h with ⟨hholds, hunrecognized, -⟩ | ⟨name, hname, hmem, -⟩
  · have hne : names ≠ [] := by
      rintro rfl
      cases hunrecognized
    obtain ⟨-, hkept⟩ := Value.holds_keys_without_iff (v := .table .header es).1 hholds
    cases (hkept names hne List.prefix_rfl).symm.trans (hforgets.unknown names hunrecognized)
  · obtain ⟨v, hmem, -, hv⟩ := Value.mem_entriesWithout_iff.1 hmem
    obtain rfl := Value.without_eq_datetime_iff.1 hv
    exact ⟨name, hname, hmem⟩

/-- A section that is a date is reported whatever else is left out. -/
theorem exists_reported_without (hforgets : Forgets drop) (h : Dated es) :
    ∃ names, Reported (Value.entriesWithout drop [] es) names := by
  obtain ⟨name, hname, hmem⟩ := h
  have hkept : drop [.key name] = false := hforgets.known _ hname
  exact ⟨_, .inr ⟨name, hname, Value.mem_entriesWithout_iff.2 ⟨_, hmem, hkept, rfl⟩, rfl⟩⟩

/-- What the settings do not recognize has no effect on them, and without it nothing is reported
unless a section is a date. -/
theorem loadDocument_without {loaded : Loaded} (hforgets : Forgets drop)
    (h : Settings.loadDocument es = .ok loaded) : ∃ keys,
      Settings.loadDocument (Value.entriesWithout drop [] es) = .ok ⟨loaded.settings, keys⟩ ∧
      (keys = [] ↔ ¬Dated es) := by
  obtain ⟨unknown, hdecode, -⟩ := Settings.loadDocument_eq_ok h
  obtain ⟨left, hleft⟩ := Settings.decodeFrom_without hforgets.known hdecode
  refine ⟨listKeys left, by rw [Settings.loadDocument, hleft], fun hnil hdated => ?_,
    fun hdated => List.eq_nil_iff_forall_not_mem.2 fun key hkey => hdated ?_⟩
  · obtain ⟨names, hnames⟩ := exists_reported_without hforgets hdated
    have hkey := mem_listKeys_iff.2 ⟨names, (mem_unknown_iff hleft names).2 hnames, rfl⟩
    simp [hnil] at hkey
  · obtain ⟨names, hnames, -⟩ := mem_listKeys_iff.1 hkey
    exact reported_without hforgets ((mem_unknown_iff hleft names).1 hnames)

/-- The document without all that the settings do not recognize. -/
def withoutUnknown (es : Toml.Entries) : Toml.Entries :=
  Value.entriesWithout (fun path => !Settings.recognizes path) [] es

theorem forgets_unrecognized : Forgets fun path => !Settings.recognizes path where
  known path h := by simp [h]
  unknown names h := by simp [h]

/-- Whether the keys are the dotted paths of the unknown entries of a document, in strictly
ascending order. -/
structure Lists (keys : List String) (es : Toml.Entries) : Prop where
  ascending : keys.Pairwise (· < ·)
  mem_iff : ∀ key, key ∈ keys ↔ ∃ path, Unknown es path ∧ dotted path = key

/-- Whether each unknown entry of a document is reported under its dotted path, and nothing else. -/
structure Faithful (es : Toml.Entries) : Prop where
  /-- No unknown name at the top begins with a point. -/
  undotted : ∀ name, Unknown es [.key name] → name.toList.head? ≠ some '.'
  /-- No section is a date. -/
  undated : ¬Dated es
  /-- No section that is a list has more items than keys, unless another unknown entry happens to
  have the same dotted path as the item. -/
  named : ∀ path, Unknown es path → ∃ names : List String, Unknown es (names.map .key) ∧
    dotted (names.map .key) = dotted path

theorem eq_of_section? {recognized : Segment → Bool}
    (h : Settings.section? name = some recognized) : name = "logging" ∨ name = "debug" := by
  unfold Settings.section? at h
  split at h
  next hname => exact .inl hname
  next =>
    split at h
    next hname => exact .inr hname
    next => cases h

/-- An unknown entry is reported under its dotted path, if its name does not begin with a point. -/
theorem dottedText_of_unknown {names : KeyPath}
    (hes : ∀ name v, (name, v) ∈ es → ∃ inner, Taken name v inner)
    (hundotted : ∀ name, Unknown es [.key name] → name.toList.head? ≠ some '.')
    (h : Unknown es (names.map .key)) : dottedText names = dotted (names.map .key) := by
  rw [dotted_map_key]
  refine dottedText_eq ?_
  obtain ⟨name, v, hmem, ⟨hname, hpath⟩ | ⟨recognized, t, hname, hpath, -⟩⟩ := (unknown_iff hes).1 h
  · obtain rfl := map_key_eq_singleton hpath
    simpa using hundotted name h
  · obtain ⟨key, rfl, rfl⟩ := map_key_eq_pair hpath
    rcases eq_of_section? hname with rfl | rfl <;> simp

/-- The keys of a document are what is reported of it. -/
theorem mem_unknownKeys_iff {loaded : Loaded} (h : Settings.loadDocument es = .ok loaded)
    (key : String) :
    key ∈ loaded.unknownKeys ↔ ∃ names, Reported es names ∧ dottedText names = key := by
  obtain ⟨unknown, hdecode, hkeys⟩ := Settings.loadDocument_eq_ok h
  simp only [hkeys, mem_listKeys_iff, mem_unknown_iff hdecode]

theorem exists_taken_of_loadDocument {loaded : Loaded} (h : Settings.loadDocument es = .ok loaded)
    (name : String) (v : Value) (hmem : (name, v) ∈ es) : ∃ inner, Taken name v inner := by
  obtain ⟨unknown, hdecode, -⟩ := Settings.loadDocument_eq_ok h
  exact ((Settings.exists_taken hdecode).1 name v hmem).imp fun _ => And.left

/-- A document without dates has all its unknown entries reported under their paths, and nothing
else, just when it is faithful. -/
theorem lists_iff_faithful {loaded : Loaded} (h : Settings.loadDocument es = .ok loaded)
    (hundated : ¬Dated es) : Lists loaded.unknownKeys es ↔ Faithful es := by
  have hkeys := mem_unknownKeys_iff h
  have hes := exists_taken_of_loadDocument h
  have hreported (names : KeyPath) : Reported es names ↔ Unknown es (names.map .key) :=
    or_iff_left fun ⟨name, hname, hmem, _⟩ => hundated ⟨name, hname, hmem⟩
  simp only [hreported] at hkeys
  constructor
  · rintro ⟨-, hmem⟩
    have hundotted (name : String) (hname : Unknown es [.key name]) :
        name.toList.head? ≠ some '.' := by
      have hkey := (hmem name).2 ⟨_, hname, by simp [dotted, stepText]⟩
      obtain ⟨names, -, rfl⟩ := (hkeys name).1 hkey
      exact head?_dottedText names
    refine ⟨hundotted, hundated, fun path hpath => ?_⟩
    obtain ⟨names, hnames, hkey⟩ := (hkeys _).1 ((hmem _).2 ⟨path, hpath, rfl⟩)
    exact ⟨names, hnames, (dottedText_of_unknown hes hundotted hnames).symm.trans hkey⟩
  · rintro ⟨hundotted, -, hnamed⟩
    refine ⟨?_, fun key => ?_⟩
    · obtain ⟨unknown, -, hlist⟩ := Settings.loadDocument_eq_ok h
      rw [hlist]
      exact pairwise_listKeys unknown
    · rw [hkeys]
      constructor
      · rintro ⟨names, hnames, rfl⟩
        exact ⟨_, hnames, (dottedText_of_unknown hes hundotted hnames).symm⟩
      · rintro ⟨path, hpath, rfl⟩
        obtain ⟨names, hnames, hdotted⟩ := hnamed path hpath
        exact ⟨names, hnames, (dottedText_of_unknown hes hundotted hnames).trans hdotted⟩

/-- Whether an entry is a section that is a table, or no section and its name does not begin with a
point. -/
def isPlain (name : String) (v : Value) : Bool :=
  match Settings.section? name with
  | some _ => (v matches .table _ _)
  | none => name.toList.head? != some '.'

theorem isPlain_of_section? (hname : (Settings.section? name).isSome = true)
    (hplain : isPlain name v = true) : ∃ origin inner, v = .table origin inner := by
  obtain ⟨recognized, hname⟩ := Option.isSome_iff_exists.1 hname
  simp only [isPlain, hname] at hplain
  cases v with
  | table origin inner => exact ⟨origin, inner, rfl⟩
  | _ => cases hplain

theorem head?_of_isPlain (hname : Settings.section? name = none) (hplain : isPlain name v = true) :
    name.toList.head? ≠ some '.' := by
  simpa [isPlain, hname] using hplain

/-- A document is faithful when its sections are tables and no unknown name at its top begins with a
point. -/
theorem faithful_of_plain {loaded : Loaded} (h : Settings.loadDocument es = .ok loaded)
    (hplain : ∀ p ∈ es, isPlain p.1 p.2 = true) : Faithful es := by
  have hes := exists_taken_of_loadDocument h
  refine ⟨fun name hpath => ?_, ?_, fun path hpath => ?_⟩
  · obtain ⟨name', v, hmem, ⟨hnone, heq⟩ | ⟨_, t, _, heq, -⟩⟩ := (unknown_iff hes).1 hpath
    · cases heq
      exact head?_of_isPlain hnone (hplain _ hmem)
    · cases heq
  · rintro ⟨name, hname, hmem⟩
    obtain ⟨origin, inner, heq⟩ := isPlain_of_section? hname (hplain _ hmem)
    cases heq
  · obtain ⟨name, v, hmem, ⟨-, rfl⟩ | ⟨recognized, t, hname, rfl, ⟨w, hw⟩, -⟩⟩ :=
      (unknown_iff hes).1 hpath
    · exact ⟨[name], hpath, rfl⟩
    · obtain ⟨origin, inner, rfl⟩ := isPlain_of_section? (by simp [hname]) (hplain _ hmem)
      obtain ⟨key, rfl, -⟩ := mem_parts_table.1 hw
      exact ⟨[name, key], hpath, rfl⟩

/-! ## Texts that are misreported -/

/-- The unknown entries of a document that is taken. -/
def unknownPaths (es : Toml.Entries) : List (List Segment) :=
  es.flatMap fun p =>
    match Settings.section? p.1 with
    | none => [[.key p.1]]
    | some recognized =>
      ((p.2.parts.map Prod.fst).filter (!recognized ·)).map fun t => [.key p.1, t]

theorem mem_unknownPaths_iff (hes : ∀ name v, (name, v) ∈ es → ∃ inner, Taken name v inner) :
    path ∈ unknownPaths es ↔ Unknown es path := by
  rw [unknown_iff hes, unknownPaths, List.mem_flatMap, Prod.exists]
  refine exists_congr fun name => exists_congr fun v => and_congr_right fun _ => ?_
  cases hname : Settings.section? name with
  | none => simp
  | some recognized =>
    simp only [List.mem_map, List.mem_filter, Prod.exists, exists_and_right, exists_eq_right,
      Bool.not_eq_eq_eq_not, Bool.not_true]
    grind

/-- What a text is decoded to, with the unknown entries of its document. -/
def decoded? (text : String) : Option (WithUnknown Settings × List (List Segment)) :=
  (Toml.parse text).bind fun es =>
    (Settings.decodeFrom es {}).toOption.map fun decoded => (decoded, unknownPaths es)

theorem exists_of_decoded? {text : String} {paths : List (List Segment)}
    (h : decoded? text = some ((s, unknown), paths)) :
    ∃ es, Toml.parse text = some es ∧ Settings.loadDocument es = .ok ⟨s, listKeys unknown⟩ ∧
      unknownPaths es = paths := by
  obtain ⟨es, hes, h⟩ := Option.bind_eq_some_iff.1 h
  obtain ⟨decoded, hdecode, heq⟩ := Option.map_eq_some_iff.1 h
  cases heq
  refine ⟨es, hes, ?_, rfl⟩
  cases hdecoded : Settings.decodeFrom es {} with
  | error e => rw [hdecoded] at hdecode; cases hdecode
  | ok decoded =>
    rw [hdecoded] at hdecode
    cases hdecode
    rw [Settings.loadDocument, hdecoded]

/-- Whether a text is taken, but the keys are not the dotted paths of its unknown entries. -/
def Misreported (text : String) (keys : List String) : Prop :=
  ∃ settings es, Settings.load text = .ok ⟨settings, keys⟩ ∧ Toml.parse text = some es ∧
    ¬Lists keys es

/-- A text is misreported when a key is reported without an unknown entry of this path, or not
reported with one. -/
theorem misreported_of_decoded? {text : String} {keys : List String} {paths : List (List Segment)}
    (h : decoded? text = some ((s, unknown), paths)) (hkeys : listKeys unknown = keys)
    (key : String) (hkey : key ∈ unknown.map dottedText ↔ key ∉ paths.map dotted) :
    Misreported text keys := by
  obtain ⟨es, hes, hload, rfl⟩ := exists_of_decoded? h
  have hunknown (path : List Segment) : path ∈ unknownPaths es ↔ Unknown es path :=
    mem_unknownPaths_iff (exists_taken_of_loadDocument hload)
  subst hkeys
  refine ⟨s, es, by rw [Settings.load_eq, hes, Option.elim, hload], hes, fun hlists => ?_⟩
  have hlisted : key ∈ listKeys unknown ↔ key ∈ (unknownPaths es).map dotted := by
    simp only [hlists.mem_iff, List.mem_map, hunknown]
  rw [mem_listKeys_iff, ← List.mem_map, hkey] at hlisted
  exact iff_not_self hlisted.symm

/-! ## All that is reported -/

/-- The keys that are reported for a document are in strictly ascending order, and are the names
that lead to unknown entries with points in between, less the points in front, and the names that
stand for sections that are dates. Without names that are not recognized a document loads to the
same settings, and reports nothing unless a section is a date. So the keys are the dotted paths of
all unknown entries, and nothing is reported without these, just when the document is faithful. -/
theorem unknownKeys_exact {text : String} {loaded : Loaded} (h : Settings.load text = .ok loaded) :
    ∃ es, Toml.parse text = some es ∧ Settings.loadDocument es = .ok loaded ∧
      loaded.unknownKeys.Pairwise (· < ·) ∧
      (∀ key, key ∈ loaded.unknownKeys ↔ ∃ names, Reported es names ∧ dottedText names = key) ∧
      (∀ drop, Forgets drop → ∃ keys,
        Settings.loadDocument (Value.entriesWithout drop [] es) = .ok ⟨loaded.settings, keys⟩ ∧
        (keys = [] ↔ ¬Dated es)) ∧
      (Lists loaded.unknownKeys es ∧
        Settings.loadDocument (withoutUnknown es) = .ok ⟨loaded.settings, []⟩ ↔ Faithful es) := by
  rw [Settings.load_eq] at h
  cases hes : Toml.parse text with
  | none => rw [hes] at h; cases h
  | some es =>
    rw [hes] at h
    have h : Settings.loadDocument es = .ok loaded := h
    obtain ⟨unknown, hdecode, hkeys⟩ := Settings.loadDocument_eq_ok h
    obtain ⟨keys, hwithout, hnone⟩ := loadDocument_without forgets_unrecognized h
    refine ⟨es, rfl, h, hkeys ▸ pairwise_listKeys unknown, mem_unknownKeys_iff h,
      fun drop hdrop => loadDocument_without hdrop h, ?_⟩
    constructor
    · rintro ⟨hlists, hloads⟩
      cases hwithout.symm.trans hloads
      exact (lists_iff_faithful h (hnone.1 rfl)).1 hlists
    · intro hfaithful
      obtain rfl := hnone.2 hfaithful.undated
      exact ⟨(lists_iff_faithful h hfaithful.undated).2 hfaithful, hwithout⟩

/-- A document with an unknown name at the top and one in a section. -/
def colours : String :=
  "\"x.y\" = true\n[logging]\nlevel = \"warn\"\ncolour = true"

theorem load_colours : Settings.load colours =
    .ok ⟨{ logging := { level := "warn" } }, ["logging.colour", "x.y"]⟩ := by
  have hkeys : listKeys [["x.y"], ["logging", "colour"]] = ["logging.colour", "x.y"] := by
    rw [listKeys_pair]
    decide +kernel
  have hdecoded : decoded? colours = some
      (({ logging := { level := "warn" } }, [["x.y"], ["logging", "colour"]]),
        [[.key "x.y"], [.key "logging", .key "colour"]]) := by
    decide +kernel
  obtain ⟨es, hes, hload, -⟩ := exists_of_decoded? hdecoded
  rw [Settings.load_eq, hes, ← hkeys]
  exact hload

theorem unknownKeys_exact_colours : ∃ es, Toml.parse colours = some es ∧
    Lists ["logging.colour", "x.y"] es ∧
    Settings.loadDocument (withoutUnknown es) = .ok ⟨{ logging := { level := "warn" } }, []⟩ := by
  obtain ⟨es, hes, hload, -, -, -, hfaithful⟩ := unknownKeys_exact load_colours
  have hplain : (Toml.parse colours).all (fun es => es.all fun p => isPlain p.1 p.2) = true := by
    decide +kernel
  rw [hes, Option.all_some, List.all_eq_true] at hplain
  exact ⟨es, hes, hfaithful.2 (faithful_of_plain hload hplain)⟩

/-- A name that begins with a point is taken for another one, a section that is a date is reported
with a name that it does not have, and an item too many in a section that is a list is not
reported. -/
theorem unknownKeys_apart :
    Misreported "\".a\" = true\na = true" ["a"] ∧
    Misreported "debug = 1979-05-27" ["debug.$__toml_private_datetime"] ∧
    Misreported "logging = [\"info\", false, true, \"x\", false, true]" [] := by
  refine ⟨?_, ?_, ?_⟩
  · have hdecoded : decoded? "\".a\" = true\na = true" =
        some (({}, [[".a"], ["a"]]), [[.key ".a"], [.key "a"]]) := by
      decide +kernel
    have hkeys : listKeys [[".a"], ["a"]] = ["a"] := by
      rw [listKeys_pair]
      decide +kernel
    exact misreported_of_decoded? hdecoded hkeys ".a" (by decide +kernel)
  · have hdecoded : decoded? "debug = 1979-05-27" =
        some (({}, [["debug", SectionShape.datetimeKey]]), []) := by
      decide +kernel
    exact misreported_of_decoded? hdecoded (by decide +kernel) "debug.$__toml_private_datetime"
      (by decide +kernel)
  · have hdecoded : decoded? "logging = [\"info\", false, true, \"x\", false, true]" =
        some (({ logging := { file := some "x" } }, []), [[.key "logging", .index 5]]) := by
      decide +kernel
    exact misreported_of_decoded? hdecoded (by decide +kernel) "logging.5" (by decide +kernel)

end DebugAdapter.Config
