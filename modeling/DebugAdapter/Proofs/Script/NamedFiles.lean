import DebugAdapter.Proofs.Script.Opened
/-!
# Scripts and the names they go by

A script in a directory goes by the names of its id, but its files are those of the id as it was
given. Most spellings of an id make no difference: with blanks around it, extensions behind it and
pieces that do not count in its middle it leads to the same files (`read_extended`). But when the
last piece does not count, the extension makes a name of it, and what is left behind the names is
the `ending` of the id. The files are others than those of the script's name then
(`placeOf_ending_iff`), and two scripts can go by one name (`same_name_apart`). Main statement:
`resolved_exact`.
-/

namespace DebugAdapter.Script

variable {cs : List Char} {root id ext path : String} {names front : List String} {last : String}
  {tree : FileTree}

/-- What is behind the names of an id, when its last piece does not count. -/
def ending (id : String) : String :=
  let last := (Text.splitOn '/' (String.ofList (stem id))).getLast?
  if last = some "" then "/" else if last = some "." then "/." else ""

/-! ## The pieces that count, and the last one -/

theorem ending_eq (hpieces : Text.splitOn '/' (String.ofList (stem id)) = front ++ [last]) :
    ending id = if counts last then "" else "/" ++ last := by
  simp only [ending, hpieces, List.getLast?_concat, Option.some.injEq]
  by_cases hempty : last = ""
  · subst hempty
    rfl
  · by_cases hdot : last = "."
    · subst hdot
      rfl
    · simp [counts, hempty, hdot]

/-- The names of an id and its ending are its last piece, and before it the pieces that count. -/
theorem names_append_ending
    (hpieces : Text.splitOn '/' (String.ofList (stem id)) = front ++ [last])
    (hhead : ∀ first ∈ (front ++ [last]).head?, first ≠ "" ∧ first ≠ ".") :
    ("/".intercalate ((front ++ [last]).filter counts) ++ ending id).toList =
      ['/'].intercalate ((front.filter counts ++ [last]).map String.toList) := by
  have hslash : "/".toList = ['/'] := rfl
  rw [ending_eq hpieces, List.filter_append, List.filter_singleton, String.toList_append,
    String.toList_intercalate, hslash]
  cases hcounts : counts last with
  | true => simp
  | false =>
    have hfront : (front.filter counts).map String.toList ≠ [] := by
      cases front with
      | nil => simp [counts, hhead last rfl] at hcounts
      | cons first front => simp [counts, hhead first rfl]
    rw [cond_false, List.append_nil, if_neg (by simp), List.map_append, List.map_singleton,
      Text.intercalate_concat_of_ne_nil hfront]
    simp

/-- A path whose first piece counts is not absolute, also with an extension behind it. -/
theorem head?_append_ne_slash (hpieces : Text.splitOn '/' (String.ofList cs) = front ++ [last])
    (hhead : ∀ first ∈ (front ++ [last]).head?, first ≠ "" ∧ first ≠ ".") (hext : IsExtension ext) :
    (cs ++ ext.toList).head? ≠ some '/' := by
  have hextended := splitOn_append_extension hpieces hext
  have hfirst : (front ++ [last ++ ext]).head? ≠ some "" := by
    cases front with
    | nil =>
      have hlast := Text.not_mem_of_splitOn hpieces List.mem_concat_self
      simpa using (hext.isEntryName hlast).1
    | cons first front => simpa using (hhead first rfl).1
  cases hcs : cs ++ ext.toList with
  | nil => simp
  | cons c rest =>
    intro hc
    obtain rfl := Option.some.inj hc
    rw [hcs, Text.splitOn_ofList, Text.splitChars, if_pos rfl] at hextended
    exact hfirst (by rw [← hextended]; rfl)

/-- Leaving out pieces that do not count leaves the first one. -/
theorem head?_filter_counts (hhead : ∀ first ∈ (front ++ [last]).head?, first ≠ "" ∧ first ≠ ".") :
    ∀ first ∈ (front.filter counts ++ [last]).head?, first ≠ "" ∧ first ≠ "." := by
  cases front with
  | nil => exact hhead
  | cons first front => simp [counts, hhead first rfl]

/-- Leaving out pieces that do not count leaves out characters. -/
theorem intercalate_filter_counts_sublist
    (hpieces : Text.splitOn '/' (String.ofList cs) = front ++ [last]) :
    (['/'].intercalate ((front.filter counts ++ [last]).map String.toList)).Sublist cs := by
  have hchars : Text.splitChars '/' cs = front.map String.toList ++ [last.toList] := by
    simpa using Text.splitChars_of_splitOn hpieces
  have hcs : cs = ['/'].intercalate (front.map String.toList ++ [last.toList]) := by
    rw [← hchars, Text.intercalate_splitChars]
  have hfilter : (front.filter counts).map String.toList =
      (front.map String.toList).filter (fun l => counts (String.ofList l)) := by
    simp [List.filter_map, Function.comp_def]
  rw [hcs, List.map_append, List.map_singleton, hfilter]
  exact Text.intercalate_filter_sublist _ _ _

/-! ## Files -/

/-- The file of a name under a root. -/
def namedFile (root name ext : String) : String :=
  joinRoot root name.toList ++ ext

theorem exists_joinRoot (root : String) : ∃ above : List Char,
    ∀ cs, joinRoot root cs = String.ofList (above ++ cs) :=
  ⟨(joinRoot root []).toList, fun cs => by simp [joinRoot, String.append_assoc]⟩

/-- The files of an id are those of its names and its ending, if their paths can be followed. -/
theorem read_extended (h : idParts? (stem id) = some names) (hext : IsExtension ext)
    (hnul : tree.read (joinRoot root (stem id) ++ ext) ≠ .error .nulInName)
    (hlong : tree.read (joinRoot root (stem id) ++ ext) ≠ .error .nameTooLong) :
    tree.read (namedFile root ("/".intercalate names ++ ending id) ext) =
      tree.read (joinRoot root (stem id) ++ ext) := by
  obtain ⟨front, last, hpieces, rfl, -, hhead⟩ := exists_pieces h
  rw [namedFile, names_append_ending hpieces hhead]
  have hsub := intercalate_filter_counts_sublist hpieces
  -- Both paths are cut in the same way, but the shorter one has no more than the pieces that count.
  have hkept : ∀ n ∈ front.filter counts ++ [last], '/' ∉ n.toList :=
    fun n hn => Text.not_mem_of_splitOn hpieces (by grind)
  have hkeptPieces := Text.splitOn_intercalate (by simp) hkept
  generalize ['/'].intercalate ((front.filter counts ++ [last]).map String.toList) = kept at *
  have hwalk (tree : FileTree) :
      tree.walk [] (Text.splitOn '/' (joinRoot root (kept ++ ext.toList))) =
        tree.walk [] (Text.splitOn '/' (joinRoot root (stem id ++ ext.toList))) := by
    obtain ⟨rootFront, hjoin, -⟩ := exists_front root
    rw [hjoin, hjoin, splitOn_append_extension hpieces hext,
      splitOn_append_extension hkeptPieces hext, FileTree.walk_filter_behind]
  have hne : kept ++ ext.toList ≠ [] := by
    have hlength := hext.spec.2
    intro hnil
    simp [(List.append_eq_nil_iff.1 hnil).2] at hlength
  obtain ⟨above, habove⟩ := exists_joinRoot root
  rw [joinRoot_append, habove] at hnul hlong ⊢
  rw [joinRoot_append, habove]
  simp only [habove] at hwalk
  refine FileTree.read_congr ((List.Sublist.refl above).append (hsub.append (.refl _)))
    (by simp [hne]) ?_ hwalk hnul hlong
  cases above with
  | cons c above => simp
  | nil =>
    exact iff_of_false (head?_append_ne_slash hkeptPieces (head?_filter_counts hhead) hext)
      (head?_append_ne_slash hpieces hhead hext)

/-! ## Scripts that are found -/

theorem textIfThere_eq_some_iff {content : Except FileFault Bytes} {text : String} :
    textIfThere path content = .ok (some text) ↔ textOf content = .ok text := by
  unfold textIfThere
  split
  next found hfound => simp [hfound]
  next hfault => simp [hfault]
  next fault _ hfault => simp [hfault]

/-- A file that could not be read, but for that it is not there, leaves no request defaults. -/
theorem defaultsIfThere_error {fault : FileFault} (h : fault ≠ .notFound) :
    defaultsIfThere path (.error fault) = .error (.unreadable path fault) := by
  have htext : textIfThere path (.error fault) = .error (.unreadable path fault) := by
    unfold textIfThere
    cases fault <;> first | rfl | exact absurd rfl h
  rw [defaultsIfThere, htext]
  rfl

/-- Where request defaults are read from matters for errors only. -/
theorem defaultsIfThere_path {content : Except FileFault Bytes} {request : RequestDefaults}
    (h : defaultsIfThere path content = .ok request) (path' : String) :
    defaultsIfThere path' content = .ok request := by
  revert h
  unfold defaultsIfThere textIfThere
  cases textOf content with
  | error fault => cases fault <;> first | exact id | exact fun h => nomatch h
  | ok text =>
    show (RequestDefaults.ofText text).mapError _ = _ → (RequestDefaults.ofText text).mapError _ = _
    cases RequestDefaults.ofText text with
    | error message => exact fun h => nomatch h
    | ok request => exact id

/-- What a library answers when it has the script. -/
theorem resolveIn_eq_some {view : FileView} {script : StoredScript}
    (h : resolveIn view root id = .ok (some script)) : ∃ names,
      idParts? (stem id) = some names ∧ script.name = "/".intercalate names ∧
      view.readText (joinRoot root (stem id) ++ scriptExtension) = .ok script.text ∧
      defaultsIfThere (joinRoot root (stem id) ++ defaultsExtension)
        (view (joinRoot root (stem id) ++ defaultsExtension)) = .ok script.request := by
  cases hparts : idParts? (stem id) with
  | none =>
    rw [resolveIn, resolveWith, locate_of_none hparts] at h
    cases h
  | some names =>
    refine ⟨names, rfl, ?_⟩
    simp only [resolveIn, resolveWith, locate_of_some hparts, pure_bind] at h
    split at h
    · cases h
    · cases h
    next text htext =>
      have hread := textIfThere_eq_some_iff.1 htext
      generalize defaultsIfThere _ _ = defaults at h ⊢
      cases defaults with
      | error e => cases h
      | ok request =>
        obtain rfl := Option.some.inj (Except.ok.inj h)
        exact ⟨rfl, hread, rfl⟩

/-! ## Where the files are -/

theorem placeOf_namedFile {name : String} (hpieces : Text.splitOn '/' name = front ++ [last])
    (hparent : ".." ∉ front ++ [last])
    (hhead : ∀ first ∈ (front ++ [last]).head?, first ≠ "" ∧ first ≠ ".")
    (hext : IsExtension ext) (root : String) :
    placeOf (namedFile root name ext) = placeOf root ++ (front.filter counts ++ [last ++ ext]) := by
  rw [← String.ofList_toList (s := name)] at hpieces
  exact Component.placeOf_eq (components_joinRoot hpieces hparent hhead hext root)

/-- Behind a slash the file of names stands a level deeper. -/
theorem placeOf_behind_slash (hne : names ≠ []) (hcounts : ∀ n ∈ names, counts n = true)
    (hfree : ∀ n ∈ names ++ [last], '/' ∉ n.toList) (hparent : ".." ∉ names ++ [last])
    (hext : IsExtension ext) (root : String) :
    placeOf (namedFile root ("/".intercalate names ++ "/" ++ last) ext) ≠
      placeOf (namedFile root ("/".intercalate names) ext) := by
  have hnames : Text.splitOn '/' ("/".intercalate names) = names := by
    have htext : "/".intercalate names =
        String.ofList (['/'].intercalate (names.map String.toList)) := by
      simp [← String.toList_inj]
    rw [htext, Text.splitOn_intercalate hne fun n hn => hfree n (List.mem_append_left _ hn)]
  have hlast : Text.splitOn '/' last = [last] := by
    rw [Text.splitOn, Text.splitChars_of_not_mem (hfree last (by simp))]
    simp
  have hbehind := (splitOn_append_slash ("/".intercalate names) last).trans
    (congrArg₂ _ hnames hlast)
  have hhead : ∀ first ∈ names.head?, first ≠ "" ∧ first ≠ "." := by
    intro first hfirst
    simpa [counts] using hcounts first (List.mem_of_mem_head? hfirst)
  obtain ⟨above, final, rfl⟩ : ∃ above final, names = above ++ [final] :=
    ⟨_, _, (List.dropLast_append_getLast hne).symm⟩
  rw [placeOf_namedFile hbehind hparent (by simpa using hhead) hext,
    placeOf_namedFile hnames (fun hmem => hparent (List.mem_append_left _ hmem)) hhead hext,
    List.filter_eq_self.2 hcounts, List.filter_eq_self.2 fun n hn => hcounts n (by simp [hn])]
  intro heq
  simpa using congrArg List.length heq

/-- The file of the names and the one with the ending stand in one place just when the ending is
empty. -/
theorem placeOf_ending_iff (h : idParts? (stem id) = some names) (hext : IsExtension ext)
    (root : String) :
    placeOf (namedFile root ("/".intercalate names ++ ending id) ext) =
        placeOf (namedFile root ("/".intercalate names) ext) ↔ ending id = "" := by
  obtain ⟨front, last, hpieces, hnames, hparent, hhead⟩ := exists_pieces h
  cases hcounts : counts last with
  | true =>
    have hending : ending id = "" := by rw [ending_eq hpieces, if_pos hcounts]
    exact iff_of_true (by rw [hending, String.append_empty]) hending
  | false =>
    have hending : ending id = "/" ++ last := by simp [ending_eq hpieces, hcounts]
    obtain rfl : names = front.filter counts := by simp [hnames, hcounts]
    refine iff_of_false ?_ (by simp [hending])
    rw [hending, ← String.append_assoc]
    exact placeOf_behind_slash (idParts?_eq_some_iff.1 h).1 (by grind)
      (fun n hn => Text.not_mem_of_splitOn hpieces (by grind)) (by grind) hext root

/-- A script that is found stands in the files of its name and the ending of its id. -/
theorem read_of_resolved {script : StoredScript}
    (h : resolveIn tree.read root id = .ok (some script)) :
    FileView.readText tree.read (namedFile root (script.name ++ ending id) scriptExtension) =
      .ok script.text ∧
    defaultsIfThere (namedFile root (script.name ++ ending id) defaultsExtension)
      (tree.read (namedFile root (script.name ++ ending id) defaultsExtension)) =
      .ok script.request := by
  obtain ⟨names, hparts, hname, htext, hrequest⟩ := resolveIn_eq_some h
  rw [hname]
  constructor
  · rw [FileView.readText] at htext ⊢
    rw [read_extended hparts (.inl rfl) ?_ ?_]
    · exact htext
    all_goals
      intro hfault
      rw [hfault] at htext
      cases htext
  · rw [read_extended hparts (.inr rfl) ?_ ?_]
    · exact defaultsIfThere_path hrequest _
    all_goals
      intro hfault
      rw [hfault, defaultsIfThere_error (by decide)] at hrequest
      cases hrequest

/-- The text of a script that is found is that of the file of its name and the ending of its id, and
so are the request defaults. This is the file of the name itself just when the ending is empty; and
scripts with one name whose ids have the same ending are the same. -/
theorem resolved_exact {script : StoredScript}
    (h : resolveIn tree.read root id = .ok (some script)) :
    FileView.readText tree.read (namedFile root (script.name ++ ending id) scriptExtension) =
      .ok script.text ∧
    defaultsIfThere (namedFile root (script.name ++ ending id) defaultsExtension)
      (tree.read (namedFile root (script.name ++ ending id) defaultsExtension)) =
      .ok script.request ∧
    (∀ ext, IsExtension ext → (placeOf (namedFile root (script.name ++ ending id) ext) =
      placeOf (namedFile root script.name ext) ↔ ending id = "")) ∧
    ∀ id' script', resolveIn tree.read root id' = .ok (some script') →
      script'.name = script.name → ending id' = ending id → script' = script := by
  obtain ⟨htext, hrequest⟩ := read_of_resolved h
  obtain ⟨names, hparts, hname, -, -⟩ := resolveIn_eq_some h
  refine ⟨htext, hrequest, fun ext hext => ?_, fun id' script' h' hsame hending => ?_⟩
  · rw [hname]
    exact placeOf_ending_iff hparts hext root
  · obtain ⟨htext', hrequest'⟩ := read_of_resolved h'
    rw [hsame, hending] at htext' hrequest'
    have htexts := Except.ok.inj (htext'.symm.trans htext)
    have hrequests := Except.ok.inj (hrequest'.symm.trans hrequest)
    cases script
    cases script'
    simp only at hsame htexts hrequests
    rw [hsame, htexts, hrequests]

/-- A script, and one without a name in a directory of the same name. -/
def nameless : FileTree :=
  .ofList [("scripts/a.ms", some (Utf8.ofString "return 1")),
    ("scripts/a/.ms", some (Utf8.ofString "return 2"))]

/-- The name and the text of the script with an id. -/
def found (tree : FileTree) (root id : String) : Except ResolveError (Option (String × String)) :=
  (resolveIn tree.read root id).map (·.map fun script => (script.name, script.text))

theorem exists_of_found {name text : String} (h : found tree root id = .ok (some (name, text))) :
    ∃ script, resolveIn tree.read root id = .ok (some script) ∧ script.name = name ∧
      script.text = text := by
  unfold found at h
  match hresolve : resolveIn tree.read root id with
  | .error e => rw [hresolve] at h; cases h
  | .ok none => rw [hresolve] at h; cases h
  | .ok (some script) =>
    rw [hresolve] at h
    obtain ⟨hname, htext⟩ := Prod.mk.inj (Option.some.inj (Except.ok.inj h))
    exact ⟨script, rfl, hname, htext⟩

theorem resolved_exact_nameless : ∃ script,
    resolveIn nameless.read "scripts" "a/" = .ok (some script) ∧
    resolveIn nameless.read "scripts" " a//.ms " = .ok (some script) ∧
    FileView.readText nameless.read (namedFile "scripts" "a/" scriptExtension) = .ok script.text ∧
    placeOf (namedFile "scripts" "a/" scriptExtension) ≠
      placeOf (namedFile "scripts" "a" scriptExtension) := by
  obtain ⟨script, hscript, hname, -⟩ := exists_of_found
    (by decide +kernel : found nameless "scripts" "a/" = .ok (some ("a", "return 2")))
  obtain ⟨script', hscript', hname', -⟩ := exists_of_found
    (by decide +kernel : found nameless "scripts" " a//.ms " = .ok (some ("a", "return 2")))
  have hending : ending "a/" = "/" := by decide +kernel
  have hending' : ending " a//.ms " = "/" := by decide +kernel
  obtain ⟨htext, -, hplace, hsame⟩ := resolved_exact hscript
  rw [hending, hname] at htext
  obtain rfl := hsame _ script' hscript' (hname'.trans hname.symm) (hending'.trans hending.symm)
  have happart := mt (hplace scriptExtension (.inl rfl)).1 (by simp [hending])
  rw [hending, hname'] at happart
  exact ⟨script', hscript, hscript', htext, happart⟩

/-- A slash behind an id leads to another script, which goes by the same name. -/
theorem same_name_apart :
    found nameless "scripts" "a" = .ok (some ("a", "return 1")) ∧
    found nameless "scripts" "a/" = .ok (some ("a", "return 2")) ∧
    FileView.readText nameless.read (namedFile "scripts" "a" scriptExtension) = .ok "return 1" := by
  decide +kernel

end DebugAdapter.Script
