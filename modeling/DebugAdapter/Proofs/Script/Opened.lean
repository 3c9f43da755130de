import DebugAdapter.Proofs.Files.Components
import DebugAdapter.Script.Library
/-!
# The files that are opened for an id

A script is looked for under a root by a program that reads files (`resolveWith`). Run with a reader
that notes the paths (`noting`), it gives the same answer and tells what it opened (`opened`):
nothing where the id is refused, and else the script's file, and behind it the one of the request
defaults.

An id is accepted when its `stem`, the id without blanks around it and without extensions, has names
for components and nothing else (`idParts?_eq_some_iff`). With an extension behind it the stem still
leads down from the root by names (`components_joinRoot`). Main statement: `opens_under_root`.
-/

namespace DebugAdapter.Script

open Component

variable {cs : List Char} {root id ext path : String} {names : List String} {place : Location}

/-! ## Notes of what is opened -/

/-- Reads a file, and puts its path behind those opened before. -/
def noting (view : FileView) (path : String) : StateM (List String) (Except FileFault Bytes) := do
  modify (· ++ [path])
  return view path

/-- The script with an id under a root, and the paths that are opened for it, in order. -/
def resolveNoting (view : FileView) (root id : String) : Resolution × List String :=
  (resolveWith (noting view) root id).run []

/-- The paths that are opened for an id, in order. -/
def opened (view : FileView) (root id : String) : List String :=
  (resolveNoting view root id).2

theorem resolveNoting_of_error {e : ResolveError} (h : locate root id = .error e)
    (view : FileView) : resolveNoting view root id = (.error e, []) := by
  rw [resolveNoting, resolveWith, h]
  rfl

theorem textIfThere_ne_invalidId (path : String) (content : Except FileFault Bytes) (i : String) :
    textIfThere path content ≠ .error (.invalidId i) := by
  unfold textIfThere
  split <;> simp

theorem defaultsIfThere_ne_invalidId (path : String) (content : Except FileFault Bytes)
    (i : String) : defaultsIfThere path content ≠ .error (.invalidId i) := by
  have htext := textIfThere_ne_invalidId path content i
  rw [defaultsIfThere]
  cases hcontent : textIfThere path content with
  | error e =>
    intro heq
    exact htext (hcontent.trans (congrArg Except.error (Except.error.inj heq)))
  | ok text? =>
    cases text? with
    | none => exact fun heq => by cases heq
    | some text =>
      show (RequestDefaults.ofText text).mapError _ ≠ _
      cases RequestDefaults.ofText text <;> simp [Except.mapError]

/-- The file of the script is opened first, and behind it at most that of the request defaults; then
the id is not refused. -/
theorem resolveNoting_of_ok (h : locate root id = .ok place) (view : FileView) :
    (resolveNoting view root id).1 = resolveIn view root id ∧
    (opened view root id = [place.script] ∨ opened view root id = [place.script, place.defaults]) ∧
    ∀ i, resolveIn view root id ≠ .error (.invalidId i) := by
  simp only [opened, resolveNoting, resolveIn, resolveWith, h, noting, bind_assoc, pure_bind,
    StateT.run_bind, StateT.run_modify, List.nil_append]
  cases htext : textIfThere place.script (view place.script) with
  | error e =>
    refine ⟨rfl, .inl rfl, fun i heq => ?_⟩
    exact textIfThere_ne_invalidId _ _ i
      (htext.trans (congrArg Except.error (Except.error.inj heq)))
  | ok text? =>
    cases text? with
    | none => exact ⟨rfl, .inl rfl, fun i heq => by cases heq⟩
    | some text =>
      refine ⟨rfl, .inr rfl, fun i heq => ?_⟩
      cases hdefaults : defaultsIfThere place.defaults (view place.defaults) with
      | error e =>
        rw [hdefaults] at heq
        exact defaultsIfThere_ne_invalidId _ _ i
          (hdefaults.trans (congrArg Except.error (Except.error.inj heq)))
      | ok request =>
        rw [hdefaults] at heq
        cases heq

/-! ## Ids that are accepted -/

/-- The characters of an id without blanks around them and without extensions. -/
def stem (id : String) : List Char :=
  dropExtensions (Text.trimChars id.toList)

/-- The parts of an id are the components of a path that consists of names only. -/
theorem idParts?_eq_some_iff : idParts? cs = some names ↔
    names ≠ [] ∧ components (String.ofList cs) = names.map .name := by
  obtain ⟨first, rest, hpieces⟩ : ∃ first rest,
      (Text.splitChars '/' cs).map String.ofList = first :: rest := by
    obtain ⟨l, ls, hcs⟩ := Text.exists_splitChars '/' cs
    exact ⟨_, _, by rw [hcs]; rfl⟩
  have hall : (first = "" ∨ first = "." ∨ (first :: rest).contains "..") ↔
      ¬(first ≠ "" ∧ first ≠ "." ∧ ".." ∉ first :: rest) := by
    rw [List.contains_iff_mem]
    tauto
  rw [idParts?, hpieces, components, Text.splitOn_ofList, hpieces]
  simp only [hall]
  constructor
  · intro h
    split at h
    · cases h
    next hordinary =>
      obtain ⟨hfirst, hdot, hparent⟩ := not_not.1 hordinary
      obtain rfl := Option.some.inj h
      exact ⟨by simp, ofPieces_of_ordinary hfirst hdot hparent⟩
  · rintro ⟨hne, heq⟩
    obtain ⟨hfirst, hdot, hparent⟩ := ordinary_of_ofPieces hne heq
    have hsame := heq.symm.trans (ofPieces_of_ordinary hfirst hdot hparent)
    have hinj : Function.Injective Component.name := fun s t hst => Component.name.inj hst
    rw [if_neg (not_not.2 ⟨hfirst, hdot, hparent⟩), List.map_injective_iff.2 hinj hsame]
    rfl

/-! ## Paths below a root -/

theorem splitOn_append_slash (a b : String) :
    Text.splitOn '/' (a ++ "/" ++ b) = Text.splitOn '/' a ++ Text.splitOn '/' b := by
  have hchars : (a ++ "/" ++ b).toList = a.toList ++ '/' :: b.toList := by simp
  rw [Text.splitOn, hchars, Text.splitChars_append_cons, List.map_append]
  rfl

/-- What a root puts in front of the pieces of a path below it. These lead to where the root does,
and what follows is not in front. -/
theorem exists_front (root : String) : ∃ front : List String,
    (∀ cs, Text.splitOn '/' (joinRoot root cs) = front ++ Text.splitOn '/' (String.ofList cs)) ∧
    ∀ first rest, first ≠ "" → first ≠ "." → ofPieces (front ++ first :: rest) =
      components root ++ (first :: rest).filterMap ofPiece? := by
  by_cases hempty : root = ""
  · subst hempty
    refine ⟨[], fun cs => ?_, fun first rest hfirst hdot => ?_⟩
    · simp [joinRoot]
    · have hlead : lead? (first :: rest) = none := by simp [lead?_cons, hfirst, hdot]
      rw [List.nil_append, ofPieces, hlead]
      rfl
  have hpieces (s : String) : Text.splitOn '/' s ≠ [] := by
    obtain ⟨l, ls, hs⟩ := Text.exists_splitChars '/' s.toList
    simp [Text.splitOn, hs]
  by_cases hslash : root.toList.getLast? = some '/'
  · obtain ⟨above, habove⟩ := List.getLast?_eq_some_iff.1 hslash
    obtain rfl : root = String.ofList above ++ "/" := by simp [← String.toList_inj, habove]
    refine ⟨Text.splitOn '/' (String.ofList above), fun cs => ?_, fun first rest _ _ => ?_⟩
    · rw [← splitOn_append_slash, joinRoot, if_pos (.inr hslash), String.append_empty]
    · have hroot : Text.splitOn '/' (String.ofList above ++ "/") =
          Text.splitOn '/' (String.ofList above) ++ [""] := by
        have hend := splitOn_append_slash (String.ofList above) ""
        rwa [String.append_empty] at hend
      rw [components, hroot, ofPieces, ofPieces, lead?_append_cons (hpieces _) first "" rest [],
        List.filterMap_append, List.filterMap_append, List.append_assoc, List.append_assoc]
      rfl
  · have hroot : Text.splitOn '/' root ≠ [""] := by
      intro hsplit
      have hchars : Text.splitChars '/' root.toList = [[]] := by
        rw [Text.splitOn] at hsplit
        obtain ⟨l, hl, hnil⟩ := List.map_eq_singleton_iff.1 hsplit
        rw [hl, String.ofList_eq_empty_iff.1 hnil]
      have htext := Text.intercalate_splitChars '/' root.toList
      rw [hchars] at htext
      exact hempty (by simp [← String.toList_inj, ← htext])
    refine ⟨Text.splitOn '/' root, fun cs => ?_, fun first rest _ _ => ?_⟩
    · rw [← splitOn_append_slash, joinRoot, if_neg (by simp [hempty, hslash])]
    · rw [components, ofPieces, ofPieces, lead?_append (hpieces root) hroot, List.filterMap_append,
        List.append_assoc]

/-- The pieces of an accepted id: the first one counts, and none leads up. -/
theorem exists_pieces (h : idParts? cs = some names) : ∃ front last,
    Text.splitOn '/' (String.ofList cs) = front ++ [last] ∧
    names = (front ++ [last]).filter counts ∧ ".." ∉ front ++ [last] ∧
    ∀ first ∈ (front ++ [last]).head?, first ≠ "" ∧ first ≠ "." := by
  rw [Text.splitOn_ofList]
  rw [idParts?] at h
  split at h
  · cases h
  next first rest hpieces =>
    split at h
    · cases h
    next hall =>
      obtain ⟨hfirst, hdot, hparent⟩ : first ≠ "" ∧ first ≠ "." ∧ ".." ∉ first :: rest := by
        simpa [not_or] using hall
      have hcounts : counts first = true := by simp [counts, hfirst, hdot]
      obtain ⟨front, last, hconcat⟩ : ∃ front last, first :: rest = front ++ [last] :=
        ⟨_, _, (List.dropLast_append_getLast (List.cons_ne_nil first rest)).symm⟩
      refine ⟨front, last, hpieces.trans hconcat, ?_, hconcat ▸ hparent, ?_⟩
      · rw [← hconcat, List.filter_cons, if_pos hcounts]
        exact (Option.some.inj h).symm
      · rw [← hconcat]
        simp [hfirst, hdot]

/-- The extensions of the files of a script. -/
def IsExtension (ext : String) : Prop :=
  ext = scriptExtension ∨ ext = defaultsExtension

theorem IsExtension.spec (h : IsExtension ext) : '/' ∉ ext.toList ∧ 3 ≤ ext.toList.length := by
  rcases h with rfl | rfl <;> decide

/-- What has an extension is the name of an entry. -/
theorem IsExtension.isEntryName (h : IsExtension ext) {s : String} (hs : '/' ∉ s.toList) :
    IsEntryName (s ++ ext) := by
  obtain ⟨hslash, hlength⟩ := h.spec
  have hne {t : String} (ht : t.toList.length < 3) : s ++ ext ≠ t := by
    rintro rfl
    simp at ht hlength
    omega
  exact ⟨hne (by decide), hne (by decide), hne (by decide), by simp [hs, hslash]⟩

/-- An extension belongs to the last piece. -/
theorem splitOn_append_extension {front : List String} {last : String}
    (h : Text.splitOn '/' (String.ofList cs) = front ++ [last]) (hext : IsExtension ext) :
    Text.splitOn '/' (String.ofList (cs ++ ext.toList)) = front ++ [last ++ ext] := by
  have hchars : Text.splitChars '/' cs = front.map String.toList ++ [last.toList] := by
    simpa using Text.splitChars_of_splitOn h
  rw [Text.splitOn_ofList, Text.splitChars_append hchars hext.spec.1]
  simp

theorem joinRoot_append (root : String) (cs : List Char) (ext : String) :
    joinRoot root cs ++ ext = joinRoot root (cs ++ ext.toList) := by
  simp [joinRoot, String.append_assoc]

/-- With an extension behind it, a path without two dots whose first piece counts leads down from
the root. -/
theorem components_joinRoot {front : List String} {last : String}
    (hpieces : Text.splitOn '/' (String.ofList cs) = front ++ [last])
    (hparent : ".." ∉ front ++ [last])
    (hhead : ∀ first ∈ (front ++ [last]).head?, first ≠ "" ∧ first ≠ ".")
    (hext : IsExtension ext) (root : String) :
    components (joinRoot root cs ++ ext) =
      components root ++ (front.filter counts ++ [last ++ ext]).map .name := by
  obtain ⟨rootFront, hjoin, hcomponents⟩ := exists_front root
  have hentry := hext.isEntryName (Text.not_mem_of_splitOn hpieces List.mem_concat_self)
  obtain ⟨first, rest, hfirst, hne, hdot⟩ :
      ∃ first rest, front ++ [last ++ ext] = first :: rest ∧ first ≠ "" ∧ first ≠ "." := by
    cases front with
    | nil => exact ⟨_, _, rfl, hentry.1, hentry.2.1⟩
    | cons first front => exact ⟨_, _, rfl, hhead first rfl⟩
  have hup : ".." ∉ front ++ [last ++ ext] := by
    intro hmem
    rcases List.mem_append.1 hmem with hmem | hmem
    · exact hparent (List.mem_append_left _ hmem)
    · exact hentry.2.2.1 (List.mem_singleton.1 hmem).symm
  rw [joinRoot_append, components, hjoin, splitOn_append_extension hpieces hext, hfirst,
    hcomponents first rest hne hdot, ← hfirst, filterMap_ofPiece? hup, List.filter_append,
    List.filter_singleton, hentry.counts, cond_true]

/-- With an extension behind it, an accepted id leads down from the root by names. -/
theorem exists_components_joinRoot (h : idParts? cs = some names) (hext : IsExtension ext)
    (root : String) : ∃ above last,
      components (joinRoot root cs ++ ext) =
        components root ++ (above ++ [last ++ ext]).map .name ∧
      ∀ n ∈ above ++ [last ++ ext], IsEntryName n := by
  obtain ⟨front, last, hpieces, -, hparent, hhead⟩ := exists_pieces h
  refine ⟨front.filter counts, last, components_joinRoot hpieces hparent hhead hext root,
    fun n hn => ?_⟩
  rcases List.mem_append.1 hn with hn | hn
  · obtain ⟨hmem, hcounts⟩ := List.mem_filter.1 hn
    obtain ⟨hempty, hdot⟩ : n ≠ "" ∧ n ≠ "." := by simpa [counts] using hcounts
    have hmem := List.mem_append_left [last] hmem
    exact ⟨hempty, hdot, fun hup => hparent (hup ▸ hmem), Text.not_mem_of_splitOn hpieces hmem⟩
  · rw [List.mem_singleton.1 hn]
    exact hext.isEntryName (Text.not_mem_of_splitOn hpieces List.mem_concat_self)

theorem locate_of_none (h : idParts? (stem id) = none) (root : String) :
    locate root id = .error (.invalidId id) := by
  rw [stem] at h
  simp only [locate, h]

theorem locate_of_some (h : idParts? (stem id) = some names) (root : String) :
    locate root id = .ok ⟨"/".intercalate names, joinRoot root (stem id) ++ scriptExtension,
      joinRoot root (stem id) ++ defaultsExtension⟩ := by
  rw [stem] at h ⊢
  simp only [locate, h]

/-- The files of an accepted id are under the root. -/
theorem exists_of_mem_filesOf (h : idParts? (stem id) = some names)
    (hpath : path ∈ filesOf root id) :
    ∃ above last ext, components path = components root ++ (above ++ [last ++ ext]).map .name ∧
      (∀ n ∈ above ++ [last ++ ext], IsEntryName n) ∧ IsExtension ext ∧
      ∀ (tree : FileTree) content, tree.read path = .ok content →
        tree.node? (placeOf root ++ (above ++ [last ++ ext])) = some (.file content) := by
  obtain ⟨ext, hext, rfl⟩ : ∃ ext, IsExtension ext ∧ path = joinRoot root (stem id) ++ ext := by
    rw [filesOf, locate_of_some h] at hpath
    rcases List.mem_pair.1 hpath with hpath | hpath
    · exact ⟨_, .inl rfl, hpath⟩
    · exact ⟨_, .inr rfl, hpath⟩
  obtain ⟨above, last, hcomponents, hentries⟩ := exists_components_joinRoot h hext root
  refine ⟨above, last, ext, hcomponents, hentries, hext, fun tree content hread => ?_⟩
  rw [← placeOf_eq hcomponents]
  exact FileTree.node?_of_read hread

/-- To find the script with an id, either the id is refused and nothing is opened, or only files of
the id are opened, the first one at least. Their paths have the components of the root and behind
them one or more names, the last one with an extension of scripts or of request defaults; so in any
tree they lead to files under the root. An id is refused just when its stem is no path of one or
more names. -/
theorem opens_under_root (view : FileView) (root id : String) :
    (resolveNoting view root id).1 = resolveIn view root id ∧
    (opened view root id = [] ↔ resolveIn view root id = .error (.invalidId id)) ∧
    (resolveIn view root id = .error (.invalidId id) ↔
      ¬∃ names, names ≠ [] ∧ components (String.ofList (stem id)) = names.map .name) ∧
    opened view root id <+: filesOf root id ∧
    ∀ path ∈ filesOf root id, ∃ above last ext,
      components path = components root ++ (above ++ [last ++ ext]).map .name ∧
      (∀ n ∈ above ++ [last ++ ext], IsEntryName n) ∧ IsExtension ext ∧
      ∀ (tree : FileTree) content, tree.read path = .ok content →
        tree.node? (placeOf root ++ (above ++ [last ++ ext])) = some (.file content) := by
  simp only [← idParts?_eq_some_iff]
  cases hparts : idParts? (stem id) with
  | none =>
    have hlocate := locate_of_none hparts root
    have hnoted := resolveNoting_of_error hlocate view
    have hresolve : resolveIn view root id = .error (.invalidId id) := by
      rw [resolveIn, resolveWith, hlocate]
      rfl
    simp [opened, hnoted, hresolve, filesOf, hlocate]
  | some names =>
    have hlocate := locate_of_some hparts root
    obtain ⟨hsame, hopened, hvalid⟩ := resolveNoting_of_ok hlocate view
    refine ⟨hsame, ?_, by simp [hvalid id], ?_,
      fun path hpath => exists_of_mem_filesOf hparts hpath⟩
    · rcases hopened with hopened | hopened <;> simp [hopened, hvalid id]
    · rcases hopened with hopened | hopened <;> simp [hopened, filesOf, hlocate]

/-- A file without a name in front of its extension. -/
def onlyExtension : FileTree :=
  .ofList [("scripts/a/.ms", some (Utf8.ofString "return 1"))]

theorem opens_under_root_onlyExtension :
    "scripts/a/./.ms" ∈ filesOf "scripts" " a/./.ms.ms " ∧
    onlyExtension.read "scripts/a/./.ms" = .ok (Utf8.ofString "return 1") ∧
    ∃ above last ext,
      components "scripts/a/./.ms" = components "scripts" ++ (above ++ [last ++ ext]).map .name ∧
      (∀ n ∈ above ++ [last ++ ext], IsEntryName n) ∧ IsExtension ext ∧
      onlyExtension.node? (placeOf "scripts" ++ (above ++ [last ++ ext])) =
        some (.file (Utf8.ofString "return 1")) := by
  have hfiles : "scripts/a/./.ms" ∈ filesOf "scripts" " a/./.ms.ms " := by decide +kernel
  have hread : onlyExtension.read "scripts/a/./.ms" = .ok (Utf8.ofString "return 1") := by
    decide +kernel
  obtain ⟨-, -, -, -, hunder⟩ := opens_under_root onlyExtension.read "scripts" " a/./.ms.ms "
  obtain ⟨above, last, ext, hcomponents, hentries, hext, hnode⟩ := hunder _ hfiles
  exact ⟨hfiles, hread, above, last, ext, hcomponents, hentries, hext,
    hnode onlyExtension _ hread⟩

end DebugAdapter.Script
