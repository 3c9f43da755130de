import DebugAdapter.Files.Tree
import DebugAdapter.Proofs.Text.Split
/-!
# The components of a path

A path is cut at its slashes. Of the pieces, empty ones and single dots count for nothing, but that
an empty one in front is the root and a dot in front the current directory; the others are the
`components` of the path. Without links they lead to one place of a tree, `placeOf`, and a file that
is read is the one in that place (`FileTree.node?_of_read`). Leaving out what counts for nothing
leads to the same file (`FileTree.walk_filter`, `FileTree.read_congr`).
-/

namespace DebugAdapter

/-! ## Paths -/

/-- A component of a path. -/
inductive Component where
  /-- The root, in front of a path. -/
  | root
  /-- The current directory, in front of a path. -/
  | here
  /-- The directory above. -/
  | parent
  /-- An entry of a directory. -/
  | name (s : String)
  deriving DecidableEq, Repr

namespace Component

/-- The component that stands in front of the others only. -/
def lead? : (pieces : List String) → Option Component
  | [] => none
  | first :: rest =>
    if first = "" ∧ rest ≠ [] then some .root
    else if first = "." then some .here
    else none

/-- The component that a piece of a path is wherever it stands. -/
def ofPiece? (piece : String) : Option Component :=
  if piece = "" ∨ piece = "." then none
  else if piece = ".." then some .parent
  else some (.name piece)

/-- The components of a path with these pieces. -/
def ofPieces (pieces : List String) : List Component :=
  (lead? pieces).toList ++ pieces.filterMap ofPiece?

/-- Where a component leads to. -/
def enter (place : List String) : Component → List String
  | root => []
  | here => place
  | parent => place.dropLast
  | name s => place ++ [s]

end Component

/-- The components of a path. -/
def components (path : String) : List Component :=
  Component.ofPieces (Text.splitOn '/' path)

/-- The place in a tree that a path leads to, from the top of the tree. -/
def placeOf (path : String) : List String :=
  (components path).foldl Component.enter []

/-- Whether a text can be the name of an entry of a directory. -/
def IsEntryName (s : String) : Prop :=
  s ≠ "" ∧ s ≠ "." ∧ s ≠ ".." ∧ '/' ∉ s.toList

instance (s : String) : Decidable (IsEntryName s) :=
  inferInstanceAs (Decidable (_ ∧ _))

/-- Whether a piece of a path counts wherever it stands. -/
def counts (piece : String) : Bool :=
  piece ≠ "" ∧ piece ≠ "."

theorem IsEntryName.counts {s : String} (h : IsEntryName s) : counts s = true := by
  simp [DebugAdapter.counts, h.1, h.2.1]

namespace Component

variable {pieces names : List String}

theorem lead?_cons (first : String) (rest : List String) :
    lead? (first :: rest) =
      if first = "" ∧ rest ≠ [] then some .root else if first = "." then some .here else none := rfl

theorem lead?_ne_name (pieces : List String) (s : String) : lead? pieces ≠ some (.name s) := by
  cases pieces with
  | nil =>
    intro h
    cases h
  | cons first rest =>
    rw [lead?_cons]
    repeat' split
    all_goals simp

/-- Which pieces follow another one makes no difference for the component in front. -/
theorem lead?_append_cons (h : pieces ≠ []) (piece piece' : String) (more more' : List String) :
    lead? (pieces ++ piece :: more) = lead? (pieces ++ piece' :: more') := by
  obtain ⟨first, rest, rfl⟩ := List.exists_cons_of_ne_nil h
  simp [lead?_cons]

/-- What follows makes no difference for the component in front, unless nothing comes before. -/
theorem lead?_append (h : pieces ≠ []) (hempty : pieces ≠ [""]) (more : List String) :
    lead? (pieces ++ more) = lead? pieces := by
  obtain ⟨first, rest, rfl⟩ := List.exists_cons_of_ne_nil h
  rw [List.cons_append, lead?_cons, lead?_cons]
  by_cases hfirst : first = ""
  · have hrest : rest ≠ [] := fun hrest => hempty (by rw [hfirst, hrest])
    simp [hfirst, hrest]
  · simp [hfirst]

theorem ofPiece?_eq_none_iff {piece : String} : ofPiece? piece = none ↔ counts piece = false := by
  unfold ofPiece? counts
  split
  next h => simp; tauto
  next h => split <;> simp <;> tauto

/-- Pieces without two dots are names, as far as they count. -/
theorem filterMap_ofPiece? (h : ".." ∉ pieces) :
    pieces.filterMap ofPiece? = (pieces.filter counts).map .name := by
  induction pieces with
  | nil => rfl
  | cons piece pieces ih =>
    obtain ⟨hpiece, hpieces⟩ := not_or.1 (mt List.mem_cons.2 h)
    rw [List.filterMap_cons, List.filter_cons, ih hpieces]
    cases hcounts : counts piece with
    | false => simp [ofPiece?_eq_none_iff.2 hcounts]
    | true =>
      have hsome : ofPiece? piece = some (.name piece) := by
        simp only [counts, decide_eq_true_eq] at hcounts
        rw [ofPiece?, if_neg (by tauto), if_neg (Ne.symm hpiece)]
      simp [hsome]

/-- Without two dots, and when its first piece counts, a path consists of names. -/
theorem ofPieces_of_ordinary {first : String} {rest : List String} (hfirst : first ≠ "")
    (hdot : first ≠ ".") (hparent : ".." ∉ first :: rest) :
    ofPieces (first :: rest) = (first :: rest.filter counts).map .name := by
  have hlead : lead? (first :: rest) = none := by simp [lead?_cons, hfirst, hdot]
  have hcounts : counts first = true := by simp [counts, hfirst, hdot]
  rw [ofPieces, hlead, filterMap_ofPiece? hparent, List.filter_cons, if_pos hcounts]
  rfl

/-- Other paths do not consist of names only. -/
theorem ordinary_of_ofPieces {first : String} {rest : List String} (hne : names ≠ [])
    (h : ofPieces (first :: rest) = names.map .name) :
    first ≠ "" ∧ first ≠ "." ∧ ".." ∉ first :: rest := by
  have hname : ∀ c ∈ ofPieces (first :: rest), ∃ s, c = .name s := by
    intro c hc
    obtain ⟨s, -, rfl⟩ := List.mem_map.1 (h ▸ hc)
    exact ⟨s, rfl⟩
  have hlead : lead? (first :: rest) = none := by
    refine Option.eq_none_iff_forall_not_mem.2 fun c hc => ?_
    obtain ⟨s, rfl⟩ := hname c (List.mem_append_left _ (Option.mem_toList.2 hc))
    exact lead?_ne_name _ s hc
  refine ⟨?_, ?_, fun hmem => ?_⟩
  · rintro rfl
    by_cases hrest : rest = []
    · subst hrest
      exact hne (List.map_eq_nil_iff.1 h.symm)
    · simp [lead?_cons, hrest] at hlead
  · rintro rfl
    cases hlead
  · have hmem := List.mem_filterMap.2 ⟨"..", hmem, (rfl : ofPiece? ".." = some .parent)⟩
    obtain ⟨s, hs⟩ := hname .parent (List.mem_append_right _ hmem)
    cases hs

/-- Names lead down. -/
theorem foldl_enter_map_name (place names : List String) :
    (names.map Component.name).foldl enter place = place ++ names := by
  induction names generalizing place with
  | nil => simp
  | cons s names ih => simp [enter, ih]

/-- The component in front makes no difference at the top of a tree. -/
theorem foldl_enter_lead? (pieces : List String) : (lead? pieces).toList.foldl enter [] = [] := by
  cases pieces with
  | nil => rfl
  | cons first rest =>
    rw [lead?_cons]
    repeat' split
    all_goals rfl

/-- Names behind a path lead down from its place. -/
theorem placeOf_eq {path path' : String}
    (h : components path' = components path ++ names.map .name) :
    placeOf path' = placeOf path ++ names := by
  rw [placeOf, h, List.foldl_append, foldl_enter_map_name]
  rfl

end Component

namespace FileTree

open Component

variable {tree : FileTree} {here cs : List String} {content : Bytes}

theorem walk_nil (tree : FileTree) (here : List String) :
    tree.walk here [] =
      match tree.node? here with
      | some (.file content) => .ok content
      | some .directory => .error .isDirectory
      | none => .error .notFound := rfl

theorem walk_cons (tree : FileTree) (here : List String) (c : String) (cs : List String) :
    tree.walk here (c :: cs) =
      match tree.node? here with
      | none => .error .notFound
      | some (.file _) => .error .notDirectory
      | some .directory =>
        if c = "" ∨ c = "." then tree.walk here cs
        else if c = ".." then
          if here.isEmpty then outside.walk [] cs else tree.walk here.dropLast cs
        else if maxName < c.utf8ByteSize then .error .nameTooLong
        else tree.walk (here ++ [c]) cs := rfl

/-- A file that is found is the one in the place that the pieces lead to. -/
theorem node?_of_walk (h : tree.walk here cs = .ok content) :
    tree.node? ((cs.filterMap ofPiece?).foldl enter here) = some (.file content) := by
  induction cs generalizing tree here with
  | nil =>
    rw [walk_nil] at h
    split at h
    next hnode =>
      obtain rfl := Except.ok.inj h
      exact hnode
    · cases h
    · cases h
  | cons c cs ih =>
    rw [walk_cons] at h
    split at h
    · cases h
    · cases h
    · split at h
      next hskip =>
        have hnone : ofPiece? c = none := if_pos hskip
        rw [List.filterMap_cons, hnone]
        exact ih h
      next hskip =>
        split at h
        next hparent =>
          have hsome : ofPiece? c = some .parent := by rw [ofPiece?, if_neg hskip, if_pos hparent]
          rw [List.filterMap_cons, hsome]
          split at h
          · have houtside := ih h
            simp [node?, outside] at houtside
          · exact ih h
        next hname =>
          have hsome : ofPiece? c = some (.name c) := by rw [ofPiece?, if_neg hskip, if_neg hname]
          rw [List.filterMap_cons, hsome]
          split at h
          · cases h
          · exact ih h

/-- A file that is read is the one in the place that its path leads to. -/
theorem node?_of_read {path : String} (h : tree.read path = .ok content) :
    tree.node? (placeOf path) = some (.file content) := by
  have hplace : placeOf path = ((Text.splitOn '/' path).filterMap ofPiece?).foldl enter [] := by
    rw [placeOf, components, ofPieces, List.foldl_append, foldl_enter_lead?]
  rw [read] at h
  repeat' split at h
  · cases h
  · cases h
  · cases h
  · have houtside := node?_of_walk h
    simp [node?, outside] at houtside
  · rw [hplace]
    exact node?_of_walk h

/-! ## What can be left out -/

theorem walk_skip {c : String} (hc : counts c = false) (hcs : cs ≠ []) :
    tree.walk here (c :: cs) = tree.walk here cs := by
  have hskip : c = "" ∨ c = "." := by
    simp only [counts, decide_eq_false_iff_not] at hc
    tauto
  obtain ⟨d, ds, rfl⟩ := List.exists_cons_of_ne_nil hcs
  rw [walk_cons]
  split
  next hnode => simp [walk_cons, hnode]
  next hnode => simp [walk_cons, hnode]
  next hnode => rw [if_pos hskip]

/-- Before the last piece, what does not count can be left out. -/
theorem walk_filter (tree : FileTree) (here cs : List String) (last : String) :
    tree.walk here (cs.filter counts ++ [last]) = tree.walk here (cs ++ [last]) := by
  induction cs generalizing tree here with
  | nil => rfl
  | cons c cs ih =>
    rw [List.filter_cons]
    split
    next hc => simp only [List.cons_append, walk_cons, ih]
    next hc =>
      rw [List.cons_append, walk_skip (Bool.eq_false_iff.2 hc) (by simp)]
      exact ih tree here

/-- What comes in front makes no difference for what can be left out. -/
theorem walk_filter_behind (tree : FileTree) (here above cs : List String) (last : String) :
    tree.walk here (above ++ (cs.filter counts ++ [last])) =
      tree.walk here (above ++ (cs ++ [last])) := by
  rw [← List.append_assoc, ← walk_filter, ← List.append_assoc,
    ← walk_filter tree here (above ++ cs), List.filter_append, List.filter_append,
    List.filter_filter]
  simp

/-- The size of a text is that of its characters. -/
theorem utf8ByteSize_ofList_cons (c : Char) (cs : List Char) :
    (String.ofList (c :: cs)).utf8ByteSize = c.utf8Size + (String.ofList cs).utf8ByteSize := by
  rw [String.ofList_cons, String.utf8ByteSize_append, String.utf8ByteSize_singleton]

theorem utf8ByteSize_le_of_sublist {ds es : List Char} (h : ds.Sublist es) :
    (String.ofList ds).utf8ByteSize ≤ (String.ofList es).utf8ByteSize := by
  induction h with
  | slnil => exact Nat.le_refl _
  | cons c _ ih =>
    rw [utf8ByteSize_ofList_cons]
    omega
  | cons_cons c _ ih =>
    rw [utf8ByteSize_ofList_cons, utf8ByteSize_ofList_cons]
    omega

/-- A path that is another one with some characters left out leads to the same file, if following it
does, unless the other one cannot be followed at all. -/
theorem read_congr {ds es : List Char} (hsub : ds.Sublist es) (hne : ds ≠ [])
    (habsolute : ds.head? = some '/' ↔ es.head? = some '/')
    (hwalk : ∀ tree : FileTree, tree.walk [] (Text.splitOn '/' (String.ofList ds)) =
      tree.walk [] (Text.splitOn '/' (String.ofList es)))
    (hnul : tree.read (String.ofList es) ≠ .error .nulInName)
    (hlong : tree.read (String.ofList es) ≠ .error .nameTooLong) :
    tree.read (String.ofList ds) = tree.read (String.ofList es) := by
  have hes : es ≠ [] := fun hnil => hne (List.sublist_nil.1 (hnil ▸ hsub))
  have hempty (cs : List Char) (hcs : cs ≠ []) : ¬(String.ofList cs).isEmpty = true := by
    simpa using hcs
  have hsize := utf8ByteSize_le_of_sublist hsub
  have hes_nul : ¬es.contains '\x00' = true := by
    intro hmem
    exact hnul (by rw [read, String.toList_ofList, if_pos hmem])
  have hds_nul : ¬ds.contains '\x00' = true := by
    intro hmem
    exact hes_nul (List.contains_iff_mem.2 (hsub.mem (List.contains_iff_mem.1 hmem)))
  have hes_long : ¬maxPath < (String.ofList es).utf8ByteSize := by
    intro hlt
    exact hlong (by
      rw [read, String.toList_ofList, if_neg hes_nul, if_neg (hempty es hes), if_pos hlt])
  have hds_long : ¬maxPath < (String.ofList ds).utf8ByteSize := by omega
  rw [read, read, String.toList_ofList, String.toList_ofList, if_neg hes_nul, if_neg hds_nul,
    if_neg (hempty es hes), if_neg (hempty ds hne), if_neg hes_long, if_neg hds_long, hwalk tree,
    hwalk outside]
  by_cases habs : es.head? = some '/'
  · rw [if_pos habs, if_pos (habsolute.2 habs)]
  · rw [if_neg habs, if_neg (mt habsolute.1 habs)]

end FileTree

end DebugAdapter
