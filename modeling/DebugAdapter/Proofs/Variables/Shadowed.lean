import DebugAdapter.Proofs.Variables.References
/-!
# Variables of one name

A scope lists its variables one by one, also when several have one name, but the references that it
hands out name a variable, and the last of a name counts. So what is listed for a variable that a
later one shadows are the parts of the later one : `Snapshot.entry_expands_exact` says that every
entry of a scope expands to the parts of the last variable of its name, and that these are its own
just when the two have the same parts. `Snapshot.shadowed_entry_expands` is a case where they have
not.
-/

namespace DebugAdapter

/-- Whether this is the value of the last variable of a name. -/
def Bindings.IsLast {α : Type} (bs : Bindings α) (name : String) (w : α) : Prop :=
  ∃ before since, bs = before ++ (name, w) :: since ∧ ∀ p ∈ since, p.1 ≠ name

theorem Bindings.find?_eq_some_iff {α : Type} (bs : Bindings α) (name : String) (w : α) :
    bs.find? name = some w ↔ bs.IsLast name w := by
  constructor
  · intro hfind
    induction bs with
    | nil => cases hfind
    | cons p bs ih =>
      obtain ⟨key, v⟩ := p
      rw [find?, Option.or_eq_some_iff] at hfind
      rcases hfind with hlater | ⟨hnone, hfirst⟩
      · obtain ⟨before, since, rfl, hsince⟩ := ih hlater
        exact ⟨(key, v) :: before, since, rfl, hsince⟩
      · have hsince := (find?_eq_none_iff bs name).1 hnone
        split at hfirst
        next hkey =>
          subst hkey
          cases hfirst
          exact ⟨[], bs, rfl, fun p hp heq => hsince (List.mem_map.2 ⟨p, hp, heq⟩)⟩
        · cases hfirst
  · rintro ⟨before, since, rfl, hsince⟩
    have hnone : find? since name = none := (find?_eq_none_iff since name).2 fun hmem => by
      obtain ⟨p, hp, heq⟩ := List.mem_map.1 hmem
      exact hsince p hp heq
    rw [find?_append, find?, hnone]
    simp

namespace Snapshot

variable {s : Snapshot}

/-- Whether a reference lists the parts of a value, and nothing else. -/
def ListsParts (s : Snapshot) (reference : Int) (v : Json) : Prop :=
  s.list reference = .ok (s.describeAll (s.listed reference)) ∧
    (s.listed reference).map (fun q => (q.1, q.2.1)) = v.children

/-- A reference lists the parts of another value too just when these are the same. -/
theorem ListsParts.iff {reference : Int} {v w : Json} (h : s.ListsParts reference w) :
    s.ListsParts reference v ↔ w.children = v.children := by
  rw [ListsParts, h.2, and_iff_right h.1]

/-- What stands for a value lists its parts. -/
theorem Current.listsParts (hs : Current s) {reference : Nat} {h : Handle} {v : Json}
    (hhandle : s.handle? reference = some h) (hv : s.resolve? h = some v) :
    s.ListsParts reference v := by
  have hscope := hs.isScope_of_handle? hhandle
  have hlisted : s.listed reference =
      (parts v).map fun p => (p.1, p.2.2, h.child p.2.1 p.2.2) := by
    simp [listed, hscope, hhandle, hv]
  refine ⟨hlisted ▸ list_of_resolve? hscope hhandle hv, ?_⟩
  rw [hlisted, List.map_map]
  exact map_parts v

/-- Calls that take no references back change no variable. -/
theorem vars_of_unbroken {cs : List Call} (h : s.Unbroken cs) : (s.calls cs).vars = s.vars := by
  induction cs generalizing s with
  | nil => rfl
  | cons c cs ih =>
    obtain ⟨hc, hcs⟩ := h
    refine (ih hcs).trans ?_
    have hnone : s.assignment? c = none := by
      cases c with
      | invalidate => cases hc
      | _ => simpa [restarts] using hc
    rw [vars_call, hnone]
    rfl

/-- A reference lists the parts of what it stands for, as long as it is not taken back. -/
theorem Current.listsParts_of_unbroken (hs : Current s) {reference : Nat} {h : Handle} {v : Json}
    (hhandle : s.handle? reference = some h) (hv : s.resolve? h = some v) {cs : List Call}
    (hcs : s.Unbroken cs) : (s.calls cs).ListsParts reference v := by
  obtain ⟨hlater, hknown⟩ := hs.calls cs
  refine hlater.listsParts ((hknown reference h).2 (.inr ⟨hcs, hhandle⟩)) ?_
  rwa [resolve?_of_vars_eq (vars_of_unbroken hcs)]

/-- Of values that are shown each is there at its position, with a reference for it if it has
parts. -/
theorem Current.shown_at (hs : Current s) {qs : List (String × Json × Handle)}
    (hqs : ∀ q ∈ qs, (s.resolve? q.2.2).isSome) {i : Nat} {name : String} {v : Json} {h : Handle}
    (hi : qs[i]? = some (name, v, h)) :
    ∃ reference, (s.describeAll qs).1[i]? = some ⟨name, formatValue v, typeName v, reference⟩ ∧
      (reference ≠ 0 ↔ isStructured v = true) ∧
      (reference ≠ 0 → (s.describeAll qs).2.handle? reference = some h) := by
  induction qs generalizing s i with
  | nil => simp at hi
  | cons q qs ih =>
    obtain ⟨name', v', h'⟩ := q
    obtain ⟨hfirst, hrest⟩ := List.forall_mem_cons.1 hqs
    cases hv' : isStructured v' with
    | true =>
      have hcurrent := hs.allocate hfirst
      simp only [Snapshot.describeAll, describe, referTo, hv', if_true]
      cases i with
      | zero =>
        obtain ⟨rfl, rfl, rfl⟩ : name' = name ∧ v' = v ∧ h' = h := by simpa using hi
        have hne : s.nextHandle ≠ 0 := Nat.ne_of_gt (Nat.lt_of_lt_of_le (by decide) hs.first_le)
        refine ⟨s.nextHandle, rfl, iff_of_true hne hv', fun _ => ?_⟩
        refine ((hcurrent.describeAll hrest).2 s.nextHandle h').2 (.inr ?_)
        rw [handle?_allocate, if_pos rfl]
      | succ i => exact ih hcurrent hrest hi
    | false =>
      simp only [Snapshot.describeAll, describe, referTo, hv', Bool.false_eq_true, if_false]
      cases i with
      | zero =>
        obtain ⟨rfl, rfl, rfl⟩ : name' = name ∧ v' = v ∧ h' = h := by simpa using hi
        exact ⟨0, rfl, by simp [hv'], fun hne => absurd rfl hne⟩
      | succ i => exact ih hs hrest hi

theorem listed_scope (s : Snapshot) {scope : Int} (hscope : isScope scope = true) :
    s.listed scope = s.vars.map fun p => (p.1, p.2, Handle.path p.1 []) := by
  simp [listed, hscope]

theorem list_scope {scope : Int} (hscope : isScope scope = true) (hvars : s.vars ≠ []) :
    s.list scope = .ok (s.describeAll (s.listed scope)) := by
  simp [list, listed_scope, hscope, hvars]

/-- The name of a variable leads to the last of this name. -/
theorem exists_isLast {i : Nat} {name : String} {v : Json} (hi : s.vars[i]? = some (name, v)) :
    ∃ w, s.resolve? (.path name []) = some w ∧ s.vars.IsLast name w := by
  obtain ⟨w, hw⟩ := Bindings.exists_find?_of_mem (List.mem_of_getElem? hi)
  refine ⟨w, ?_, (Bindings.find?_eq_some_iff ..).1 hw⟩
  rw [resolve?_path, hw]
  rfl

variable {vars : Variables} {frames : List StackFrame}

/-- A scope lists its variables in order, each with its own value, and with a reference just when
this has parts. As long as it is not taken back, the reference lists the parts of the last variable
of that name, so it lists those of the listed value just when both have the same parts. -/
theorem entry_expands_exact {cs : List Call} {scope : Int} (hscope : isScope scope = true) {i : Nat}
    {name : String} {v : Json}
    (hi : ((capture vars frames).calls cs).vars[i]? = some (name, v)) :
    let s := (capture vars frames).calls cs
    ∃ xs t reference w, s.list scope = .ok (xs, t) ∧
      xs[i]? = some ⟨name, formatValue v, typeName v, reference⟩ ∧
      (reference ≠ 0 ↔ isStructured v = true) ∧ s.vars.IsLast name w ∧
      (reference ≠ 0 → ∀ cs', t.Unbroken cs' →
        (t.calls cs').ListsParts reference w ∧
          ((t.calls cs').ListsParts reference v ↔ w.children = v.children)) := by
  intro s
  have hcurrent : Current s := ((current_capture vars frames).calls cs).1
  have hvars : s.vars ≠ [] := List.ne_nil_of_mem (List.mem_of_getElem? hi)
  have hshown (q : String × Json × Handle) (hq : q ∈ s.listed scope) :=
    isSome_resolve?_of_mem_listed hq
  have hat : (s.listed scope)[i]? = some (name, v, .path name []) := by
    rw [listed_scope s hscope, List.getElem?_map, hi, Option.map_some]
  obtain ⟨reference, hx, hstructured, hhandle⟩ := hcurrent.shown_at hshown hat
  obtain ⟨w, hw, hlast⟩ := exists_isLast hi
  refine ⟨_, _, reference, w, list_scope hscope hvars, hx, hstructured, hlast, ?_⟩
  intro hne cs' hcs'
  have hkept := (agrees_of_list (list_scope hscope hvars)).1
  have hlists := (hcurrent.describeAll hshown).1.listsParts_of_unbroken (hhandle hne)
    ((resolve?_of_vars_eq hkept _).trans hw) hcs'
  exact ⟨hlists, hlists.iff⟩

/-- Two maps under one name. -/
def shadowingMaps : Variables :=
  [("a", .object [("p", .bool true)]), ("a", .object [("q", .bool false)])]

theorem getElem?_shadowingMaps : ((capture shadowingMaps []).calls []).vars[1]? =
    some ("a", .object [("q", .bool false)]) :=
  rfl

/-- The second of these maps expands to its own entry. -/
theorem entry_expands_exact_second : ∃ (xs : List Variable) (t : Snapshot) (reference : Nat),
    (capture shadowingMaps []).list 1 = .ok (xs, t) ∧
      xs[1]? = some ⟨"a", "{1 entries}", "Map", reference⟩ ∧
      t.ListsParts reference (.object [("q", .bool false)]) := by
  obtain ⟨xs, t, reference, w, hlist, hx, hstructured, hlast, hlists⟩ :=
    entry_expands_exact (show isScope 1 = true from rfl) getElem?_shadowingMaps
  obtain rfl : w = .object [("q", .bool false)] :=
    Option.some.inj (((Bindings.find?_eq_some_iff ..).2 hlast).symm.trans rfl)
  exact ⟨xs, t, reference, hlist, hx, (hlists (hstructured.2 rfl) [] trivial).1⟩

/-- The first of these maps expands to the entry of the second. -/
theorem shadowed_entry_expands : ∃ (xs : List Variable) (t : Snapshot),
    (capture shadowingMaps []).list 1 = .ok (xs, t) ∧
      xs[0]? = some ⟨"a", "{1 entries}", "Map", 3⟩ ∧
      t.ListsParts 3 (.object [("q", .bool false)]) ∧
      ¬t.ListsParts 3 (.object [("p", .bool true)]) := by
  have hlists : ((((capture shadowingMaps []).list 1).toOption.get rfl).2).ListsParts 3
      (.object [("q", .bool false)]) := ⟨rfl, rfl⟩
  refine ⟨_, _, rfl, rfl, hlists, fun h => ?_⟩
  have hsame := hlists.iff.1 h
  simp [Json.children] at hsame

end Snapshot

end DebugAdapter
