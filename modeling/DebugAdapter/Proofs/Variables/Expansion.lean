import DebugAdapter.Proofs.Variables.Calls
/-!
# Variables expanded

References name values by the variable and the steps to them, or carry them. What each stands for
is kept in a ledger: the values that references were handed out for, in order. `Snapshot.Keeps`
ties a snapshot to its ledger, `Snapshot.list_of_keeps` is a listing in terms of the ledger alone,
and looking at a snapshot only makes the ledger longer (`Snapshot.Keeps.calls`). So a captured
variable can be expanded to the last of its parts (`Snapshot.expansion_of_capture`).
-/

namespace DebugAdapter

/-! ## Values -/

/-- Whether no object in a value names a member twice. -/
inductive Json.WellNamed : Json → Prop where
  | null : WellNamed .null
  | bool (b : Bool) : WellNamed (.bool b)
  | number (n : Json.Number) : WellNamed (.number n)
  | string (s : String) : WellNamed (.string s)
  | array {items : List Json} : (∀ v ∈ items, WellNamed v) → WellNamed (.array items)
  | object {entries : List (String × Json)} : (Table.keys entries).Nodup →
      (∀ m ∈ entries, WellNamed m.2) → WellNamed (.object entries)

/-- The values in a value: the entries of an object, and the items of a list by number. -/
def Json.children : Json → List (String × Json)
  | object entries => entries
  | array items => items.zipIdx.map fun (v, i) => (toString i, v)
  | _ => []

theorem Json.sizeOf_of_mem_children {v : Json} {p : String × Json} (h : p ∈ v.children) :
    sizeOf p.2 < sizeOf v := by
  cases v with
  | object entries =>
    have hsize : sizeOf p < sizeOf entries := List.sizeOf_lt_of_mem h
    obtain ⟨name, w⟩ := p
    simp only [Prod.mk.sizeOf_spec, object.sizeOf_spec] at hsize ⊢
    omega
  | array items =>
    obtain ⟨⟨w, i⟩, hmem, rfl⟩ := List.mem_map.1 h
    have hsize := List.sizeOf_lt_of_mem (List.fst_mem_of_mem_zipIdx hmem)
    simp only [array.sizeOf_spec] at hsize ⊢
    omega
  | null | bool _ | number _ | string _ => cases h

theorem Json.at?_append (v : Json) (ss : List Segment) (step : Segment) :
    v.at? (ss ++ [step]) = (v.at? ss).bind fun w => w.step? step := by
  induction ss generalizing v with
  | nil =>
    simp only [List.nil_append, at?, Option.bind_some]
    cases v.step? step <;> rfl
  | cons s ss ih =>
    simp only [List.cons_append, at?]
    cases v.step? s with
    | none => rfl
    | some w => exact ih w

theorem Table.get?_of_mem {α : Type} {t : Table α} (h : t.keys.Nodup) {name : String} {value : α}
    (hmem : (name, value) ∈ t) : t.get? name = some value := by
  induction t with
  | nil => cases hmem
  | cons p t ih =>
    obtain ⟨key, w⟩ := p
    simp only [keys, List.map_cons, List.nodup_cons] at h
    rcases List.mem_cons.1 hmem with heq | hmem
    · cases heq
      simp [get?]
    · have hne : key ≠ name := fun heq =>
        h.1 (heq ▸ List.mem_map.2 ⟨(name, value), hmem, rfl⟩)
      simp [get?, hne, ih h.2 hmem]

namespace Snapshot

theorem map_parts (v : Json) : (parts v).map (fun p => (p.1, p.2.2)) = v.children := by
  cases v with
  | object entries => exact List.map_map.trans (List.map_id entries)
  | array items => exact List.map_map
  | null | bool _ | number _ | string _ => rfl

/-- The step to a part leads to it, and to nothing else of that name. -/
theorem step?_of_mem_parts {v : Json} (h : v.WellNamed) {p : String × Segment × Json}
    (hmem : p ∈ parts v) : v.step? p.2.1 = some p.2.2 ∧ p.2.2.WellNamed := by
  cases h with
  | object hnodup hentries =>
    obtain ⟨⟨name, w⟩, hentry, rfl⟩ := List.mem_map.1 hmem
    exact ⟨Table.get?_of_mem hnodup hentry, hentries _ hentry⟩
  | array hitems =>
    obtain ⟨⟨w, i⟩, hitem, rfl⟩ := List.mem_map.1 hmem
    have hget := List.mem_zipIdx_iff_getElem?.1 hitem
    exact ⟨hget, hitems w (List.mem_of_getElem? hget)⟩
  | null | bool _ | number _ | string _ => cases hmem

/-! ## Looking -/

/-- A call that lists or evaluates, and changes no variable. -/
inductive Call.Looks : Call → Prop where
  | list (reference : Int) : Looks (.list reference)
  | refer (value : Json) : Looks (.refer value)

/-- The references among those shown, which are not zero. -/
def given (references : List Nat) : List Nat :=
  references.filter (· ≠ 0)

/-- The references that a call hands out. -/
def handedOut (s : Snapshot) : Call → List Nat
  | .list reference =>
    match s.list reference with
    | .ok (xs, _) => given (xs.map Variable.reference)
    | .error _ => []
  | .refer value => given [(s.referDetached value).1]
  | .invalidate => []
  | .assign reference name value =>
    match s.assign reference name value with
    | .ok (x, _) => given [x.reference]
    | .error _ => []

/-- The references that calls hand out, in order. -/
def allHandedOut : Snapshot → List Call → List Nat
  | _, [] => []
  | s, c :: cs => s.handedOut c ++ (s.call c).allHandedOut cs

mutual

/-- Whether the variable `x` shows the value `v` as `name`, and all of its parts when it is
expanded, whatever is looked at in between. -/
inductive Shows : Snapshot → String → Json → Variable → Prop where
  | plain {s : Snapshot} {name : String} {v : Json} : isStructured v = false →
      Shows s name v ⟨name, formatValue v, typeName v, 0⟩
  | structured {s : Snapshot} {name : String} {v : Json} {reference : Nat} :
      isStructured v = true → reference ≠ 0 →
      (∀ cs, (∀ c ∈ cs, c.Looks) → Lists (s.calls cs) reference v.children) →
      Shows s name v ⟨name, formatValue v, typeName v, reference⟩

/-- Whether a reference lists just these values under these names, in this order. -/
inductive Lists : Snapshot → Int → List (String × Json) → Prop where
  | mk {s t : Snapshot} {reference : Int} {ps : List (String × Json)} {xs : List Variable} :
      s.list reference = .ok (xs, t) → ShowAll t ps xs → Lists s reference ps

/-- Whether the variables show the values one by one. -/
inductive ShowAll : Snapshot → List (String × Json) → List Variable → Prop where
  | nil {s : Snapshot} : ShowAll s [] []
  | cons {s : Snapshot} {name : String} {v : Json} {x : Variable} {ps : List (String × Json)}
      {xs : List Variable} : Shows s name v x → ShowAll s ps xs →
      ShowAll s ((name, v) :: ps) (x :: xs)

end

/-! ## The ledger -/

/-- Whether a handle stands for `v` as long as the variables are `vars`. -/
def StandsFor (vars : Variables) (h : Handle) (v : Json) : Prop :=
  match h with
  | .detached value => value = v
  | .path root segments =>
    ((vars.find? root).bind fun w => w.at? segments) = some v ∧ v.WellNamed

theorem StandsFor.resolve? {s : Snapshot} {h : Handle} {v : Json} (hstands : StandsFor s.vars h v) :
    s.resolve? h = some v := by
  cases h with
  | detached value => exact congrArg some hstands
  | path root segments => exact hstands.1

/-- What stands for a value passes this on to its parts. -/
theorem StandsFor.child {vars : Variables} {h : Handle} {v : Json} (hstands : StandsFor vars h v)
    {p : String × Segment × Json} (hmem : p ∈ parts v) :
    StandsFor vars (h.child p.2.1 p.2.2) p.2.2 := by
  cases h with
  | detached value => exact rfl
  | path root segments =>
    obtain ⟨hfind, hnamed⟩ := hstands
    obtain ⟨hstep, hpart⟩ := step?_of_mem_parts hnamed hmem
    refine ⟨?_, hpart⟩
    cases hroot : vars.find? root with
    | none => simp [hroot] at hfind
    | some w =>
      simp only [hroot, Option.bind_some, Json.at?_append] at hfind ⊢
      rw [hfind, Option.bind_some, hstep]

/-- Whether a snapshot of `vars` handed out references for the values of the ledger, in order, and
no others. -/
structure Keeps (vars : Variables) (ledger : List Json) (s : Snapshot) : Prop where
  vars_eq : s.vars = vars
  next : s.nextHandle = firstHandle + ledger.length
  known {i : Nat} {v : Json} : ledger[i]? = some v →
    ∃ h, s.handle? (firstHandle + i : Nat) = some h ∧ StandsFor vars h v
  unknown {reference : Int} : (∀ i < ledger.length, reference ≠ (firstHandle + i : Nat)) →
    s.handle? reference = none

theorem keeps_capture (vars : Variables) (frames : List StackFrame) :
    Keeps vars [] (capture vars frames) where
  vars_eq := rfl
  next := rfl
  known h := by cases h
  unknown _ := rfl

theorem handle?_allocate (s : Snapshot) (h : Handle) (reference : Int) :
    (s.allocate h).2.handle? reference =
      if (s.nextHandle : Int) = reference then some h else s.handle? reference := by
  simp only [handle?, allocate, List.find?_cons]
  split <;> simp_all

theorem Keeps.allocate {vars : Variables} {ledger : List Json} {s : Snapshot}
    (hkeeps : Keeps vars ledger s) {h : Handle} {v : Json} (hstands : StandsFor vars h v) :
    Keeps vars (ledger ++ [v]) (s.allocate h).2 where
  vars_eq := hkeeps.vars_eq
  next := by
    simp only [Snapshot.allocate, hkeeps.next, List.length_append, List.length_singleton]
    omega
  known {i w} hget := by
    rw [handle?_allocate, hkeeps.next]
    rcases Nat.lt_trichotomy i ledger.length with hlt | rfl | hgt
    · rw [if_neg (by omega)]
      exact hkeeps.known (by rwa [List.getElem?_append_left hlt] at hget)
    · rw [List.getElem?_concat_length] at hget
      obtain rfl := Option.some.inj hget
      exact ⟨h, if_pos rfl, hstands⟩
    · rw [List.getElem?_eq_none (by simpa using Nat.succ_le_of_lt hgt)] at hget
      cases hget
  unknown {reference} hne := by
    rw [List.length_append, List.length_singleton] at hne
    rw [handle?_allocate, hkeeps.next, if_neg (hne ledger.length (by omega)).symm]
    exact hkeeps.unknown fun i hi => hne i (by omega)

/-! ## Listings -/

/-- The values for which showing them hands out references. -/
def expandable (ps : List (String × Json)) : List Json :=
  (ps.map Prod.snd).filter isStructured

/-- How values are shown when `n` references were handed out before. -/
def listing : (n : Nat) → List (String × Json) → List Variable
  | _, [] => []
  | n, (name, v) :: ps =>
    if isStructured v then ⟨name, formatValue v, typeName v, firstHandle + n⟩ :: listing (n + 1) ps
    else ⟨name, formatValue v, typeName v, 0⟩ :: listing n ps

theorem given_listing (n : Nat) (ps : List (String × Json)) :
    given ((listing n ps).map Variable.reference) =
      List.range' (firstHandle + n) (expandable ps).length := by
  induction ps generalizing n with
  | nil => rfl
  | cons p ps ih =>
    obtain ⟨name, v⟩ := p
    by_cases hv : isStructured v = true
    · simp only [listing, hv, if_true, List.map_cons, expandable, List.filter_cons,
        List.length_cons, List.range'_succ]
      rw [← expandable, Nat.add_assoc, ← ih (n + 1)]
      simp [given, firstHandle]
    · simp only [listing, hv, expandable, List.map_cons, List.filter_cons]
      exact ih n

theorem fst_describeAll {s : Snapshot} {n : Nat} (hnext : s.nextHandle = firstHandle + n)
    (qs : List (String × Json × Handle)) :
    (s.describeAll qs).1 = listing n (qs.map fun q => (q.1, q.2.1)) := by
  induction qs generalizing s n with
  | nil => rfl
  | cons q qs ih =>
    obtain ⟨name, v, h⟩ := q
    by_cases hv : isStructured v = true
    · have hrest : (s.allocate h).2.nextHandle = firstHandle + (n + 1) := by
        simp only [allocate, hnext, Nat.add_assoc]
      simp only [describeAll, describe, referTo, hv, if_true, List.map_cons, listing, ih hrest]
      rw [← hnext]
      rfl
    · simp only [describeAll, describe, referTo, hv, Bool.false_eq_true, if_false, List.map_cons,
        listing, ih hnext]

theorem describeAll_of_keeps {vars : Variables} {ledger : List Json} {s : Snapshot}
    (hkeeps : Keeps vars ledger s) {qs : List (String × Json × Handle)}
    (hqs : ∀ q ∈ qs, StandsFor vars q.2.2 q.2.1) :
    (s.describeAll qs).1 = listing ledger.length (qs.map fun q => (q.1, q.2.1)) ∧
      Keeps vars (ledger ++ expandable (qs.map fun q => (q.1, q.2.1))) (s.describeAll qs).2 := by
  refine ⟨fst_describeAll hkeeps.next qs, ?_⟩
  induction qs generalizing s ledger with
  | nil => simpa [expandable, describeAll] using hkeeps
  | cons q qs ih =>
    obtain ⟨name, v, h⟩ := q
    obtain ⟨hfirst, hrest⟩ := List.forall_mem_cons.1 hqs
    by_cases hv : isStructured v = true
    · have hledger := ih (hkeeps.allocate hfirst) hrest
      simp only [describeAll, describe, referTo, hv, if_true, List.map_cons, expandable,
        List.filter_cons] at hledger ⊢
      simpa using hledger
    · have hledger := ih hkeeps hrest
      simp only [describeAll, describe, referTo, hv, Bool.false_eq_true, if_false, List.map_cons,
        expandable, List.filter_cons] at hledger ⊢
      exact hledger

/-- Variables as a script yields them: some, none of a name twice. -/
structure Captured (vars : Variables) : Prop where
  nonempty : vars ≠ []
  nodup : (Table.keys vars).Nodup
  wellNamed : ∀ p ∈ vars, p.2.WellNamed

variable {vars : Variables} {ledger : List Json} {s : Snapshot}

theorem Captured.standsFor (hvars : Captured vars) {p : String × Json} (hmem : p ∈ vars) :
    StandsFor vars (.path p.1 []) p.2 := by
  refine ⟨?_, hvars.wellNamed p hmem⟩
  rw [Table.find?_eq_get? hvars.nodup, Table.get?_of_mem hvars.nodup hmem]
  rfl

theorem Keeps.list_scope (hvars : Captured vars) (hkeeps : Keeps vars ledger s) {reference : Int}
    (hscope : isScope reference = true) :
    ∃ t, s.list reference = .ok (listing ledger.length vars, t) ∧
      Keeps vars (ledger ++ expandable vars) t := by
  have hstands : ∀ q ∈ vars.map fun p => (p.1, p.2, Handle.path p.1 []),
      StandsFor vars q.2.2 q.2.1 := fun q hq => by
    obtain ⟨p, hp, rfl⟩ := List.mem_map.1 hq
    exact hvars.standsFor hp
  have hdescribe := describeAll_of_keeps hkeeps hstands
  have hmap : (vars.map fun p => (p.1, p.2, Handle.path p.1 [])).map (fun q => (q.1, q.2.1)) =
      vars := List.map_map.trans (List.map_id vars)
  rw [hmap] at hdescribe
  refine ⟨_, ?_, hdescribe.2⟩
  have hempty : s.vars.isEmpty = false := by
    rw [hkeeps.vars_eq, List.isEmpty_eq_false_iff]
    exact hvars.nonempty
  rw [list, if_pos hscope, hempty, hkeeps.vars_eq, ← hdescribe.1]
  rfl

theorem isScope_firstHandle_add (i : Nat) : isScope (firstHandle + i : Nat) = false := by
  simp [isScope, localScope, globalScope, firstHandle]
  omega

theorem Keeps.list_part (hkeeps : Keeps vars ledger s) {i : Nat} {v : Json}
    (hget : ledger[i]? = some v) :
    ∃ t, s.list (firstHandle + i : Nat) = .ok (listing ledger.length v.children, t) ∧
      Keeps vars (ledger ++ expandable v.children) t := by
  obtain ⟨h, hhandle, hstands⟩ := hkeeps.known hget
  have hchildren : ∀ q ∈ (parts v).map fun p => (p.1, p.2.2, h.child p.2.1 p.2.2),
      StandsFor vars q.2.2 q.2.1 := fun q hq => by
    obtain ⟨p, hp, rfl⟩ := List.mem_map.1 hq
    exact hstands.child hp
  have hdescribe := describeAll_of_keeps hkeeps hchildren
  have hmap : ((parts v).map fun p => (p.1, p.2.2, h.child p.2.1 p.2.2)).map
      (fun q => (q.1, q.2.1)) = v.children := List.map_map.trans (map_parts v)
  rw [hmap] at hdescribe
  refine ⟨_, ?_, hdescribe.2⟩
  have hresolve : s.resolve? h = some v := StandsFor.resolve? (hkeeps.vars_eq ▸ hstands)
  rw [list, isScope_firstHandle_add]
  simp only [Bool.false_eq_true, if_false, hhandle, hresolve, ← hdescribe.1]

theorem Keeps.list_unknown (hkeeps : Keeps vars ledger s) {reference : Int}
    (hscope : isScope reference = false)
    (hne : ∀ i < ledger.length, reference ≠ (firstHandle + i : Nat)) :
    s.list reference = .error (.unknownReference reference) := by
  rw [list, hscope, hkeeps.unknown hne]
  rfl

theorem Keeps.list_eq_error_iff (hvars : Captured vars) (hkeeps : Keeps vars ledger s)
    (reference : Int) : s.list reference = .error (.unknownReference reference) ↔
      isScope reference = false ∧ ∀ i < ledger.length, reference ≠ (firstHandle + i : Nat) := by
  constructor
  · intro herror
    cases hscope : isScope reference with
    | true =>
      obtain ⟨t, hlist, -⟩ := hkeeps.list_scope hvars hscope
      rw [hlist] at herror
      cases herror
    | false =>
      refine ⟨rfl, fun i hi heq => ?_⟩
      obtain ⟨t, hlist, -⟩ := hkeeps.list_part (List.getElem?_eq_getElem hi)
      rw [heq, hlist] at herror
      cases herror
  · exact fun ⟨hscope, hne⟩ => hkeeps.list_unknown hscope hne

/-! ## Looking makes the ledger longer -/

theorem Keeps.call (hvars : Captured vars) (hkeeps : Keeps vars ledger s) {c : Call}
    (hlooks : c.Looks) :
    ∃ more, Keeps vars (ledger ++ more) (s.call c) ∧
      s.handedOut c = List.range' (firstHandle + ledger.length) more.length := by
  cases hlooks with
  | list reference =>
    have of_list {ps : List (String × Json)} (h : ∃ t, s.list reference =
        .ok (listing ledger.length ps, t) ∧ Keeps vars (ledger ++ expandable ps) t) :
        ∃ more, Keeps vars (ledger ++ more) (s.call (.list reference)) ∧
          s.handedOut (.list reference) =
            List.range' (firstHandle + ledger.length) more.length := by
      obtain ⟨t, hlist, ht⟩ := h
      refine ⟨expandable ps, ?_, ?_⟩
      · simpa only [Snapshot.call, hlist, Except.toOption, Option.map_some, Option.getD_some]
          using ht
      · simpa only [handedOut, hlist] using given_listing ledger.length ps
    cases hscope : isScope reference with
    | true => exact of_list (hkeeps.list_scope hvars hscope)
    | false =>
      by_cases hex : ∃ i < ledger.length, reference = (firstHandle + i : Nat)
      · obtain ⟨i, hi, rfl⟩ := hex
        exact of_list (hkeeps.list_part (List.getElem?_eq_getElem hi))
      · have hunknown := hkeeps.list_unknown hscope fun i hi heq => hex ⟨i, hi, heq⟩
        refine ⟨[], ?_, ?_⟩
        · simpa [Snapshot.call, hunknown, Except.toOption] using hkeeps
        · simp only [handedOut, hunknown, List.length_nil, List.range'_zero]
  | refer value =>
    by_cases hvalue : isStructured value = true
    · refine ⟨[value], ?_, ?_⟩
      · simpa only [Snapshot.call, referDetached, referTo, hvalue, if_true] using
          hkeeps.allocate (h := .detached value) rfl
      · simp [handedOut, referDetached, referTo, hvalue, Snapshot.allocate, given, hkeeps.next,
          firstHandle]
    · refine ⟨[], ?_, ?_⟩
      · simpa [Snapshot.call, referDetached, referTo, hvalue] using hkeeps
      · simp [handedOut, referDetached, referTo, hvalue, given]

theorem Keeps.calls (hvars : Captured vars) (hkeeps : Keeps vars ledger s) {cs : List Call}
    (hlooks : ∀ c ∈ cs, c.Looks) :
    ∃ more, Keeps vars (ledger ++ more) (s.calls cs) ∧
      s.allHandedOut cs = List.range' (firstHandle + ledger.length) more.length := by
  induction cs generalizing s ledger with
  | nil => exact ⟨[], by simpa [Snapshot.calls] using hkeeps, rfl⟩
  | cons c cs ih =>
    obtain ⟨hc, hcs⟩ := List.forall_mem_cons.1 hlooks
    obtain ⟨first, hfirst, hhanded⟩ := hkeeps.call hvars hc
    obtain ⟨more, hmore, hrest⟩ := ih hfirst hcs
    refine ⟨first ++ more, ?_, ?_⟩
    · rw [← List.append_assoc]
      exact hmore
    · rw [allHandedOut, hhanded, hrest, List.length_append, List.length_append, ← Nat.add_assoc,
        List.range'_append_1]

/-! ## Expanding -/

/-- Variables show their values, if everything with an entry in the ledger can be expanded. -/
theorem showAll_listing {ledger' : List Json} {ps : List (String × Json)}
    (hledger : ledger ++ expandable ps <+: ledger')
    (hshows : ∀ p ∈ ps, ∀ i : Nat, ledger'[i]? = some p.2 → isStructured p.2 = true →
      Shows s p.1 p.2 ⟨p.1, formatValue p.2, typeName p.2, firstHandle + i⟩) :
    ShowAll s ps (listing ledger.length ps) := by
  induction ps generalizing ledger with
  | nil => exact .nil
  | cons p ps ih =>
    obtain ⟨name, v⟩ := p
    obtain ⟨hfirst, hrest⟩ := List.forall_mem_cons.1 hshows
    cases hv : isStructured v with
    | true =>
      simp only [expandable, List.map_cons, List.filter_cons, hv, if_true] at hledger
      rw [← expandable, List.append_cons] at hledger
      have hget : ledger'[ledger.length]? = some v := by
        obtain ⟨more, rfl⟩ := hledger
        simp
      have hshown := ih hledger hrest
      rw [List.length_append, List.length_singleton] at hshown
      rw [listing, if_pos hv]
      exact .cons (hfirst _ hget hv) hshown
    | false =>
      simp only [expandable, List.map_cons, List.filter_cons, hv] at hledger
      rw [listing, hv]
      exact .cons (.plain hv) (ih hledger hrest)

theorem Keeps.shows (hvars : Captured vars) (hkeeps : Keeps vars ledger s) (name : String)
    {v : Json} (hv : isStructured v = true) {i : Nat} (hget : ledger[i]? = some v) :
    Shows s name v ⟨name, formatValue v, typeName v, firstHandle + i⟩ := by
  -- Parts are smaller; the ledger and the snapshot are those of the moment of the expansion.
  induction hn : sizeOf v using Nat.strongRecOn generalizing v s ledger name i with
  | ind n ih =>
    refine .structured hv (by simp [firstHandle]) fun cs hcs => ?_
    obtain ⟨more, hmore, -⟩ := hkeeps.calls hvars hcs
    have hget' : (ledger ++ more)[i]? = some v := by
      obtain ⟨hi, -⟩ := List.getElem?_eq_some_iff.1 hget
      rwa [List.getElem?_append_left hi]
    obtain ⟨t, hlist, ht⟩ := hmore.list_part hget'
    refine .mk hlist (showAll_listing (List.prefix_refl _) fun p hp j hj hp' => ?_)
    exact ih (sizeOf p.2) (hn ▸ Json.sizeOf_of_mem_children hp) ht p.1 hp' hj rfl

theorem Keeps.lists_scope (hvars : Captured vars) (hkeeps : Keeps vars ledger s) {reference : Int}
    (hscope : isScope reference = true) : Lists s reference vars := by
  obtain ⟨t, hlist, ht⟩ := hkeeps.list_scope hvars hscope
  exact .mk hlist (showAll_listing (List.prefix_refl _) fun p _ _ hget hp =>
    ht.shows hvars p.1 hp hget)

theorem Keeps.shows_referDetached (hvars : Captured vars) (hkeeps : Keeps vars ledger s)
    (name : String) (value : Json) :
    Shows (s.referDetached value).2 name value
      ⟨name, formatValue value, typeName value, (s.referDetached value).1⟩ := by
  unfold referDetached referTo
  cases hvalue : isStructured value with
  | true =>
    have hrefer := hkeeps.allocate (h := .detached value) (v := value) rfl
    have hshows := hrefer.shows hvars name hvalue List.getElem?_concat_length
    rwa [← hkeeps.next] at hshows
  | false => exact .plain hvalue

/-- Whatever was looked at since the capture, each scope lists the captured variables and can be
expanded to the last of their parts, and so can a value that is evaluated. All references that were
handed out differ and are none of a scope, and only those and the scopes' are known. -/
theorem expansion_of_capture {vars : Variables} (hvars : Captured vars) (frames : List StackFrame)
    {cs : List Call} (hlooks : ∀ c ∈ cs, c.Looks) :
    (∀ reference, isScope reference = true →
        Lists ((capture vars frames).calls cs) reference vars) ∧
      (∀ name value, Shows (((capture vars frames).calls cs).referDetached value).2 name value
        ⟨name, formatValue value, typeName value,
          (((capture vars frames).calls cs).referDetached value).1⟩) ∧
      (∀ n ∈ (capture vars frames).allHandedOut cs, 3 ≤ n) ∧
      ((capture vars frames).allHandedOut cs).Nodup ∧
      ∀ reference : Int, ((capture vars frames).calls cs).list reference =
          .error (.unknownReference reference) ↔
        isScope reference = false ∧
          ∀ n ∈ (capture vars frames).allHandedOut cs, reference ≠ (n : Int) := by
  obtain ⟨ledger, hkeeps, hhanded⟩ := (keeps_capture vars frames).calls hvars hlooks
  rw [List.nil_append] at hkeeps
  rw [List.length_nil, Nat.add_zero] at hhanded
  refine ⟨fun reference => hkeeps.lists_scope hvars, hkeeps.shows_referDetached hvars, ?_, ?_,
    fun reference => ?_⟩
  · intro n hn
    rw [hhanded] at hn
    exact (List.mem_range'_1.1 hn).1
  · rw [hhanded]
    exact List.nodup_range'
  · rw [hkeeps.list_eq_error_iff hvars, hhanded]
    refine and_congr_right fun _ => ⟨fun hne n hn => ?_, fun hne i hi => ?_⟩
    · obtain ⟨hle, hlt⟩ := List.mem_range'_1.1 hn
      rw [← Nat.add_sub_cancel' hle]
      exact hne (n - firstHandle) (by omega)
    · exact hne _ (List.mem_range'_1.2 ⟨by omega, by omega⟩)

/-- A map that holds a list, and a text. -/
def nestedVars : Variables :=
  [("o", .object [("a", .array [.bool true, .null]), ("b", .object [])]), ("t", .string "x")]

theorem captured_nestedVars : Captured nestedVars where
  nonempty := by decide
  nodup := by decide
  wellNamed := by
    have hlist : (Json.array [.bool true, .null]).WellNamed := by
      refine .array ?_
      rintro v hv
      simp only [List.mem_cons, List.not_mem_nil, or_false] at hv
      rcases hv with rfl | rfl
      · exact .bool true
      · exact .null
    have hempty : (Json.object []).WellNamed := .object (by decide) fun m hm => by cases hm
    have hmap : (Json.object [("a", .array [.bool true, .null]), ("b", .object [])]).WellNamed := by
      refine .object (by decide) ?_
      rintro m hm
      simp only [List.mem_cons, List.not_mem_nil, or_false] at hm
      rcases hm with rfl | rfl
      · exact hlist
      · exact hempty
    rintro p hp
    simp only [nestedVars, List.mem_cons, List.not_mem_nil, or_false] at hp
    rcases hp with rfl | rfl
    · exact hmap
    · exact .string "x"

/-- The variables are listed, the map is opened, a list is evaluated and the map's list opened. -/
def nestedLooks : List Call :=
  [.list 1, .list 3, .refer (.array [.null]), .list 4]

/-- Three references were handed out, and the map is still shown with all it holds. -/
theorem expansion_of_nestedVars :
    (capture nestedVars []).allHandedOut nestedLooks = [3, 4, 5] ∧
      Lists ((capture nestedVars []).calls nestedLooks) 2 nestedVars ∧
      ((capture nestedVars []).calls nestedLooks).list 6 = .error (.unknownReference 6) := by
  have hlooks : ∀ c ∈ nestedLooks, c.Looks := by
    rintro c hc
    simp only [nestedLooks, List.mem_cons, List.not_mem_nil, or_false] at hc
    rcases hc with rfl | rfl | rfl | rfl
    · exact .list 1
    · exact .list 3
    · exact .refer _
    · exact .list 4
  have hhanded : (capture nestedVars []).allHandedOut nestedLooks = [3, 4, 5] := by decide +kernel
  obtain ⟨hscopes, -, -, -, hknown⟩ := expansion_of_capture captured_nestedVars [] hlooks
  refine ⟨hhanded, hscopes 2 rfl, (hknown 6).2 ⟨rfl, ?_⟩⟩
  rw [hhanded]
  decide

end Snapshot

end DebugAdapter
