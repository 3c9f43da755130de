import DebugAdapter.Proofs.Variables.Assigned
/-!
# What a reference stands for

A call shows values (`Snapshot.shown`) and hands out a reference for each that has parts
(`Snapshot.grants`). A successful assignment takes all references back, and the numbers start anew
(`Snapshot.restarts`). So a reference stands for what it was handed out for since then
(`Snapshot.Current.call` for one call, `Snapshot.Current.calls` for any number of them), and it
keeps its meaning just as long as it is not handed out again for something else
(`Snapshot.reference_meaning_exact`).
-/

namespace DebugAdapter

namespace Snapshot

/-! ## What a call shows -/

/-- What a call shows: names, values and what stands for them. -/
def shown (s : Snapshot) : Call → List (String × Json × Handle)
  | .list reference => s.listed reference
  | .refer value => [("", value, .detached value)]
  | .invalidate => []
  | .assign reference name value =>
    match s.target reference name, s.assignment? (.assign reference name value) with
    | .ok place, some _ => [(name, value, .path place.root place.segments)]
    | _, _ => []

/-- The snapshot in which a call shows values. -/
def changed (s : Snapshot) : Call → Snapshot
  | .invalidate => s.invalidate
  | c =>
    match s.assignment? c with
    | none => s
    | some (root, whole) => s.putWhole root whole

/-- A call is to show values, after it changed a place or took back the references. -/
theorem call_eq (s : Snapshot) (c : Call) :
    s.call c = ((s.changed c).describeAll (s.shown c)).2 := by
  cases c with
  | list reference =>
    rcases s.list_eq reference with h | ⟨h, hnil⟩ | ⟨⟨e, h⟩, hnil⟩
    · simp [call, changed, assignment?, shown, h, Except.toOption]
    · simp [call, changed, assignment?, shown, h, hnil, describeAll, Except.toOption]
    · simp [call, changed, assignment?, shown, h, hnil, describeAll, Except.toOption]
  | refer value => rfl
  | invalidate => rfl
  | assign reference name value =>
    rcases s.assign_eq reference name value with
      ⟨e, h, hnone⟩ | ⟨place, whole, htarget, -, hsome, h⟩
    · simp [call, changed, shown, h, hnone, describeAll, Except.toOption]
    · simp [call, changed, shown, h, hsome, htarget, describeAll, Except.toOption]

theorem handedOut_eq (s : Snapshot) (c : Call) :
    s.handedOut c =
      given (((s.changed c).describeAll (s.shown c)).1.map Variable.reference) := by
  cases c with
  | list reference =>
    rcases s.list_eq reference with h | ⟨h, hnil⟩ | ⟨⟨e, h⟩, hnil⟩
    · simp [handedOut, changed, assignment?, shown, h]
    · simp [handedOut, changed, assignment?, shown, h, hnil, describeAll, given, emptyNote]
    · simp [handedOut, changed, assignment?, shown, h, hnil, describeAll, given]
  | refer value => rfl
  | invalidate => rfl
  | assign reference name value =>
    rcases s.assign_eq reference name value with
      ⟨e, h, hnone⟩ | ⟨place, whole, htarget, -, hsome, h⟩
    · simp [handedOut, changed, shown, h, hnone, describeAll, given]
    · simp [handedOut, changed, shown, h, hsome, htarget, describeAll]

/-! ## References in use -/

/-- Whether the references in use are numbers from the first on and below the next one, and what
they stand for is there. -/
structure Current (s : Snapshot) : Prop where
  first_le : firstHandle ≤ s.nextHandle
  bounded {reference : Int} {h : Handle} : s.handle? reference = some h →
    (firstHandle : Int) ≤ reference ∧ reference < s.nextHandle
  resolves {reference : Int} {h : Handle} : s.handle? reference = some h →
    (s.resolve? h).isSome

theorem resolve?_of_vars_eq {s t : Snapshot} (hvars : t.vars = s.vars) (h : Handle) :
    t.resolve? h = s.resolve? h := by
  cases h with
  | detached value => rfl
  | path root segments => rw [resolve?_path, hvars, resolve?_path]

/-- Without references all is current. -/
theorem current_of_none {s : Snapshot} (hfirst : s.nextHandle = firstHandle)
    (hnone : ∀ reference, s.handle? reference = none) : Current s where
  first_le := Nat.le_of_eq hfirst.symm
  bounded h := by simp [hnone] at h
  resolves h := by simp [hnone] at h

theorem Current.allocate {s : Snapshot} (hs : Current s) {h : Handle}
    (hh : (s.resolve? h).isSome) : Current (s.allocate h).2 where
  first_le := Nat.le_succ_of_le hs.first_le
  bounded {reference h'} hfind := by
    have hnext : (s.allocate h).2.nextHandle = s.nextHandle + 1 := rfl
    have hfirst := hs.first_le
    rw [handle?_allocate] at hfind
    rw [hnext]
    split at hfind
    · omega
    · have := hs.bounded hfind
      omega
  resolves {reference h'} hfind := by
    rw [handle?_allocate] at hfind
    have hvars : (s.allocate h).2.vars = s.vars := rfl
    rw [resolve?_of_vars_eq hvars]
    split at hfind
    · rwa [← Option.some.inj hfind]
    · exact hs.resolves hfind

/-- The references for values that are shown, each with what stands for its value. -/
def grantsOf (s : Snapshot) (qs : List (String × Json × Handle)) : List (Nat × Handle) :=
  (given ((s.describeAll qs).1.map Variable.reference)).zip
    ((qs.filter fun q => isStructured q.2.1).map fun q => q.2.2)

/-- Showing values keeps the references in use and adds those that are handed out for them. -/
theorem Current.describeAll {s : Snapshot} (hs : Current s) {qs : List (String × Json × Handle)}
    (hqs : ∀ q ∈ qs, (s.resolve? q.2.2).isSome) :
    Current (s.describeAll qs).2 ∧ ∀ (reference : Nat) (h : Handle),
      (s.describeAll qs).2.handle? reference = some h ↔
        (reference, h) ∈ s.grantsOf qs ∨ s.handle? reference = some h := by
  induction qs generalizing s with
  | nil => exact ⟨hs, fun reference h => by simp [Snapshot.describeAll, grantsOf, given]⟩
  | cons q qs ih =>
    obtain ⟨name, value, hq⟩ := q
    obtain ⟨hfirst, hrest⟩ := List.forall_mem_cons.1 hqs
    cases hvalue : isStructured value with
    | true =>
      obtain ⟨hcurrent, hhandle⟩ := ih (hs.allocate hfirst) hrest
      have hgrants : s.grantsOf ((name, value, hq) :: qs) =
          (s.nextHandle, hq) :: (s.allocate hq).2.grantsOf qs := by
        have hne : s.nextHandle ≠ 0 := Nat.ne_of_gt (Nat.lt_of_lt_of_le (by decide) hs.first_le)
        simp [grantsOf, Snapshot.describeAll, describe, referTo, hvalue, given, Snapshot.allocate,
          hne]
      simp only [Snapshot.describeAll, describe, referTo, hvalue, if_true]
      refine ⟨hcurrent, fun reference h => ?_⟩
      rw [hhandle, hgrants, List.mem_cons, handle?_allocate]
      by_cases hnext : s.nextHandle = reference
      · have hunused : ¬s.handle? reference = some h := fun hfind => by
          have := hs.bounded hfind
          omega
        simp [hnext, hunused, or_comm, eq_comm]
      · have hother : (s.nextHandle : Int) ≠ reference := by omega
        simp [hother, Ne.symm hnext]
    | false =>
      have hgrants : s.grantsOf ((name, value, hq) :: qs) = s.grantsOf qs := by
        simp [grantsOf, Snapshot.describeAll, describe, referTo, hvalue, given]
      simp only [Snapshot.describeAll, describe, referTo, hvalue, Bool.false_eq_true, if_false,
        hgrants]
      exact ih hs hrest

/-! ## What stands for what is shown -/

theorem isSome_step?_of_mem_parts {v : Json} {p : String × Segment × Json} (hmem : p ∈ parts v) :
    (v.step? p.2.1).isSome := by
  cases v with
  | object entries =>
    obtain ⟨⟨name, w⟩, hentry, rfl⟩ := List.mem_map.1 hmem
    rw [Option.isSome_iff_ne_none, Json.step?, Ne, Table.get?_eq_none_iff, Classical.not_not]
    exact List.mem_map.2 ⟨(name, w), hentry, rfl⟩
  | array items =>
    obtain ⟨⟨w, i⟩, hitem, rfl⟩ := List.mem_map.1 hmem
    exact Option.isSome_of_eq_some (List.mem_zipIdx_iff_getElem?.1 hitem)
  | null | bool _ | number _ | string _ => cases hmem

/-- What stands for a part of a value that is there is there. -/
theorem isSome_resolve?_child {s : Snapshot} {h : Handle} {v : Json}
    (hv : s.resolve? h = some v) {p : String × Segment × Json} (hmem : p ∈ parts v) :
    (s.resolve? (h.child p.2.1 p.2.2)).isSome := by
  cases h with
  | detached value => rfl
  | path root segments =>
    obtain ⟨whole, hroot, hat⟩ := Option.bind_eq_some_iff.1 hv
    rw [Handle.child, resolve?_path, hroot, Option.bind_some, Json.at?_append, hat,
      Option.bind_some]
    exact isSome_step?_of_mem_parts hmem

theorem isSome_resolve?_of_mem_listed {s : Snapshot} {reference : Int}
    {q : String × Json × Handle} (hmem : q ∈ s.listed reference) :
    (s.resolve? q.2.2).isSome := by
  unfold listed at hmem
  split at hmem
  · obtain ⟨p, hvar, rfl⟩ := List.mem_map.1 hmem
    obtain ⟨w, hw⟩ := Bindings.exists_find?_of_mem hvar
    simp [resolve?_path, hw, Json.at?]
  · split at hmem
    · cases hmem
    · split at hmem
      · cases hmem
      next v hv =>
        obtain ⟨p, hpart, rfl⟩ := List.mem_map.1 hmem
        exact isSome_resolve?_child hv hpart

/-- What a call shows is there. -/
theorem isSome_resolve?_of_mem_shown {s : Snapshot} {c : Call} {q : String × Json × Handle}
    (hmem : q ∈ s.shown c) : ((s.changed c).resolve? q.2.2).isSome := by
  cases c with
  | list reference => exact isSome_resolve?_of_mem_listed hmem
  | refer value =>
    obtain rfl := List.mem_singleton.1 hmem
    rfl
  | invalidate => cases hmem
  | assign reference name value =>
    rcases s.assign_eq reference name value with
      ⟨e, -, hnone⟩ | ⟨place, whole, htarget, hwhole, hsome, -⟩
    · simp [shown, hnone] at hmem
    · obtain rfl : q = (name, value, .path place.root place.segments) := by
        simpa [shown, htarget, hsome] using hmem
      simp only [changed, hsome]
      rw [(puts_of_rootValue? hwhole rfl : Puts s place value (s.putWhole place.root whole)).here]
      rfl

/-! ## What references stand for -/

/-- The references that a call hands out, each with what it is handed out for. -/
def grants (s : Snapshot) (c : Call) : List (Nat × Handle) :=
  (s.handedOut c).zip (((s.shown c).filter fun q => isStructured q.2.1).map fun q => q.2.2)

/-- Whether a call takes all references back, so that the numbers start anew. -/
def restarts (s : Snapshot) : Call → Bool
  | .invalidate => true
  | c => (s.assignment? c).isSome

theorem grants_eq (s : Snapshot) (c : Call) : s.grants c = (s.changed c).grantsOf (s.shown c) := by
  rw [grants, handedOut_eq, grantsOf]

theorem current_capture (vars : Variables) (frames : List StackFrame) :
    Current (capture vars frames) :=
  current_of_none rfl fun _ => rfl

/-- A change takes the references back, and otherwise nothing changes before values are shown. -/
theorem changed_cases (s : Snapshot) (c : Call) :
    s.restarts c = false ∧ s.changed c = s ∨
      s.restarts c = true ∧ (s.changed c).nextHandle = firstHandle ∧
        ∀ reference, (s.changed c).handle? reference = none := by
  cases c with
  | list reference => exact .inl ⟨rfl, rfl⟩
  | refer value => exact .inl ⟨rfl, rfl⟩
  | invalidate => exact .inr ⟨rfl, rfl, fun _ => rfl⟩
  | assign reference name value =>
    cases hassignment : s.assignment? (.assign reference name value) with
    | none => exact .inl (by simp [restarts, changed, hassignment])
    | some p =>
      refine .inr ⟨by simp [restarts, hassignment], ?_⟩
      simp only [changed, hassignment]
      exact ⟨rfl, fun _ => rfl⟩

variable {s : Snapshot}

/-- After a call a reference stands for what the call hands it out for, or, if the call does not
take the references back, for what it stood for before. -/
theorem Current.call (hs : Current s) (c : Call) :
    Current (s.call c) ∧ ∀ (reference : Nat) (h : Handle),
      (s.call c).handle? reference = some h ↔
        (reference, h) ∈ s.grants c ∨ s.restarts c = false ∧ s.handle? reference = some h := by
  rw [call_eq, grants_eq]
  rcases s.changed_cases c with ⟨hkeeps, hchanged⟩ | ⟨hrestarts, hfirst, hnone⟩
  · have hcurrent : Current (s.changed c) := by rwa [hchanged]
    have hdescribe := hcurrent.describeAll fun q hq => isSome_resolve?_of_mem_shown hq
    simpa [hkeeps, hchanged] using hdescribe
  · have hdescribe := (current_of_none hfirst hnone).describeAll fun q hq =>
      isSome_resolve?_of_mem_shown hq
    simpa [hrestarts, hnone] using hdescribe

/-- Whether none of the calls takes the references back. -/
def Unbroken : Snapshot → List Call → Prop
  | _, [] => True
  | s, c :: cs => s.restarts c = false ∧ (s.call c).Unbroken cs

/-- Whether one of the calls hands out the reference for `h`, and none behind it takes the
references back. -/
def Granted (s : Snapshot) (cs : List Call) (reference : Nat) (h : Handle) : Prop :=
  ∃ before c behind, cs = before ++ c :: behind ∧ (reference, h) ∈ (s.calls before).grants c ∧
    (s.calls (before ++ [c])).Unbroken behind

/-- After calls a reference stands for what one of them handed it out for, or for what it stood for
before all of them, if the references were not taken back since then. -/
theorem Current.calls (hs : Current s) (cs : List Call) :
    Current (s.calls cs) ∧ ∀ (reference : Nat) (h : Handle),
      (s.calls cs).handle? reference = some h ↔
        s.Granted cs reference h ∨ s.Unbroken cs ∧ s.handle? reference = some h := by
  induction cs generalizing s with
  | nil => exact ⟨hs, fun reference h => by simp [Snapshot.calls, Granted, Unbroken]⟩
  | cons c cs ih =>
    obtain ⟨hcall, hhandle⟩ := hs.call c
    obtain ⟨hcalls, hrun⟩ := ih hcall
    refine ⟨hcalls, fun reference h => (hrun reference h).trans ?_⟩
    rw [hhandle]
    constructor
    · rintro (⟨before, again, behind, rfl, hgrant, hbehind⟩ | ⟨hcs, hgrant | ⟨hc, hbefore⟩⟩)
      · exact .inl ⟨c :: before, again, behind, rfl, hgrant, hbehind⟩
      · exact .inl ⟨[], c, cs, rfl, hgrant, hcs⟩
      · exact .inr ⟨⟨hc, hcs⟩, hbefore⟩
    · rintro (⟨before, again, behind, hsplit, hgrant, hbehind⟩ | ⟨⟨hc, hcs⟩, hbefore⟩)
      · cases before with
        | nil =>
          obtain ⟨rfl, rfl⟩ := List.cons.inj hsplit
          exact .inr ⟨hbehind, .inl hgrant⟩
        | cons d before =>
          obtain ⟨rfl, rfl⟩ := List.cons.inj hsplit
          exact .inl ⟨before, again, behind, rfl, hgrant, hbehind⟩
      · exact .inr ⟨hcs, .inr ⟨hc, hbefore⟩⟩

/-! ## Working on what a reference stands for -/

/-- Whether a call names the reference, which is none of a scope, and succeeds on what `h` stands
for. -/
inductive WorksOn (s : Snapshot) (reference : Int) (h : Handle) : Call → Prop where
  | list {xs : List Variable} {t : Snapshot} : isScope reference = false →
      s.handle? reference = some h → s.list reference = .ok (xs, t) →
      WorksOn s reference h (.list reference)
  | assign {name : String} {value : Json} {x : Variable} {t : Snapshot} :
      isScope reference = false → s.handle? reference = some h →
      s.assign reference name value = .ok (x, t) →
      WorksOn s reference h (.assign reference name value)

/-- What a call does on what `h` stands for: it shows the parts of the value that is there, or it
puts a value in one of them. -/
inductive ActsOn (s : Snapshot) (h : Handle) : Call → Prop where
  | list {reference : Int} {v : Json} : s.resolve? h = some v →
      s.list reference = .ok (s.describeAll ((parts v).map fun (name, step, part) =>
        (name, part, h.child step part))) →
      ActsOn s h (.list reference)
  | assign {reference : Int} {name : String} {value parent : Json} {root : String}
      {segments : List Segment} {step : Segment} {x : Variable} {t : Snapshot} :
      h = .path root segments → s.resolve? h = some parent →
      stepInto parent name = .ok step → s.assign reference name value = .ok (x, t) →
      Puts s ⟨root, segments ++ [step]⟩ value t →
      ActsOn s h (.assign reference name value)

/-- A place in a part is named in the value that the reference leads to. -/
theorem target_eq_ok {reference : Int} {h : Handle} {name : String} {place : Target}
    (hscope : isScope reference = false) (hhandle : s.handle? reference = some h)
    (htarget : s.target reference name = .ok place) :
    ∃ root segments parent step, h = .path root segments ∧ s.resolve? h = some parent ∧
      stepInto parent name = .ok step ∧ place = ⟨root, segments ++ [step]⟩ := by
  cases h with
  | detached value => simp [target, hscope, hhandle] at htarget
  | path root segments =>
    cases hparent : s.resolve? (.path root segments) with
    | none => simp [target, hscope, hhandle, hparent] at htarget
    | some parent =>
      cases hstep : stepInto parent name with
      | error e => simp [target, hscope, hhandle, hparent, hstep, bind, Except.bind] at htarget
      | ok step =>
        refine ⟨root, segments, parent, step, rfl, rfl, hstep, ?_⟩
        simpa [target, hscope, hhandle, hparent, hstep, bind, Except.bind, pure, Except.pure,
          eq_comm] using htarget

theorem list_of_resolve? {reference : Int} {h : Handle} {v : Json}
    (hscope : isScope reference = false) (hhandle : s.handle? reference = some h)
    (hv : s.resolve? h = some v) :
    s.list reference = .ok (s.describeAll ((parts v).map fun (name, step, part) =>
      (name, part, h.child step part))) := by
  simp [list, hscope, hhandle, hv]

/-- No reference in use is that of a scope. -/
theorem Current.isScope_of_handle? (hs : Current s) {reference : Int} {h : Handle}
    (hhandle : s.handle? reference = some h) : isScope reference = false := by
  have := (hs.bounded hhandle).1
  simp only [isScope, localScope, globalScope, firstHandle, Bool.or_eq_false_iff,
    beq_eq_false_iff_ne] at this ⊢
  omega

/-- A reference can be listed when it stands for something. -/
theorem Current.exists_worksOn_iff (hs : Current s) {reference : Nat} {h : Handle} :
    (∃ c, s.WorksOn reference h c) ↔ s.handle? reference = some h := by
  constructor
  · rintro ⟨c, hc⟩
    cases hc <;> assumption
  · intro hhandle
    have hscope := hs.isScope_of_handle? hhandle
    obtain ⟨v, hv⟩ := Option.isSome_iff_exists.1 (hs.resolves hhandle)
    exact ⟨.list reference, .list hscope hhandle (list_of_resolve? hscope hhandle hv)⟩

theorem WorksOn.actsOn {reference : Int} {h : Handle} {c : Call}
    (hworks : s.WorksOn reference h c) : s.ActsOn h c := by
  cases hworks with
  | list hscope hhandle hlist =>
    cases hvalue : s.resolve? h with
    | none => simp [Snapshot.list, hscope, hhandle, hvalue] at hlist
    | some v => exact .list hvalue (list_of_resolve? hscope hhandle hvalue)
  | @assign name value x t hscope hhandle hassign =>
    rcases s.assign_eq reference name value with
      ⟨e, herror, -⟩ | ⟨place, whole, htarget, hwhole, -, hok⟩
    · rw [herror] at hassign
      cases hassign
    · obtain ⟨-, rfl⟩ := Prod.mk.inj (Except.ok.inj (hok.symm.trans hassign))
      have hputs : Puts s place value ((s.putWhole place.root whole).describe name value
          (.path place.root place.segments)).2 :=
        puts_of_rootValue? hwhole
          ((s.putWhole place.root whole).agrees_referTo value _).1
      obtain ⟨root, segments, parent, step, rfl, hparent, hstep, rfl⟩ :=
        target_eq_ok hscope hhandle htarget
      exact .assign rfl hparent hstep hok hputs

variable {vars : Variables} {frames : List StackFrame}

/-- A reference that a call handed out for `h` works on nothing else, unless the references were
taken back and it was handed out again for something else. It still works on `h` just when they
were not taken back, or it was handed out again for the same. -/
theorem reference_meaning_exact {cs : List Call} {c : Call} {reference : Nat} {h : Handle}
    (hgrant : (reference, h) ∈ ((capture vars frames).calls cs).grants c) (cs' : List Call) :
    let s := (capture vars frames).calls (cs ++ [c])
    ((∀ c' h', (s.calls cs').WorksOn reference h' c' → h' = h) ↔
        ∀ h', s.Granted cs' reference h' → h' = h) ∧
      ((∃ c', (s.calls cs').WorksOn reference h c') ↔
        s.Unbroken cs' ∨ s.Granted cs' reference h) ∧
      (s.Unbroken cs' → ∀ h', s.Granted cs' reference h' → h' = h) ∧
      ∀ c' h', (s.calls cs').WorksOn reference h' c' → (s.calls cs').ActsOn h' c' := by
  intro s
  have hbefore := ((current_capture vars frames).calls cs).1
  have hs : s = ((capture vars frames).calls cs).call c := calls_append _ cs [c]
  obtain ⟨hcurrent, hhandle⟩ := hbefore.call c
  rw [← hs] at hcurrent hhandle
  have hnow : s.handle? reference = some h := (hhandle reference h).2 (.inl hgrant)
  obtain ⟨hlater, hknown⟩ := hcurrent.calls cs'
  have hworks (h' : Handle) : (∃ c', (s.calls cs').WorksOn reference h' c') ↔
      s.Granted cs' reference h' ∨ s.Unbroken cs' ∧ h = h' := by
    rw [hlater.exists_worksOn_iff, hknown, hnow, Option.some.injEq]
  refine ⟨⟨fun hsame h' hagain => ?_, fun hsame c' h' hc' => ?_⟩, ?_, fun hunbroken h' hagain => ?_,
    fun c' h' hc' => hc'.actsOn⟩
  · obtain ⟨c', hc'⟩ := (hworks h').2 (.inl hagain)
    exact hsame c' h' hc'
  · rcases (hworks h').1 ⟨c', hc'⟩ with hagain | ⟨-, heq⟩
    · exact hsame h' hagain
    · exact heq.symm
  · rw [hworks, or_comm, and_iff_left rfl]
  · have hkept := (hknown reference h).2 (.inr ⟨hunbroken, hnow⟩)
    have hfound := (hknown reference h').2 (.inl hagain)
    exact Option.some.inj (hfound.symm.trans hkept)

/-- Two maps of one entry. -/
def twoMaps : Variables :=
  [("a", .object [("p", .bool true)]), ("b", .object [("q", .bool false)])]

theorem mem_grants_twoMaps :
    (3, Handle.path "a" []) ∈ ((capture twoMaps []).calls []).grants (.list 1) :=
  List.mem_cons_self

/-- While the client only looks, the reference of the first map leads to it. -/
theorem reference_meaning_exact_twoMaps :
    (3, Handle.path "a" []) ∈ ((capture twoMaps []).calls []).grants (.list 1) ∧
      (∃ c, ((capture twoMaps []).calls [.list 1, .list 4, .list 1]).WorksOn 3 (.path "a" []) c) ∧
      ∀ c h, ((capture twoMaps []).calls [.list 1, .list 4, .list 1]).WorksOn 3 h c →
        h = .path "a" [] := by
  obtain ⟨honly, hstill, hsame, -⟩ :=
    reference_meaning_exact mem_grants_twoMaps [.list 4, .list 1]
  have hunbroken : ((capture twoMaps []).calls [.list 1]).Unbroken [.list 4, .list 1] :=
    ⟨rfl, rfl, trivial⟩
  exact ⟨mem_grants_twoMaps, hstill.2 (.inl hunbroken), honly.2 (hsame hunbroken)⟩

/-- When the first map is replaced by a value without parts and the variables are listed again, its
reference leads to the second map: that is what it lists and what it assigns to. -/
theorem reference_meaning_changes :
    (3, Handle.path "a" []) ∈ ((capture twoMaps []).calls []).grants (.list 1) ∧
      ((capture twoMaps []).calls [.list 1, .assign 1 "a" .null, .list 1]).WorksOn 3
        (.path "b" []) (.list 3) ∧
      ((capture twoMaps []).calls [.list 1, .assign 1 "a" .null, .list 1]).WorksOn 3
        (.path "b" []) (.assign 3 "q" .null) ∧
      Handle.path "b" [] ≠ .path "a" [] := by
  have hhandle : ((capture twoMaps []).calls [.list 1, .assign 1 "a" .null, .list 1]).handle? 3 =
      some (.path "b" []) := rfl
  refine ⟨mem_grants_twoMaps, .list rfl hhandle rfl, .assign rfl hhandle rfl, by simp⟩

end Snapshot

end DebugAdapter
