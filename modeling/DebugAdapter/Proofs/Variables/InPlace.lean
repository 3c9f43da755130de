import DebugAdapter.Proofs.Variables.References
/-!
# Assigning in place

An assignment may change the variables step by step where they are, and stop wherever one of its
steps fails. `Json.walk` goes to a place and adds the last key of the way if the object lacks it;
`Snapshot.assignInPlace` is the assignment that walks, writes, remembers the change and takes the
references back, one after the other. Nothing that it did is left when it fails, so it is
`Snapshot.assign` (`Snapshot.run_assignInPlace`), and it puts the value in its place or leaves the
snapshot as it was (`Snapshot.assignment_exact`).
-/

namespace DebugAdapter

/-! ## Bindings -/

theorem Table.insert_of_get? {α : Type} {t : Table α} {name : String} {value : α}
    (h : t.get? name = some value) : t.insert name value = t := by
  induction t with
  | nil => cases h
  | cons p t ih =>
    obtain ⟨key, v⟩ := p
    by_cases hkey : key = name
    · obtain rfl : v = value := by simpa [get?, hkey] using h
      simp [insert, hkey]
    · simp [insert, hkey, ih (by simpa [get?, hkey] using h)]

@[simp] theorem Table.insert_insert {α : Type} (t : Table α) (name : String) (v w : α) :
    (t.insert name v).insert name w = t.insert name w := by
  induction t with
  | nil => simp [insert]
  | cons p t ih =>
    obtain ⟨key, value⟩ := p
    by_cases hkey : key = name
    · simp [insert, hkey]
    · simp [insert, hkey, ih]

theorem Bindings.find?_append_cons {α : Type} (before : Bindings α) {behind : Bindings α}
    {name : String} (hbehind : name ∉ behind.map Prod.fst) (value : α) :
    (before ++ (name, value) :: behind).find? name = some value := by
  simp [find?_append, find?, find?_eq_none hbehind]

theorem Bindings.assign?_append_cons {α : Type} (before : Bindings α) {behind : Bindings α}
    {name : String} (hbehind : name ∉ behind.map Prod.fst) (old value : α) :
    (before ++ (name, old) :: behind).assign? name value =
      some (before ++ (name, value) :: behind) := by
  have hnone := (assign?_eq_none_iff behind name value).2 (find?_eq_none hbehind)
  induction before with
  | nil => simp [assign?, hnone]
  | cons p before ih => simp [assign?, ih]

/-! ## Walking -/

/-- Goes to the place that the steps lead to, where it adds `null` for a last key that the object
lacks. Gives the value as the walk leaves it and, if the place is there, what it becomes when a new
value is written to the place. -/
def Json.walk : Json → List Segment → Json × Option (Json → Json)
  | v, [] => (v, some id)
  | object entries, [.key name] =>
    let entries := if (Table.get? entries name).isSome then entries
      else Table.insert entries name null
    (object entries, some fun new => object (Table.insert entries name new))
  | object entries, .key name :: ss =>
    match Table.get? entries name with
    | none => (object entries, none)
    | some child =>
      let (child, write?) := child.walk ss
      (object (Table.insert entries name child),
        write?.map fun write new => object (Table.insert entries name (write new)))
  | array items, .index i :: ss =>
    match items[i]? with
    | none => (array items, none)
    | some child =>
      let (child, write?) := child.walk ss
      (array (items.set i child), write?.map fun write new => array (items.set i (write new)))
  | v, _ :: _ => (v, none)

/-- Writing to the place that was walked to puts the value in it. -/
theorem Json.map_walk (v : Json) (ss : List Segment) (new : Json) :
    (v.walk ss).2.map (fun write => write new) = v.assignAt? ss new := by
  fun_induction Json.walk v ss with
  | case1 v => rfl
  | case2 entries name entries' =>
    simp only [Option.map_some, assignAt?, entries']
    split <;> simp
  | case3 entries name ss hss hget => simp [assignAt?, hget]
  | case4 entries name ss hss child hget walked write? hwalk ih =>
    rw [hwalk] at ih
    simp [assignAt?, hget, ← ih, Function.comp_def]
  | case5 items i ss hget => simp [assignAt?, hget]
  | case6 items i ss child hget walked write? hwalk ih =>
    rw [hwalk] at ih
    simp [assignAt?, hget, ← ih, Function.comp_def]
  | case7 v s ss hkey hkeys hindex =>
    rw [assignAt?]
    · rfl
    all_goals assumption

/-- A walk that does not come to the place leaves nothing behind. -/
theorem Json.fst_walk_of_none {v : Json} {ss : List Segment} (h : (v.walk ss).2 = none) :
    (v.walk ss).1 = v := by
  fun_induction Json.walk v ss with
  | case1 v => rfl
  | case2 entries name entries' => cases h
  | case3 entries name ss hss hget => rfl
  | case4 entries name ss hss child hget walked write? hwalk ih =>
    rw [hwalk] at ih
    obtain rfl : walked = child := ih (Option.map_eq_none_iff.1 h)
    rw [Table.insert_of_get? hget]
  | case5 items i ss hget => rfl
  | case6 items i ss child hget walked write? hwalk ih =>
    rw [hwalk] at ih
    obtain ⟨hi, rfl⟩ := List.getElem?_eq_some_iff.1 hget
    obtain rfl : walked = items[i] := ih (Option.map_eq_none_iff.1 h)
    rw [List.set_getElem_self]
  | case7 v s ss => rfl

namespace Snapshot

/-! ## Variables -/

theorem putVariable_of_find? {vars : Variables} {name : String} {value : Json}
    (h : vars.find? name = some value) : putVariable vars name value = vars := by
  rcases putVariable_cases vars name value with
    ⟨before, old, behind, rfl, hbehind, hput⟩ | ⟨hnot, -⟩
  · rw [Bindings.find?_append_cons before hbehind] at h
    rw [hput, Option.some.inj h]
  · rw [Bindings.find?_eq_none hnot] at h
    cases h

theorem putVariable_putVariable (vars : Variables) (name : String) (v w : Json) :
    putVariable (putVariable vars name v) name w = putVariable vars name w := by
  have hput {before behind : Variables} (hbehind : name ∉ behind.map Prod.fst) (old : Json) :
      putVariable (before ++ (name, old) :: behind) name w = before ++ (name, w) :: behind := by
    rw [putVariable, Bindings.assign?_append_cons before hbehind, Option.getD_some]
  rcases putVariable_cases vars name v with ⟨before, old, behind, rfl, hbehind, hv⟩ | ⟨hnot, hv⟩
  · rw [hv, hput hbehind, hput hbehind]
  · rw [hv, hput List.not_mem_nil, putVariable,
      (Bindings.assign?_eq_none_iff vars name w).2 (Bindings.find?_eq_none hnot), Option.getD_none]

/-! ## Assigning step by step -/

/-- Gives a whole variable a value. -/
def write (root : String) (value : Json) : EStateM DebugError Snapshot Unit :=
  modify fun s => { s with vars := putVariable s.vars root value }

/-- Writes a value to a place, which is walked to if it lies in a variable. -/
def writeTo (place : Target) (reference : Int) (name : String) (value : Json) :
    EStateM DebugError Snapshot Unit :=
  match place.segments with
  | [] => write place.root value
  | segments => do
    match (← get).vars.find? place.root with
    | none => throw (.unknownReference reference)
    | some v =>
      let (walked, write?) := v.walk segments
      write place.root walked
      match write? with
      | none => throw (.unassignable name)
      | some become => write place.root (become value)

/-- Remembers the value that a variable has now as its latest change. -/
def remember (root : String) : EStateM DebugError Snapshot Unit :=
  modify fun s => { s with
    overrides := override s.overrides root ((s.vars.find? root).getD .null) }

/-- Puts a value in the place that a name inside a reference stands for, step by step. -/
def assignInPlace (reference : Int) (name : String) (value : Json) :
    EStateM DebugError Snapshot Variable := do
  let place ← ofExcept ((← get).target reference name)
  writeTo place reference name value
  remember place.root
  modify invalidate
  modifyGet fun s => s.describe name value (.path place.root place.segments)

/-- A place in a variable is named only in a variable that is there. -/
theorem exists_find?_of_target {s : Snapshot} {reference : Int} {name : String} {place : Target}
    (htarget : s.target reference name = .ok place) (hin : place.segments ≠ []) :
    ∃ v, s.vars.find? place.root = some v := by
  cases hscope : isScope reference with
  | true =>
    obtain rfl : Target.mk name [] = place := by simpa [target, hscope] using htarget
    exact absurd rfl hin
  | false =>
    cases hhandle : s.handle? reference with
    | none => simp [target, hscope, hhandle] at htarget
    | some h =>
      obtain ⟨root, segments, parent, step, rfl, hparent, -, rfl⟩ :=
        target_eq_ok hscope hhandle htarget
      obtain ⟨v, hv, -⟩ := Option.bind_eq_some_iff.1 hparent
      exact ⟨v, hv⟩

theorem run_writeTo {s : Snapshot} {place : Target} {reference : Int} {name : String}
    (htarget : s.target reference name = .ok place) (value : Json) :
    (writeTo place reference name value).run s =
      match s.rootValue? place value with
      | some whole => .ok () { s with vars := putVariable s.vars place.root whole }
      | none => .error (.unassignable name) s := by
  obtain ⟨root, segments⟩ := place
  cases segments with
  | nil => rfl
  | cons step ss =>
    obtain ⟨v, hv⟩ := exists_find?_of_target htarget (List.cons_ne_nil step ss)
    have hroot : s.rootValue? ⟨root, step :: ss⟩ value =
        (v.walk (step :: ss)).2.map fun become => become value := by
      rw [Json.map_walk, rootValue?, hv]
      rfl
    rw [hroot]
    cases hwalk : v.walk (step :: ss) with
    | mk walked write? =>
      cases write? with
      | none =>
        have hwalked : walked = v := by
          simpa [hwalk] using Json.fst_walk_of_none (congrArg Prod.snd hwalk)
        simp [writeTo, write, hv, hwalk, hwalked, putVariable_of_find? hv]
      | some become =>
        simp [writeTo, write, hv, hwalk, putVariable_putVariable]

theorem run_assignInPlace (s : Snapshot) (reference : Int) (name : String) (value : Json) :
    (assignInPlace reference name value).run s =
      match s.assign reference name value with
      | .ok (x, t) => .ok x t
      | .error e => .error e s := by
  cases htarget : s.target reference name with
  | error e =>
    have hassign : s.assign reference name value = .error e := by rw [assign, htarget]; rfl
    simp [assignInPlace, hassign, htarget, ofExcept]
    rfl
  | ok place =>
    have hwrite := run_writeTo htarget value
    cases hwhole : s.rootValue? place value with
    | none =>
      have hassign : s.assign reference name value = .error (.unassignable name) := by
        simp [assign, htarget, hwhole, bind, Except.bind]
      simp [assignInPlace, hassign, htarget, ofExcept, hwrite, hwhole]
    | some whole =>
      have hassign : s.assign reference name value = .ok ((s.putWhole place.root whole).describe
          name value (.path place.root place.segments)) := by
        simp [assign, htarget, hwhole, bind, Except.bind, pure, Except.pure, putWhole]
      -- What is remembered is read back after the write.
      have hroot : Bindings.find? (putVariable s.vars place.root whole) place.root =
          some whole := by rw [find?_putVariable, if_pos rfl]
      simp [assignInPlace, hassign, htarget, ofExcept, hwrite, hwhole, remember, hroot, putWhole]

/-- What is shown of a value that was put in its place: its parts are listed under the reference,
if it has parts. -/
theorem list_describe_putWhole {s : Snapshot} {place : Target} {whole value : Json} {name : String}
    {x : Variable} {t : Snapshot} (hshown : (s.putWhole place.root whole).describe name value
      (.path place.root place.segments) = (x, t))
    (hvalue : t.resolve? (.path place.root place.segments) = some value) :
    (x.reference ≠ 0 ↔ isStructured value = true) ∧
      (x.reference ≠ 0 → ∃ u, t.list x.reference = .ok (listing 1 value.children, u)) := by
  unfold describe referTo at hshown
  cases hstructured : isStructured value with
  | false =>
    simp only [hstructured, Bool.false_eq_true, if_false, Prod.mk.injEq] at hshown
    obtain ⟨rfl, rfl⟩ := hshown
    simp
  | true =>
    simp only [hstructured, if_true, Prod.mk.injEq] at hshown
    obtain ⟨rfl, rfl⟩ := hshown
    refine ⟨by simp [allocate, putWhole, invalidate, firstHandle], fun _ => ?_⟩
    have hlist := list_of_resolve? (isScope_firstHandle_add 0) rfl hvalue
    refine ⟨_, hlist.trans (congrArg Except.ok (Prod.ext ?_ rfl))⟩
    have hfst := fst_describeAll (n := 1) (s := (allocate (s.putWhole place.root whole)
      (.path place.root place.segments)).2) rfl
    rw [hfst, List.map_map]
    exact congrArg (listing 1) (map_parts value)

/-- An assignment puts the value in the place that was named: there it is found, nothing else
changes and nothing moves, and the reference that is given back lists the parts of the value. Or it
fails, and nothing at all changes. -/
theorem assignment_exact (s : Snapshot) (reference : Int) (name : String) (value : Json) :
    (∃ place x t, s.target reference name = .ok place ∧
        (assignInPlace reference name value).run s = .ok x t ∧
        s.assign reference name value = .ok (x, t) ∧ Puts s place value t ∧
        (x.reference ≠ 0 ↔ isStructured value = true) ∧
        (x.reference ≠ 0 →
          ∃ u, t.list x.reference = .ok (listing 1 value.children, u))) ∨
      ∃ e, (assignInPlace reference name value).run s = .error e s ∧
        s.assign reference name value = .error e := by
  have hrun := s.run_assignInPlace reference name value
  rcases s.assign_eq reference name value with
    ⟨e, herror, -⟩ | ⟨place, whole, htarget, hwhole, -, hok⟩
  · rw [herror] at hrun
    exact .inr ⟨e, hrun, herror⟩
  · rw [hok] at hrun
    have hvars := ((s.putWhole place.root whole).agrees_referTo value
      (.path place.root place.segments)).1
    have hputs := puts_of_rootValue? hwhole hvars
    exact .inl ⟨place, _, _, htarget, hrun, hok, hputs, list_describe_putWhole rfl hputs.here⟩

end Snapshot

end DebugAdapter
