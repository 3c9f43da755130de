import DebugAdapter.Proofs.Variables.Overrides
/-!
# What calls change

Of the variables of a snapshot a call changes at most one (`vars_call`): the one that an assignment
names, if it succeeds (`isOk_assign`). No call changes the frames (`frames_calls`).
-/

namespace DebugAdapter.Snapshot

/-! ## Frames -/

theorem frames_referTo (s : Snapshot) (value : Json) (h : Handle) :
    (s.referTo value h).2.frames = s.frames := by
  unfold referTo
  split <;> rfl

theorem frames_describeAll (s : Snapshot) (ps : List (String × Json × Handle)) :
    (s.describeAll ps).2.frames = s.frames := by
  induction ps generalizing s with
  | nil => rfl
  | cons p ps ih =>
    obtain ⟨name, value, h⟩ := p
    exact (ih (s.referTo value h).2).trans (s.frames_referTo value h)

theorem frames_of_list {s t : Snapshot} {reference : Int} {vs : List Variable}
    (h : s.list reference = .ok (vs, t)) : t.frames = s.frames := by
  rcases s.list_eq reference with hlist | ⟨hlist, -⟩ | ⟨⟨e, hlist⟩, -⟩
  · obtain rfl : (s.describeAll (s.listed reference)).2 = t :=
      congrArg Prod.snd (Except.ok.inj (hlist.symm.trans h))
    exact s.frames_describeAll _
  · cases hlist.symm.trans h
    rfl
  · cases hlist.symm.trans h

/-! ## Assignments -/

/-- The assignment that a call makes: a variable and its new value as a whole. -/
def assignment? (s : Snapshot) : Call → Option (String × Json)
  | .assign reference name value =>
    (s.target reference name).toOption.bind fun t =>
      (s.rootValue? t value).map fun whole => (t.root, whole)
  | _ => none

/-- Variables of which one is given a new value, or none. -/
def assigned (vars : Variables) (p : String × Json) : Variables :=
  putVariable vars p.1 p.2

/-- The snapshot with a new value for a whole variable, and no references. -/
def putWhole (s : Snapshot) (root : String) (whole : Json) : Snapshot :=
  invalidate { s with
    vars := putVariable s.vars root whole
    overrides := override s.overrides root whole }

/-- An assignment fails, or it puts a new value for a whole variable and shows what was put in the
place. -/
theorem assign_eq (s : Snapshot) (reference : Int) (name : String) (value : Json) :
    (∃ e, s.assign reference name value = .error e ∧
        s.assignment? (.assign reference name value) = none) ∨
      ∃ place whole, s.target reference name = .ok place ∧
        s.rootValue? place value = some whole ∧
        s.assignment? (.assign reference name value) = some (place.root, whole) ∧
        s.assign reference name value = .ok ((s.putWhole place.root whole).describe name value
          (.path place.root place.segments)) := by
  have hassignment : s.assignment? (.assign reference name value) =
      (s.target reference name).toOption.bind fun t =>
        (s.rootValue? t value).map fun whole => (t.root, whole) := rfl
  rw [hassignment]
  unfold assign
  cases htarget : s.target reference name with
  | error e => exact .inl ⟨e, rfl, rfl⟩
  | ok place =>
    cases hwhole : s.rootValue? place value with
    | none => exact .inl ⟨.unassignable name, by simp [bind, Except.bind, hwhole],
        by simp [Except.toOption, hwhole]⟩
    | some whole =>
      refine .inr ⟨place, whole, rfl, hwhole, by simp [Except.toOption, hwhole], ?_⟩
      simp only [bind, Except.bind, hwhole]
      rfl

/-- What becomes of a snapshot by a call to assign. -/
theorem assign_cases (s : Snapshot) (reference : Int) (name : String) (value : Json) :
    (∃ e, s.assign reference name value = .error e ∧
        s.assignment? (.assign reference name value) = none) ∨
      ∃ v t p, s.assign reference name value = .ok (v, t) ∧
        s.assignment? (.assign reference name value) = some p ∧ t.vars = assigned s.vars p ∧
        t.frames = s.frames := by
  refine (s.assign_eq reference name value).imp_right ?_
  rintro ⟨place, whole, -, -, hassignment, hassign⟩
  let handle := Handle.path place.root place.segments
  exact ⟨_, _, _, hassign, hassignment,
    ((s.putWhole place.root whole).agrees_referTo value handle).1,
    (s.putWhole place.root whole).frames_referTo value handle⟩

/-- A call to assign succeeds just when it makes an assignment. -/
theorem isOk_assign (s : Snapshot) (reference : Int) (name : String) (value : Json) :
    (∃ v t, s.assign reference name value = .ok (v, t)) ↔
      (s.assignment? (.assign reference name value)).isSome := by
  rcases s.assign_cases reference name value with ⟨e, he, hnone⟩ | ⟨v, t, p, hok, hsome, -, -⟩
  · simp [he, hnone]
  · simp [hok, hsome]

/-- A call changes the variable that it assigns to, and no other. -/
theorem vars_call (s : Snapshot) (c : Call) :
    (s.call c).vars = (s.assignment? c).toList.foldl assigned s.vars := by
  cases c with
  | list reference =>
    simp only [call]
    cases hlist : s.list reference with
    | error e => rfl
    | ok found => exact (agrees_of_list hlist).1
  | refer value => exact (s.agrees_referTo value _).1
  | invalidate => rfl
  | assign reference name value =>
    simp only [call]
    rcases s.assign_cases reference name value with
      ⟨e, he, hnone⟩ | ⟨v, t, p, hok, hsome, hvars, -⟩
    · simp [he, hnone, Except.toOption]
    · simp [hok, hsome, hvars, Except.toOption]

theorem frames_call (s : Snapshot) (c : Call) : (s.call c).frames = s.frames := by
  cases c with
  | list reference =>
    simp only [call]
    cases hlist : s.list reference with
    | error e => rfl
    | ok found => exact frames_of_list hlist
  | refer value => exact s.frames_referTo value _
  | invalidate => rfl
  | assign reference name value =>
    simp only [call]
    rcases s.assign_cases reference name value with
      ⟨e, he, -⟩ | ⟨v, t, p, hok, -, -, hframes⟩
    · simp [he, Except.toOption]
    · simp [hok, hframes, Except.toOption]

theorem frames_calls (s : Snapshot) (cs : List Call) : (s.calls cs).frames = s.frames := by
  induction cs generalizing s with
  | nil => rfl
  | cons c cs ih => exact (ih (s.call c)).trans (s.frames_call c)

theorem calls_append (s : Snapshot) (cs cs' : List Call) :
    s.calls (cs ++ cs') = (s.calls cs).calls cs' :=
  List.foldl_append

end DebugAdapter.Snapshot
