import DebugAdapter.Variables.Snapshot
/-!
# Overrides

A paused script and its client each keep the variables: the script as it captured them, the client
as the snapshot that its assignments change. What keeps them together is the list of overrides.
`Snapshot.Tracks` says that the captured variables, shadowed by the overrides, are those of the
snapshot; every `Snapshot.Call` keeps it (`Snapshot.Tracks.call`), so a script that takes over the
overrides sees what the client sees (`Snapshot.Tracks.get?_insertAll`).
-/

namespace DebugAdapter

/-! ## Bindings -/

namespace Bindings

variable {α : Type}

theorem find?_append (as bs : Bindings α) (key : String) :
    find? (as ++ bs) key = (find? bs key).or (find? as key) := by
  induction as with
  | nil => simp [find?]
  | cons p as ih =>
    obtain ⟨name, value⟩ := p
    simp [find?, ih, Option.or_assoc]

theorem find?_eq_none {bs : Bindings α} {key : String} (h : key ∉ bs.map Prod.fst) :
    find? bs key = none := by
  induction bs with
  | nil => rfl
  | cons p bs ih =>
    obtain ⟨name, value⟩ := p
    simp only [List.map_cons, List.mem_cons, not_or] at h
    rw [find?, ih h.2, if_neg (Ne.symm h.1)]
    rfl

theorem find?_filter (bs : Bindings α) (name key : String) :
    find? (bs.filter fun p => p.1 ≠ name) key = if name = key then none else find? bs key := by
  induction bs with
  | nil => simp [find?]
  | cons p bs ih =>
    obtain ⟨n, value⟩ := p
    by_cases hn : n = name
    · subst hn
      by_cases hk : n = key <;> simp_all [find?]
    · by_cases hk : name = key
      · subst hk
        simp_all [find?]
      · simp_all [find?]

/-- There is a binding to change when there is one to find. -/
theorem assign?_eq_none_iff (bs : Bindings α) (name : String) (value : α) :
    bs.assign? name value = none ↔ bs.find? name = none := by
  induction bs with
  | nil => simp [assign?, find?]
  | cons p bs ih =>
    obtain ⟨n, v⟩ := p
    simp only [assign?, find?, Option.or_eq_none_iff, ← ih]
    cases hrest : assign? bs name value <;> by_cases hn : n = name <;> simp [hn]

theorem find?_of_assign? {bs bs' : Bindings α} {name : String} {value : α}
    (h : bs.assign? name value = some bs') (key : String) :
    bs'.find? key = if name = key then some value else bs.find? key := by
  induction bs generalizing bs' with
  | nil => cases h
  | cons p bs ih =>
    obtain ⟨n, v⟩ := p
    simp only [assign?] at h
    split at h
    next rest hrest =>
      obtain rfl := Option.some.inj h
      rw [find?, ih hrest, find?]
      split <;> simp
    next hrest =>
      split at h
      next hn =>
        obtain rfl := Option.some.inj h
        subst hn
        have hnone := (assign?_eq_none_iff bs n value).1 hrest
        by_cases hk : n = key
        · subst hk
          simp [find?, hnone]
        · simp [find?, hk]
      next => cases h

end Bindings

/-- The last of the inserted pairs counts. -/
theorem Table.get?_insertAll {α : Type} (t : Table α) (pairs : List (String × α)) (key : String) :
    (t.insertAll pairs).get? key = (Bindings.find? pairs key).or (t.get? key) := by
  induction pairs generalizing t with
  | nil => rfl
  | cons p pairs ih =>
    obtain ⟨name, value⟩ := p
    have hstep : t.insertAll ((name, value) :: pairs) = (t.insert name value).insertAll pairs := rfl
    rw [hstep, ih, get?_insert, Bindings.find?, Option.or_assoc]
    split <;> rfl

/-- When no name is bound twice, it does not matter which binding counts. -/
theorem Table.find?_eq_get? {α : Type} {t : Table α} (h : t.keys.Nodup) (key : String) :
    Bindings.find? t key = t.get? key := by
  induction t with
  | nil => rfl
  | cons p t ih =>
    obtain ⟨name, value⟩ := p
    simp only [keys, List.map_cons, List.nodup_cons] at h
    rw [Bindings.find?, get?, ih h.2]
    by_cases hname : name = key
    · subst hname
      rw [← ih h.2, Bindings.find?_eq_none h.1]
      simp
    · simp [hname]

theorem Table.nodup_keys_insert {α : Type} {t : Table α} (h : t.keys.Nodup) (key : String)
    (value : α) : (t.insert key value).keys.Nodup := by
  rw [keys_insert]
  split
  · exact h
  next hnot => simpa [List.nodup_append] using ⟨h, fun a ha heq => hnot (heq ▸ ha)⟩

theorem Table.nodup_keys_insertAll {α : Type} {t : Table α} (h : t.keys.Nodup)
    (pairs : List (String × α)) : (t.insertAll pairs).keys.Nodup := by
  induction pairs generalizing t with
  | nil => exact h
  | cons p pairs ih => exact ih (nodup_keys_insert h p.1 p.2)

theorem Table.get?_ofList {α : Type} (pairs : List (String × α)) (key : String) :
    (Table.ofList pairs).get? key = Bindings.find? pairs key := by
  simp [ofList, get?_insertAll]

namespace Snapshot

/-! ## Calls -/

/-- What may be asked of a snapshot during a pause. -/
inductive Call where
  | list (reference : Int)
  | refer (value : Json)
  | invalidate
  | assign (reference : Int) (name : String) (value : Json)

/-- The snapshot after a call, which it is without when the call fails. -/
def call (s : Snapshot) : Call → Snapshot
  | .list reference => ((s.list reference).toOption.map Prod.snd).getD s
  | .refer value => (s.referDetached value).2
  | .invalidate => s.invalidate
  | .assign reference name value => ((s.assign reference name value).toOption.map Prod.snd).getD s

/-- The snapshot after calls. -/
def calls (s : Snapshot) (cs : List Call) : Snapshot :=
  cs.foldl call s

/-! ## What calls keep -/

/-- Whether two snapshots have the same variables and overrides. -/
def Agrees (s t : Snapshot) : Prop :=
  t.vars = s.vars ∧ t.overrides = s.overrides

theorem agrees_referTo (s : Snapshot) (value : Json) (h : Handle) :
    s.Agrees (s.referTo value h).2 := by
  unfold referTo
  split <;> exact ⟨rfl, rfl⟩

theorem agrees_describeAll (s : Snapshot) (ps : List (String × Json × Handle)) :
    s.Agrees (s.describeAll ps).2 := by
  induction ps generalizing s with
  | nil => exact ⟨rfl, rfl⟩
  | cons p ps ih =>
    obtain ⟨name, value, h⟩ := p
    have hfirst := s.agrees_referTo value h
    have hrest := ih (s.referTo value h).2
    exact ⟨hrest.1.trans hfirst.1, hrest.2.trans hfirst.2⟩

/-- What a listing shows: names, values and what stands for them. -/
def listed (s : Snapshot) (reference : Int) : List (String × Json × Handle) :=
  if isScope reference then s.vars.map fun (name, v) => (name, v, .path name [])
  else
    match s.handle? reference with
    | none => []
    | some h =>
      match s.resolve? h with
      | none => []
      | some value => (parts value).map fun (name, step, part) => (name, part, h.child step part)

/-- A listing shows what there is to show, or a note instead, or it fails. -/
theorem list_eq (s : Snapshot) (reference : Int) :
    s.list reference = .ok (s.describeAll (s.listed reference)) ∨
      s.list reference = .ok ([emptyNote], s) ∧ s.listed reference = [] ∨
      (∃ e, s.list reference = .error e) ∧ s.listed reference = [] := by
  unfold list listed
  cases isScope reference with
  | true =>
    cases hvars : s.vars with
    | nil => exact .inr (.inl ⟨rfl, rfl⟩)
    | cons p vars => exact .inl rfl
  | false =>
    cases s.handle? reference with
    | none => exact .inr (.inr ⟨⟨_, rfl⟩, rfl⟩)
    | some h =>
      cases hvalue : s.resolve? h with
      | none => exact .inr (.inr ⟨⟨_, by simp [hvalue]; rfl⟩, by simp [hvalue]⟩)
      | some value => exact .inl (by simp [hvalue])

/-- A listing only hands out references. -/
theorem agrees_of_list {s t : Snapshot} {reference : Int} {vs : List Variable}
    (h : s.list reference = .ok (vs, t)) : s.Agrees t := by
  rcases s.list_eq reference with hlist | ⟨hlist, -⟩ | ⟨⟨e, hlist⟩, -⟩
  · obtain rfl : (s.describeAll (s.listed reference)).2 = t :=
      congrArg Prod.snd (Except.ok.inj (hlist.symm.trans h))
    exact s.agrees_describeAll _
  · cases hlist.symm.trans h
    exact ⟨rfl, rfl⟩
  · cases hlist.symm.trans h

/-- An assignment puts the new value of a whole variable in the snapshot and in the overrides. -/
theorem exists_of_assign {s t : Snapshot} {reference : Int} {name : String} {value : Json}
    {v : Variable} (h : s.assign reference name value = .ok (v, t)) :
    ∃ root whole, t.vars = putVariable s.vars root whole ∧
      t.overrides = override s.overrides root whole := by
  unfold assign at h
  cases htarget : s.target reference name with
  | error e => simp [htarget, bind, Except.bind] at h
  | ok target =>
    simp only [htarget, bind, Except.bind] at h
    split at h
    · cases h
    next whole _ =>
      obtain ⟨-, rfl⟩ := Prod.mk.inj (Except.ok.inj h)
      have hdescribe := agrees_referTo (invalidate { s with
        vars := putVariable s.vars target.root whole
        overrides := override s.overrides target.root whole }) value
          (.path target.root target.segments)
      exact ⟨target.root, whole, hdescribe⟩

/-! ## Captured variables and overrides -/

theorem find?_putVariable (vars : Variables) (name : String) (value : Json) (key : String) :
    (putVariable vars name value).find? key =
      if name = key then some value else vars.find? key := by
  unfold putVariable
  cases hassign : vars.assign? name value with
  | some vars' => exact Bindings.find?_of_assign? hassign key
  | none =>
    have hnone := (Bindings.assign?_eq_none_iff vars name value).1 hassign
    simp only [Option.getD_none, Bindings.find?_append, Bindings.find?]
    split <;> simp

theorem find?_override (overrides : List (String × Json)) (name : String) (value : Json)
    (key : String) : Bindings.find? (override overrides name value) key =
      if name = key then some value else Bindings.find? overrides key := by
  unfold override
  rw [Bindings.find?_append, Bindings.find?_filter]
  simp only [Bindings.find?]
  split <;> simp

theorem nodup_override {overrides : List (String × Json)} (h : (overrides.map Prod.fst).Nodup)
    (name : String) (value : Json) : ((override overrides name value).map Prod.fst).Nodup := by
  have hfilter : ((overrides.filter fun p => p.1 ≠ name).map Prod.fst).Nodup :=
    h.sublist (List.filter_sublist.map _)
  simp only [override, List.map_append, List.nodup_append]
  refine ⟨hfilter, by simp, ?_⟩
  simp +contextual

/-- Whether the variables of a snapshot are `vars`, shadowed by its overrides. -/
structure Tracks (vars : Variables) (s : Snapshot) : Prop where
  find? (key : String) : s.vars.find? key = (Bindings.find? s.overrides key).or (vars.find? key)
  nodup : (s.overrides.map Prod.fst).Nodup

theorem tracks_capture (vars : Variables) (frames : List StackFrame) :
    Tracks vars (capture vars frames) :=
  ⟨fun _ => rfl, List.nodup_nil⟩

theorem Tracks.of_agrees {vars : Variables} {s t : Snapshot} (h : Tracks vars s)
    (hagrees : s.Agrees t) : Tracks vars t := by
  refine ⟨fun key => ?_, hagrees.2 ▸ h.nodup⟩
  rw [hagrees.1, hagrees.2]
  exact h.find? key

theorem Tracks.of_assign {vars : Variables} {s t : Snapshot} {reference : Int} {name : String}
    {value : Json} {v : Variable} (h : Tracks vars s)
    (hassign : s.assign reference name value = .ok (v, t)) : Tracks vars t := by
  obtain ⟨root, whole, hvars, hoverrides⟩ := exists_of_assign hassign
  refine ⟨fun key => ?_, hoverrides ▸ nodup_override h.nodup root whole⟩
  rw [hvars, hoverrides, find?_putVariable, find?_override, h.find? key]
  split <;> rfl

/-- Every call, failed or not, keeps the overrides up to date. -/
theorem Tracks.call {vars : Variables} {s : Snapshot} (h : Tracks vars s) (c : Call) :
    Tracks vars (s.call c) := by
  cases c with
  | list reference =>
    simp only [Snapshot.call]
    cases hlist : s.list reference with
    | error e => exact h
    | ok found => exact h.of_agrees (agrees_of_list hlist)
  | refer value => exact h.of_agrees (s.agrees_referTo value _)
  | invalidate => exact h.of_agrees ⟨rfl, rfl⟩
  | assign reference name value =>
    simp only [Snapshot.call]
    cases hassign : s.assign reference name value with
    | error e => exact h
    | ok found => exact h.of_assign hassign

theorem Tracks.calls {vars : Variables} {s : Snapshot} (h : Tracks vars s) (cs : List Call) :
    Tracks vars (s.calls cs) := by
  induction cs generalizing s with
  | nil => exact h
  | cons c cs ih => exact ih (h.call c)

/-- A script that has the captured variables and takes over the overrides has those of the
snapshot. -/
theorem Tracks.get?_insertAll {vars : Variables} {s : Snapshot} (h : Tracks vars s)
    {t : Json.Fields} (ht : ∀ key, t.get? key = vars.find? key) (key : String) :
    (t.insertAll s.takeOverrides.1).get? key = s.scope.get? key := by
  rw [Table.get?_insertAll, ht, scope, Table.get?_ofList, h.find? key]
  rfl

end Snapshot

end DebugAdapter
