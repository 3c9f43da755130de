import DebugAdapter.Session.Effort
/-!
# Paths of a session

A `State.Path` leads from one state of a session to another, by steps of any parties and by what
comes from outside, and remembers the steps it took. Besides what `State.Reachable` allows, anyone
may give up a run at any moment (`Run.GivenUp`), so what holds on paths does not depend on who
abandons a run and when.

A step of a party whose next duty is its own (`Duty.BelongsTo`) is a `State.Stride` : a duty of the
handler on the session, or a duty of the handler, a starter or a thread on one run, with what it
leaves of that run and of the rest of the state (`stride_of_advance?`).
-/

namespace DebugAdapter.Session

/-! ## Paths -/

/-- A run after anyone took one of the steps that abandon it. Its phase changes last. -/
inductive Run.GivenUp (run : Run) : Run → Prop where
  | cancel : run.GivenUp { run with cancelled := true }
  | closeGate : run.GivenUp { run with isLive := false }
  | closeContext : run.GivenUp { run with context := run.context.close }
  | terminate (hclosed : run.context.isClosed = true) (hfree : run.isFree = true) :
      run.GivenUp { run with phase := .terminated }

namespace State

/-- The steps `es` lead from `s` to a state; each is the state before it and the party that took
it. -/
inductive Path (b : Backend) (s : State) : (es : List (State × Party)) → State → Prop where
  | refl : Path b s [] s
  | step {es : List (State × Party)} {t u : State} {p : Party} :
      Path b s es t → t.advance? b p = some u → Path b s (es ++ [(t, p)]) u
  | accept {es : List (State × Party)} {t : State} (i : Input) :
      Path b s es t → t.Admits i → Path b s es (t.accept i)
  | giveUp {es : List (State × Party)} {t : State} {r : RunId} {run run' : Run} :
      Path b s es t → t.runs[r]? = some run → run.GivenUp run' → Path b s es (t.setRun r run')

theorem Path.trans {b : Backend} {s t u : State} {es es' : List (State × Party)}
    (h : Path b s es t) (h' : Path b t es' u) : Path b s (es ++ es') u := by
  induction h' with
  | refl => simpa using h
  | step _ hp ih => simpa using ih.step hp
  | accept i _ hi ih => exact ih.accept i hi
  | giveUp _ hrun hgive ih => exact ih.giveUp hrun hgive

/-- A path can be cut at a step that it takes. -/
theorem Path.cut {b : Backend} {s t u : State} {p : Party} {es₁ es₂ : List (State × Party)}
    (h : Path b s (es₁ ++ (u, p) :: es₂) t) :
    Path b s es₁ u ∧ ∃ v, u.advance? b p = some v ∧ Path b v es₂ t := by
  generalize hes : es₁ ++ (u, p) :: es₂ = es at h
  induction h generalizing es₂ with
  | refl => simp at hes
  | @step es t w q hpath hp ih =>
    rcases List.eq_nil_or_concat es₂ with rfl | ⟨es₃, e, rfl⟩
    · obtain ⟨rfl, heq⟩ := List.append_inj' hes rfl
      obtain ⟨rfl, rfl⟩ : u = t ∧ p = q := by simpa using heq
      exact ⟨hpath, w, hp, .refl⟩
    · rw [List.concat_eq_append, ← List.cons_append, ← List.append_assoc] at hes
      obtain ⟨heq, he⟩ := List.append_inj' hes rfl
      obtain ⟨h₁, v, hv, h₂⟩ := ih heq
      obtain rfl : e = (t, q) := by simpa using he
      exact ⟨h₁, v, hv, by simpa using h₂.step hp⟩
  | accept i _ hi ih =>
    obtain ⟨h₁, v, hv, h₂⟩ := ih hes
    exact ⟨h₁, v, hv, h₂.accept i hi⟩
  | giveUp _ hr hgive ih =>
    obtain ⟨h₁, v, hv, h₂⟩ := ih hes
    exact ⟨h₁, v, hv, h₂.giveUp hr hgive⟩

theorem Path.exists_split {b : Backend} {s t u : State} {p : Party} {es : List (State × Party)}
    (h : Path b s es t) (he : (u, p) ∈ es) : ∃ es₁ es₂ v, es = es₁ ++ (u, p) :: es₂ ∧
      Path b s es₁ u ∧ u.advance? b p = some v ∧ Path b v es₂ t := by
  obtain ⟨es₁, es₂, rfl⟩ := List.append_of_mem he
  obtain ⟨h₁, v, hv, h₂⟩ := h.cut
  exact ⟨es₁, es₂, v, rfl, h₁, hv, h₂⟩

/-- Every state that a step of a path is taken in is on the way. -/
theorem Path.exists_of_mem {b : Backend} {s t : State} {es : List (State × Party)}
    (h : Path b s es t) {e : State × Party} (he : e ∈ es) : ∃ es', Path b s es' e.1 := by
  obtain ⟨es₁, -, -, -, h₁, -, -⟩ := h.exists_split he
  exact ⟨es₁, h₁⟩

theorem Reachable.exists_path {b : Backend} {s : State} (h : Reachable b s) :
    ∃ es, Path b {} es s := by
  induction h with
  | initial => exact ⟨[], .refl⟩
  | step _ hp ih =>
    obtain ⟨es, hes⟩ := ih
    obtain ⟨p, hp⟩ := hp
    exact ⟨_, hes.step hp⟩
  | accept i _ hi ih =>
    obtain ⟨es, hes⟩ := ih
    exact ⟨es, hes.accept i hi⟩

end State

/-! ## Walks -/

namespace State

/-- What happens next on a walk. -/
inductive Turn where
  | step (p : Party)
  | input (i : Input)

/-- Whether something may come now. -/
def admits (s : State) : Input → Bool
  | .request _ | .hangUp => s.handler.isEmpty
  | .elapse _ | .release => true

/-- A request comes. -/
def asked (command : String) (arguments : Json) : Turn :=
  .input (.request ⟨1, "request", command, arguments⟩)

/-- A party takes its next `n` steps. -/
def taken (n : Nat) (p : Party) : List Turn :=
  List.replicate n (.step p)

theorem admits_iff (s : State) (i : Input) : s.admits i = true ↔ s.Admits i := by
  cases i <;> simp [admits, Admits]

/-- The steps of a walk and the state that it ends in, if all its turns can be taken. -/
def walk? (b : Backend) (s : State) : List Turn → Option (List (State × Party) × State)
  | [] => some ([], s)
  | .step p :: ts =>
    (s.advance? b p).bind fun t => (t.walk? b ts).map fun w => ((s, p) :: w.1, w.2)
  | .input i :: ts => if s.admits i then (s.accept i).walk? b ts else none

theorem Path.walk {b : Backend} {s t u : State} {es es' : List (State × Party)}
    {ts : List Turn} (h : Path b s es t) (hw : t.walk? b ts = some (es', u)) :
    Path b s (es ++ es') u := by
  induction ts generalizing es t es' with
  | nil =>
    cases hw
    simpa using h
  | cons turn ts ih =>
    cases turn with
    | step p =>
      obtain ⟨t', hp, hw⟩ := Option.bind_eq_some_iff.1 hw
      obtain ⟨w, hrest, heq⟩ := Option.map_eq_some_iff.1 hw
      obtain ⟨rfl, rfl⟩ := Prod.mk.inj heq
      simpa using ih (h.step hp) hrest
    | input i =>
      simp only [walk?] at hw
      split at hw
      next hi => exact ih (h.accept i ((t.admits_iff i).1 hi)) hw
      · cases hw

theorem Reachable.walk {b : Backend} {s t : State} {ts : List Turn} {es : List (State × Party)}
    (h : Reachable b s) (hw : s.walk? b ts = some (es, t)) : Reachable b t := by
  induction ts generalizing s es with
  | nil =>
    cases hw
    exact h
  | cons turn ts ih =>
    cases turn with
    | step p =>
      obtain ⟨u, hp, hw⟩ := Option.bind_eq_some_iff.1 hw
      obtain ⟨⟨es', t'⟩, hrest, heq⟩ := Option.map_eq_some_iff.1 hw
      obtain ⟨-, rfl⟩ := Prod.mk.inj heq
      exact ih (h.step ⟨p, hp⟩) hrest
    | input i =>
      simp only [walk?] at hw
      split at hw
      next hi => exact ih (h.accept i ((s.admits_iff i).1 hi)) hw
      · cases hw

end State

/-! ## Duties and their owners -/

/-- The run that a duty is about. -/
def Duty.subject? : Duty → Option RunId
  | session _ => none
  | run r _ | starter r _ | request r _ | thread r _ => some r

/-- Whether a party may have a duty to do. -/
def Duty.BelongsTo : Duty → Party → Prop
  | session _, .handler | run _ _, .handler | request _ _, .handler => True
  | run r _, .starter r' | starter r _, .starter r' => r = r'
  | run r _, .thread r' | thread r _, .thread r' => r = r'
  | _, _ => False

/-- What a party of a run may have to do is about the run. -/
theorem Duty.subject_of_belongsTo {d : Duty} {r : RunId}
    (h : d.BelongsTo (.starter r) ∨ d.BelongsTo (.thread r)) : d.subject? = some r := by
  cases d <;> simp_all [BelongsTo, subject?]

/-- What a duty on run `r` makes of it. -/
def Duty.stroke? (b : Backend) (s : State) (r : RunId) (run : Run) : Duty → Option Done
  | session _ => none
  | .run _ d => d.perform? r run
  | starter _ d => d.perform? b s r run
  | request _ d => d.perform? b r run
  | thread _ d => d.perform? b s r run

theorem Duty.perform?_of_subject (b : Backend) (s : State) {d : Duty} {r : RunId}
    (h : d.subject? = some r) : d.perform? b s = s.onRun r fun run => d.stroke? b s r run := by
  cases d <;> cases h <;> rfl

/-- A step of a party, by whose duty it was and what it was about. -/
inductive State.Stride (b : Backend) (s t : State) : Party → Prop where
  | session {d : SessionDuty} {ds : List Duty} (hs : s.handler = .session d :: ds)
      (ht : t = { (d.perform b { s with handler := ds }).1 with
        handler := (d.perform b { s with handler := ds }).2 ++ ds }) : Stride b s t .handler
  | handler {r : RunId} {run : Run} {d : Duty} {ds : List Duty} {done : Done}
      (hs : s.handler = d :: ds) (hsub : d.subject? = some r) (hr : s.runs[r]? = some run)
      (hd : d.stroke? b s r run = some done)
      (ht : t = { (s.setRun r done.run).send done.sent with handler := done.next ++ ds }) :
      Stride b s t .handler
  | starter {r : RunId} {run : Run} {d : Duty} {ds : List Duty} {done : Done}
      (hs : run.starter = d :: ds) (hr : s.runs[r]? = some run)
      (hd : d.stroke? b s r { run with starter := ds } = some done)
      (ht : t = (s.setRun r { done.run with starter := done.next ++ done.run.starter }).send
        done.sent) : Stride b s t (.starter r)
  | thread {r : RunId} {run : Run} {d : Duty} {ds : List Duty} {done : Done}
      (hs : run.thread = d :: ds) (hr : s.runs[r]? = some run)
      (hd : d.stroke? b s r { run with thread := ds } = some done)
      (ht : t = (s.setRun r { done.run with thread := done.next ++ done.run.thread }).send
        done.sent) : Stride b s t (.thread r)

/-- Only its own steps change what the handler has to do. -/
theorem State.Stride.handler_eq {b : Backend} {s t : State} {p : Party} (h : s.Stride b t p)
    (hp : p ≠ .handler) : t.handler = s.handler := by
  cases h with
  | session | handler => exact absurd rfl hp
  | starter _ _ _ ht | thread _ _ _ ht =>
    rw [ht]
    rfl

/-- A step of a thread is a stroke of its first duty. -/
theorem State.Stride.exists_stroke {b : Backend} {s t : State} {r : RunId}
    (h : s.Stride b t (.thread r)) : ∃ run d ds done, s.runs[r]? = some run ∧
      run.thread = d :: ds ∧ d.stroke? b s r { run with thread := ds } = some done ∧
      t.runs[r]? = some { done.run with thread := done.next ++ done.run.thread } := by
  cases h with
  | @thread _ run d ds done hds hr hd ht =>
    have hlt : r < s.runs.length := (List.getElem?_eq_some_iff.1 hr).1
    exact ⟨run, d, ds, done, hr, hds, hd, by simp [ht, setRun, send, hlt]⟩

/-! ## Steps are strides -/

theorem State.handler_handle (s : State) (request : Protocol.Request) (c : Protocol.Command) :
    (s.handle request c).1.handler = s.handler := by
  cases c with
  | launch | restart =>
    simp only [handle]
    split <;> rfl
  | _ => rfl

theorem State.handler_prepare (b : Backend) (s : State) (request : Protocol.Request)
    (args : Protocol.LaunchArguments) : (s.prepare b request args).1.handler = s.handler := by
  unfold prepare
  repeat' split
  all_goals rfl

/-- What the handler has to do besides is not touched by a duty on the session. -/
theorem SessionDuty.handler_perform (b : Backend) (s : State) (d : SessionDuty) :
    (d.perform b s).1.handler = s.handler := by
  cases d with
  | handle request =>
    simp only [perform]
    split
    · exact s.handler_handle request _
    · rfl
  | openRun request args => exact s.handler_prepare b request args
  | reportTermination =>
    simp only [perform]
    split <;> rfl
  | _ => simp only [perform, State.send]

theorem State.onRun_set_self {s : State} {r : RunId} {run : Run} (h : s.runs[r]? = some run)
    (run' : Run) (step : Run → Option Done) : (s.setRun r run').onRun r step =
      (step run').map fun done => ((s.setRun r done.run).send done.sent, done.next) := by
  have hlt : r < s.runs.length := (List.getElem?_eq_some_iff.1 h).1
  simp [onRun, setRun, hlt, List.set_set]

theorem State.modify_setRun {s : State} {r : RunId} {run : Run} (h : s.runs[r]? = some run)
    (run' : Run) (f : Run → Run) : (s.setRun r run').runs.modify r f = s.runs.set r (f run') := by
  have hlt : r < s.runs.length := (List.getElem?_eq_some_iff.1 h).1
  rw [modify_eq_set f (a := run') (by simp [setRun, hlt])]
  exact List.set_set ..

/-- A step of a party whose next duty is its own is a stride. -/
theorem State.stride_of_advance? {b : Backend} {s t : State} {p : Party}
    (hown : ∀ d ∈ (s.agenda p).head?, d.BelongsTo p) (h : s.advance? b p = some t) :
    s.Stride b t p := by
  unfold advance? at h
  split at h
  · cases h
  next d ds hds =>
  obtain ⟨⟨u, next⟩, hu, rfl⟩ := Option.map_eq_some_iff.1 h
  have hd : d.BelongsTo p := hown d (by simp [hds])
  cases p with
  | handler =>
    have hs : s.handler = d :: ds := hds
    cases hsub : d.subject? with
    | none =>
      cases d with
      | session d =>
        have hu : d.perform b { s with handler := ds } = (u, next) := Option.some.inj hu
        have hh := SessionDuty.handler_perform b { s with handler := ds } d
        rw [hu] at hh
        refine .session hs ?_
        rw [hu]
        simp only at hh
        simp only [setAgenda, agenda, hh]
      | _ => simp [Duty.subject?] at hsub
    | some r =>
      rw [Duty.perform?_of_subject b _ hsub] at hu
      obtain ⟨run, done, hrun, hdone, heq⟩ := exists_of_onRun hu
      obtain ⟨rfl, rfl⟩ := Prod.mk.inj heq
      exact .handler hs hsub hrun (by cases d <;> exact hdone) rfl
  | starter r =>
    cases hr : s.runs[r]? with
    | none => simp [agenda, hr] at hds
    | some run =>
      have hs : run.starter = d :: ds := by simpa [agenda, hr] using hds
      have hset : s.setAgenda (.starter r) ds = s.setRun r { run with starter := ds } := by
        simp [setAgenda, setRun, modify_eq_set _ hr]
      have hsub : d.subject? = some r := Duty.subject_of_belongsTo (.inl hd)
      rw [Duty.perform?_of_subject b _ hsub, hset, onRun_set_self hr] at hu
      obtain ⟨done, hdone, heq⟩ := Option.map_eq_some_iff.1 hu
      obtain ⟨rfl, rfl⟩ := Prod.mk.inj heq
      have hlt : r < s.runs.length := (List.getElem?_eq_some_iff.1 hr).1
      refine .starter hs hr (by cases d <;> exact hdone) ?_
      have hget : (s.setRun r done.run).runs[r]? = some done.run := by simp [setRun, hlt]
      have hag : ((s.setRun r done.run).send done.sent).agenda (.starter r) = done.run.starter := by
        simp [agenda, send, hget]
      rw [hag]
      simp only [setAgenda, send, modify_setRun hr]
      rfl
  | thread r =>
    cases hr : s.runs[r]? with
    | none => simp [agenda, hr] at hds
    | some run =>
      have hs : run.thread = d :: ds := by simpa [agenda, hr] using hds
      have hset : s.setAgenda (.thread r) ds = s.setRun r { run with thread := ds } := by
        simp [setAgenda, setRun, modify_eq_set _ hr]
      have hsub : d.subject? = some r := Duty.subject_of_belongsTo (.inr hd)
      rw [Duty.perform?_of_subject b _ hsub, hset, onRun_set_self hr] at hu
      obtain ⟨done, hdone, heq⟩ := Option.map_eq_some_iff.1 hu
      obtain ⟨rfl, rfl⟩ := Prod.mk.inj heq
      have hlt : r < s.runs.length := (List.getElem?_eq_some_iff.1 hr).1
      refine .thread hs hr (by cases d <;> exact hdone) ?_
      have hget : (s.setRun r done.run).runs[r]? = some done.run := by simp [setRun, hlt]
      have hag : ((s.setRun r done.run).send done.sent).agenda (.thread r) = done.run.thread := by
        simp [agenda, send, hget]
      rw [hag]
      simp only [setAgenda, send, modify_setRun hr]
      rfl

end DebugAdapter.Session
