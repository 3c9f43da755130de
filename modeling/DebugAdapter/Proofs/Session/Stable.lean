import DebugAdapter.Proofs.Session.Fares
/-!
# What stays true of a run

Most of what is true of a run is kept by what each party does to it, whatever becomes of the other
runs. `Run.Stable` lists what there is to show of such a property, and `Run.Stable.of_path` is that
it then holds on every path. What the handler and the starter do to a run is `RunDuty.Apt`: they
change its phase and set its thread to work only when the thread has nothing to do, or when the
execution is abandoned.

Some properties depend on what the handler still has to do, for it changes a run in several steps.
`Run.Lasting` lists what there is to show of these, case by case of `Run.Fares`, and
`Run.Lasting.of_path` is that they hold on every path.
-/

namespace DebugAdapter.Session

/-- What a duty on a run finds there, when it is not the thread's. -/
def RunDuty.Apt (run : Run) : RunDuty → Prop
  | setPhase .terminated => run.context.isClosed = true
  | setPhase .running | setPhase .awaitingBreakpoints | spawn => run.thread = []
  | setPhase _ => False
  | unlock => run.lock = some .handler
  | _ => True

theorem Run.Orderly.apt_of_handler {r : RunId} {run : Run} {d : RunDuty} {ds : List Duty}
    (h : run.Orderly r (.run r d :: ds)) (hplan : (Duty.run r d).Precedes ds) : d.Apt run := by
  cases d with
  | setPhase phase =>
    cases phase with
    | launching | paused => exact hplan
    | awaitingBreakpoints =>
      obtain ⟨m, rfl⟩ := hplan
      exact (h.unstarted (h.scheduled (by simp)).1).1
    | running =>
      obtain rfl : ds = _ := hplan
      exact h.spawned (.inl (by simp))
    | terminated => exact h.closed ⟨ds, rfl⟩
  | spawn => exact h.spawned (.inl (by simp))
  | unlock => exact h.lock.2 (by simp)
  | _ => trivial

theorem Run.Orderly.apt_of_starter {r : RunId} {hs : List Duty} {run : Run} {d : RunDuty}
    {ds : List Duty} (h : run.Orderly r hs) (hstarter : run.starter = .run r d :: ds) :
    d.Apt run := by
  have hplan := h.starter
  rw [hstarter] at hplan
  cases hplan with
  | running | spawn => exact h.spawned (.inr (by simp [hstarter]))
  | _ => trivial

/-- What there is to show of a property of run `r` that is to stay true by steps of which `A` is
true. -/
structure Run.Stable (b : Backend) (r : RunId) (A : State × Party → Prop) (P : Run → Prop) :
    Prop where
  starter {run : Run} (ds : List Duty) : P run → P { run with starter := ds }
  duty {s : State} {p : Party} {run : Run} {d : RunDuty} {done : Done} :
    A (s, p) → (s.agenda p).head? = some (.run r d) → d.Apt run → d.perform? r run = some done →
      P run → P done.run
  request {run : Run} {d : RequestDuty} {done : Done} : d.Leads r run done → P run → P done.run
  thread {s : State} {run : Run} {d : Duty} {ds : List Duty} {done : Done} :
    A (s, .thread r) → s.runs[r]? = some run → run.Orderly r s.handler → run.thread = d :: ds →
      d.stroke? b s r { run with thread := ds } = some done → P run →
      P { done.run with thread := done.next ++ done.run.thread }
  givenUp {run run' : Run} : run.GivenUp run' → P run → P run'

/-- No path takes a run away. -/
theorem State.Path.runs_none {b : Backend} {s t : State} {es : List (State × Party)}
    (h : Path b s es t) (horder : s.Orderly) {r : RunId} (hr : t.runs[r]? = none) :
    s.runs[r]? = none := by
  induction h with
  | refl => exact hr
  | step hpath hp ih => exact ih (((hpath.orderly horder).stride hp).runs_none hr)
  | accept i _ _ ih => exact ih (by cases i <;> exact hr)
  | giveUp _ _ _ ih => exact ih (by simpa [setRun] using hr)

namespace Run.Stable

variable {b : Backend} {r : RunId} {A : State × Party → Prop} {P : Run → Prop}

/-- A step either keeps the property of run `r` or opens the run. -/
theorem of_stride {s t : State} {p : Party} (h : Run.Stable b r A P) (horder : s.Orderly)
    (hst : s.Stride b t p) (hA : A (s, p)) (hs : ∀ run, s.runs[r]? = some run → P run) {run : Run}
    (hr : t.runs[r]? = some run) :
    P run ∨ s.runs[r]? = none ∧ ∃ s' : State, s'.Opens b run := by
  cases hr₀ : s.runs[r]? with
  | none => exact .inr ⟨rfl, hst.exists_opens hr₀ hr⟩
  | some run₀ =>
    obtain ⟨run', hr', hfares⟩ := hst.fares horder hr₀
    obtain rfl := Option.some.inj (hr.symm.trans hr')
    have hP := hs run₀ hr₀
    have hrun := horder.runs hr₀
    refine .inl ?_
    generalize t.handler = hs' at hfares
    cases hfares with
    | aside | away => exact hP
    | waits => exact h.starter _ hP
    | duty hds hplan hd =>
      rw [hds] at hrun
      exact h.duty hA (by simp [State.agenda, hds]) (hrun.apt_of_handler hplan) hd hP
    | request _ hd => exact h.request hd hP
    | @starts d ds done hds hd =>
      exact h.starter _ (h.duty hA (by simp [State.agenda, hr₀, hds])
        (by cases d <;> exact hrun.apt_of_starter hds) hd (h.starter ds hP))
    | tells hds hd | works hds hd => exact h.thread hA hr₀ hrun hds hd hP

/-- A property of a run stays true on a path from a state where there is the run, or where it is
true of every run that may be opened. -/
theorem of_path {s t : State} {es : List (State × Party)} (h : Run.Stable b r A P)
    (hpath : State.Path b s es t) (horder : s.Orderly) (hA : ∀ e ∈ es, A e)
    (hopens : s.runs[r]? = none → ∀ (s' : State) (run : Run), s'.Opens b run → P run)
    (hs : ∀ run, s.runs[r]? = some run → P run) {run : Run} (hr : t.runs[r]? = some run) :
    P run := by
  induction hpath generalizing run with
  | refl => exact hs run hr
  | @step es t u p hpath hp ih =>
    have hst := (hpath.orderly horder).stride hp
    have ih (run) (hr : t.runs[r]? = some run) : P run := ih (fun e he => hA e (by simp [he])) hr
    rcases h.of_stride (hpath.orderly horder) hst (hA _ (by simp)) ih hr with hP | ⟨ht, s', hopen⟩
    · exact hP
    · exact hopens (hpath.runs_none horder ht) s' run hopen
  | accept i _ _ ih => exact ih hA (by cases i <;> exact hr)
  | giveUp hpath hr' hgive ih =>
    rcases State.getElem?_setRun hr with ⟨rfl, rfl⟩ | ⟨-, hr⟩
    · exact h.givenUp hgive (ih hA hr')
    · exact ih hA hr

end Run.Stable

/-- A property is stable that does not depend on the agendas of a run and that every kind of step
keeps. -/
theorem Run.Stable.of_steps {b : Backend} {r : RunId} {A : State × Party → Prop} {P : Run → Prop}
    (hagendas : ∀ {run : Run} (starter thread : List Duty), P run → P { run with starter, thread })
    (hduty : ∀ {run : Run} {d : RunDuty} {done : Done}, d.perform? r run = some done → P run →
      P done.run)
    (hrequest : ∀ {run : Run} {d : RequestDuty} {done : Done}, d.Leads r run done → P run →
      P done.run)
    (hthread : ∀ {run run' : Run} {d : ThreadDuty}, d.Leaves r run run' → P run → P run')
    (hgivenUp : ∀ {run run' : Run}, run.GivenUp run' → P run → P run') : Run.Stable b r A P where
  starter ds h := hagendas ds _ h
  duty _ _ _ hd h := hduty hd h
  request := hrequest
  thread {s run d ds done} _ _ horder hds hd h := by
    have h : P { run with thread := ds } := hagendas run.starter ds h
    obtain ⟨d, rfl⟩ | ⟨d, rfl⟩ := (hds ▸ horder.thread).head_cases
    · exact hagendas _ _ (hduty hd h)
    · exact hagendas _ _ (hthread (ThreadDuty.leaves_of_perform? hd) h)
  givenUp := hgivenUp

/-- What is stable and true of a run is true of it at the end of a path. -/
theorem State.Path.keeps {b : Backend} {s t : State} {es : List (State × Party)} {r : RunId}
    {run : Run} {P : Run → Prop} (h : Path b s es t) (horder : s.Orderly)
    (hP : Run.Stable b r (fun _ => True) P) (hr : s.runs[r]? = some run) (hrun : P run) :
    ∃ run', t.runs[r]? = some run' ∧ P run' := by
  cases hr' : t.runs[r]? with
  | none => cases hr.symm.trans (h.runs_none horder hr')
  | some run' =>
    refine ⟨run', rfl, hP.of_path h horder (fun _ _ => trivial) (fun hnone => ?_)
      (fun run₀ hr₀ => ?_) hr'⟩
    · cases hr.symm.trans hnone
    · obtain rfl := Option.some.inj (hr.symm.trans hr₀)
      exact hrun

/-! ## Runs that have begun -/

/-- Whether nobody is about to set the thread of run `r` to work. -/
structure Run.Begun (r : RunId) (hs : List Duty) (run : Run) : Prop where
  started : run.started = true
  handler : .run r .spawn ∉ hs
  starter : .run r .spawn ∉ run.starter

theorem Run.Orderly.begun {r : RunId} {hs : List Duty} {run : Run} (h : run.Orderly r hs)
    (hthread : run.thread ≠ []) : run.Begun r hs where
  started := by
    cases hs : run.started with
    | true => rfl
    | false => exact absurd (h.unstarted hs).1 hthread
  handler hm := hthread (h.spawned (.inl hm))
  starter hm := hthread (h.spawned (.inr hm))

/-- Only a run that is not started is set to work. -/
theorem RunDuty.spawn_mem_next {r r' : RunId} {run : Run} {d : RunDuty} {done : Done}
    (hd : d.perform? r run = some done) (hm : .run r' .spawn ∈ done.next) :
    run.started = false := by
  cases d <;> simp only [perform?] at hd <;> (repeat' split at hd) <;> cases hd <;>
    simp_all

theorem RunDuty.started_of_perform? {r : RunId} {run : Run} {d : RunDuty} {done : Done}
    (hd : d.perform? r run = some done) (hs : run.started = true) : done.run.started = true := by
  cases d <;> simp only [perform?] at hd <;> (repeat' split at hd) <;> cases hd <;> simp_all

/-- Only a run that is set to work gives its thread something else to do. -/
theorem RunDuty.thread_of_perform? {r : RunId} {run : Run} {d : RunDuty} {done : Done}
    (hd : d.perform? r run = some done) (hspawn : d ≠ .spawn) : done.run.thread = run.thread := by
  cases d <;> simp only [perform?] at hd <;> (repeat' split at hd) <;> cases hd <;>
    first | rfl | exact absurd rfl hspawn

/-- Only a run whose breakpoints are waited for gives its starter something else to do. -/
theorem RunDuty.starter_of_perform? {r : RunId} {run : Run} {d : RunDuty} {done : Done}
    (hd : d.perform? r run = some done) (hschedule : d ≠ .schedule) :
    done.run.starter = run.starter := by
  cases d <;> simp only [perform?] at hd <;> (repeat' split at hd) <;> cases hd <;>
    first | rfl | exact absurd rfl hschedule

theorem RunDuty.spawn_not_mem_starter {r r' : RunId} {run : Run} {d : RunDuty} {done : Done}
    (hd : d.perform? r run = some done) (hm : .run r' .spawn ∉ run.starter) :
    .run r' .spawn ∉ done.run.starter := by
  cases d <;> simp only [perform?] at hd <;> (repeat' split at hd) <;> cases hd <;> simp_all

theorem RequestDuty.Leads.starter {r : RunId} {run : Run} {d : RequestDuty} {done : Done}
    (hd : d.Leads r run done) : done.run.starter = run.starter := by
  cases hd <;> rfl

theorem RequestDuty.Leads.started {r : RunId} {run : Run} {d : RequestDuty} {done : Done}
    (hd : d.Leads r run done) : done.run.started = run.started := by
  cases hd <;> rfl

theorem RequestDuty.Leads.spawn_not_mem {r r' : RunId} {run : Run} {d : RequestDuty} {done : Done}
    (hd : d.Leads r run done) : .run r' .spawn ∉ done.next := by
  cases hd with
  | look _ hnext | assign _ _ hnext => exact not_mem_of_isAside hnext _ _
  | _ => simp [answer]

/-- The handler is not assigned to set a thread to work. -/
theorem Duty.Assigned.ne_spawn {n : Nat} {r : RunId} {e : Duty} (h : e.Assigned n r) :
    e ≠ .run r .spawn := by
  rintro rfl
  cases h with
  | opening _ hd => simp at hd
  | giveUp hd => simp [abandon] at hd

/-- Whether there is a run `r` that has begun. -/
def State.Begun (r : RunId) (s : State) : Prop :=
  ∃ run, s.runs[r]? = some run ∧ run.Begun r s.handler

/-- A run that has begun is not set to work again. -/
theorem State.Begun.of_stride {b : Backend} {s t : State} {p : Party} {r : RunId}
    (h : s.Begun r) (horder : s.Orderly) (hst : s.Stride b t p) : t.Begun r := by
  obtain ⟨run, hr, hbegun⟩ := h
  obtain ⟨run', hr', hfares⟩ := hst.fares horder hr
  refine ⟨run', hr', ?_⟩
  generalize t.handler = hs' at hfares ⊢
  have hhandler := hbegun.handler
  -- what is only set to work when it is not started is not set to work
  have hnext {run₀ : Run} {d : RunDuty} {done : Done} (hd : d.perform? r run₀ = some done)
      (hs : run₀.started = true) : .run r .spawn ∉ done.next := fun hm => by
    cases hs.symm.trans (RunDuty.spawn_mem_next hd hm)
  cases hfares with
  | @aside d ds next hds hsub hassigned =>
    rw [hds] at hhandler
    refine ⟨hbegun.started, ?_, hbegun.starter⟩
    simp only [List.mem_append, not_or]
    exact ⟨fun hm => (hassigned _ hm rfl).ne_spawn rfl, fun hm => hhandler (by simp [hm])⟩
  | @duty d ds done hds _ hd =>
    rw [hds] at hhandler
    refine ⟨RunDuty.started_of_perform? hd hbegun.started, ?_,
      RunDuty.spawn_not_mem_starter hd hbegun.starter⟩
    simp only [List.mem_append, not_or]
    exact ⟨hnext hd hbegun.started, fun hm => hhandler (by simp [hm])⟩
  | request hds hd =>
    exact ⟨hd.started.trans hbegun.started, hd.spawn_not_mem, hd.starter ▸ hbegun.starter⟩
  | @starts d ds done hds hd =>
    refine ⟨RunDuty.started_of_perform? hd hbegun.started, hhandler, ?_⟩
    simp only [List.mem_append, not_or]
    refine ⟨hnext hd hbegun.started, RunDuty.spawn_not_mem_starter hd fun hm => hbegun.starter ?_⟩
    simp [hds, show .run r .spawn ∈ ds from hm]
  | waits hspawn => exact ⟨hbegun.started, hhandler, fun hm => hbegun.starter (hspawn.1 hm)⟩
  | tells _ hd =>
    exact ⟨RunDuty.started_of_perform? hd hbegun.started, hhandler,
      RunDuty.spawn_not_mem_starter hd hbegun.starter⟩
  | works _ hd =>
    have hkept := (ThreadDuty.leaves_of_perform? hd).kept
    exact ⟨hkept.started.trans hbegun.started, hhandler, hkept.starter ▸ hbegun.starter⟩
  | away => exact hbegun

/-- On a path of a run that has begun no step sets its thread to work. -/
theorem State.Path.not_spawn {b : Backend} {s t : State} {es : List (State × Party)} {r : RunId}
    (h : Path b s es t) (horder : s.Orderly) (hbegun : s.Begun r) :
    t.Begun r ∧ ∀ e ∈ es, (e.1.agenda e.2).head? ≠ some (.run r .spawn) := by
  induction h with
  | refl => exact ⟨hbegun, by simp⟩
  | @step es t u p hpath hp ih =>
    obtain ⟨hbegun, ih⟩ := ih
    have horder := hpath.orderly horder
    refine ⟨hbegun.of_stride horder (horder.stride hp), fun e he => ?_⟩
    rcases List.mem_append.1 he with he | he
    · exact ih e he
    obtain rfl : e = (t, p) := by simpa using he
    intro hhead
    obtain ⟨run, hr, hrun⟩ := hbegun
    obtain ⟨ds, hds⟩ : ∃ ds, t.agenda p = .run r .spawn :: ds := by
      cases hagenda : t.agenda p with
      | nil => simp [hagenda] at hhead
      | cons d ds => exact ⟨ds, by simpa [hagenda] using hhead⟩
    have hown := horder.belongsTo hds
    cases p with
    | handler =>
      have hds : t.handler = _ := hds
      exact hrun.handler (by simp [hds])
    | starter r' =>
      obtain rfl : r = r' := hown
      exact hrun.starter (by simp_all [State.agenda])
    | thread r' =>
      obtain rfl : r = r' := hown
      have hplan := (horder.runs hr).thread
      rw [show run.thread = _ by simpa [State.agenda, hr] using hds] at hplan
      generalize decide (run.lock = some (.thread r)) = holds at hplan
      cases hplan
  | accept i _ _ ih =>
    refine ⟨?_, ih.2⟩
    obtain ⟨run, hr, hrun⟩ := ih.1
    refine ⟨run, by cases i <;> exact hr, hrun.started, ?_, hrun.starter⟩
    cases i <;> simpa [State.accept] using hrun.handler
  | @giveUp es t r' run run' _ hr hgive ih =>
    refine ⟨?_, ih.2⟩
    obtain ⟨run'', hr'', hrun⟩ := ih.1
    by_cases heq : r' = r
    · subst heq
      obtain rfl := Option.some.inj (hr.symm.trans hr'')
      have hlt : r' < t.runs.length := (List.getElem?_eq_some_iff.1 hr).1
      refine ⟨run', by simp [setRun, hlt], ?_⟩
      cases hgive <;> exact ⟨hrun.started, hrun.handler, hrun.starter⟩
    · exact ⟨run'', by simpa [setRun, heq] using hr'', hrun⟩

/-! ## Properties that last -/

/-- What there is to show of a property of run `r`, and of what the handler has to do, that is to
last by steps of which `A` is true. -/
structure Run.Lasting (b : Backend) (r : RunId) (A : State × Party → Prop)
    (P : List Duty → Run → Prop) : Prop where
  fares {s : State} {p : Party} {run run' : Run} {hs : List Duty} : A (s, p) →
    s.runs[r]? = some run → run.Orderly r s.handler → run.Fares b s r p run' hs →
      P s.handler run → P hs run'
  asked {run : Run} (d : SessionDuty) : P [] run → P [.session d] run
  givenUp {hs : List Duty} {run run' : Run} : run.GivenUp run' → P hs run → P hs run'

/-- A property that lasts is true at the end of a path from a state where there is the run, or where
it is true of every run that may be opened. -/
theorem Run.Lasting.of_path {b : Backend} {s t : State} {es : List (State × Party)} {r : RunId}
    {run : Run} {A : State × Party → Prop} {P : List Duty → Run → Prop}
    (h : Run.Lasting b r A P) (hpath : State.Path b s es t) (horder : s.Orderly)
    (hA : ∀ e ∈ es, A e)
    (hopens : s.runs[r]? = none → ∀ (s' : State) (run : Run) (hs : List Duty),
      s'.Opens b run → P hs run)
    (hs : ∀ run, s.runs[r]? = some run → P s.handler run) (hr : t.runs[r]? = some run) :
    P t.handler run := by
  induction hpath generalizing run with
  | refl => exact hs run hr
  | @step es t u p hpath hp ih =>
    have horder' := hpath.orderly horder
    have hst := horder'.stride hp
    cases hr₀ : t.runs[r]? with
    | some run₀ =>
      obtain ⟨run', hr', hfares⟩ := hst.fares horder' hr₀
      obtain rfl := Option.some.inj (hr.symm.trans hr')
      exact h.fares (hA _ (by simp)) hr₀ (horder'.runs hr₀) hfares
        (ih (fun e he => hA e (by simp [he])) hr₀)
    | none =>
      obtain ⟨s', hnew⟩ := hst.exists_opens hr₀ hr
      exact hopens (hpath.runs_none horder hr₀) s' run _ hnew
  | @accept es t i _ hi ih =>
    cases i with
    | request | hangUp =>
      have hnil : t.handler = [] := hi
      have ht := ih hA hr
      rw [hnil] at ht
      rw [State.accept, hnil]
      exact h.asked _ ht
    | elapse | release => exact ih hA hr
  | giveUp hpath hr' hgive ih =>
    rcases State.getElem?_setRun hr with ⟨rfl, rfl⟩ | ⟨-, hr⟩
    · exact h.givenUp hgive (ih hA hr')
    · exact ih hA hr

end DebugAdapter.Session
