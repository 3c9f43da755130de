import DebugAdapter.Proofs.Session.Stable
/-!
# Runs that are not started

Until it is started, a run is as it was opened : nobody asked it to step, to pause or to go on, and
it wrote nothing (`Run.Fresh`). `State.Path.unstarted` says so for every run on every path.
-/

namespace DebugAdapter.Session

/-- Whether nobody asked a run for anything. -/
structure Run.Fresh (run : Run) : Prop where
  stepMode : run.context.stepMode = false
  permits : run.context.rendezvous.permits = 0
  pausePending : run.pausePending = false
  held : run.held = fun _ => []
  overrides : run.snapshot.overrides = []
  phase : run.phase ≠ .paused

/-- Whether a duty lets run `r` go on after a stop. -/
def Duty.continues (r : RunId) : Duty → Bool
  | run r' (.setStepMode _) | run r' .signal => r' == r
  | _ => false

/-- Whether the runs that are not started are as they were opened, and stay so. -/
structure State.Unstarted (s : State) : Prop where
  fresh {r : RunId} {run : Run} : s.runs[r]? = some run → run.started = false →
    run.Fresh ∧ run.phase ≠ .running
  idle {r : RunId} {run : Run} : s.runs[r]? = some run → run.started = false →
    ∀ d ∈ s.handler, d.continues r = false

/-! ## Duties that let no run go on -/

theorem Duty.continues_of_subject {d : Duty} {r : RunId} (h : d.subject? ≠ some r) :
    d.continues r = false := by
  cases d with
  | run r' d =>
    have hne : r' ≠ r := fun heq => h (by rw [heq]; rfl)
    cases d <;> simp [continues, hne]
  | _ => rfl

theorem Duty.continues_of_isAside {d : Duty} (h : d.isAside = true) (r : RunId) :
    d.continues r = false := by
  cases d with
  | run r' d => cases h
  | _ => rfl

theorem Duty.Assigned.continues {n : Nat} {r : RunId} {d : Duty} (h : d.Assigned n r) :
    d.continues r = false := by
  cases h with
  | opening _ hd =>
    simp only [List.mem_cons, List.not_mem_nil, or_false] at hd
    rcases hd with rfl | rfl | rfl <;> rfl
  | giveUp hd =>
    simp only [abandon, List.mem_cons, List.not_mem_nil, or_false] at hd
    rcases hd with rfl | rfl | rfl | rfl <;> rfl
  | _ => rfl

/-- What is about run `r` only when it is assigned does not let the run go on. -/
theorem Duty.continues_of_assigned {n : Nat} {r : RunId} {d : Duty}
    (h : d.subject? = some r → d.Assigned n r) : d.continues r = false := by
  by_cases hsub : d.subject? = some r
  · exact (h hsub).continues
  · exact continues_of_subject hsub

/-- A duty on the session lets no run go on. -/
theorem SessionDuty.continues_of_mem_perform {b : Backend} {s : State} {d : SessionDuty}
    (r : RunId) : ∀ e ∈ (d.perform b s).2, e.continues r = false :=
  fun _ he => Duty.continues_of_assigned (assigned_of_mem_perform he)

/-! ## Steps -/

theorem Run.Fresh.of_opens {b : Backend} {s : State} {run : Run} (h : s.Opens b run) :
    run.Fresh ∧ run.phase ≠ .running := by
  cases h
  exact ⟨⟨rfl, rfl, rfl, rfl, rfl, by simp⟩, by simp⟩

/-- A run stays fresh by what starts it. -/
theorem Run.Fresh.of_duty {r : RunId} {run : Run} {d : RunDuty} {done : Done} (h : run.Fresh)
    (hd : d.perform? r run = some done) (hcontinues : (Duty.run r d).continues r = false)
    (hphase : ∀ phase, d = .setPhase phase → phase ≠ .paused) : done.run.Fresh := by
  cases d <;> simp only [RunDuty.perform?] at hd <;> (repeat' split at hd) <;> cases hd
  case setStepMode | signal => simp [Duty.continues] at hcontinues
  case setPhase phase _ =>
    exact ⟨h.stepMode, h.permits, h.pausePending, h.held, h.overrides, hphase phase rfl⟩
  case closeContext => exact ⟨h.stepMode, rfl, h.pausePending, h.held, h.overrides, h.phase⟩
  all_goals exact ⟨h.stepMode, h.permits, h.pausePending, h.held, h.overrides, h.phase⟩

theorem Run.Fresh.of_start {r : RunId} {run : Run} {d : RunDuty} {done : Done} (h : run.Fresh)
    (hrunning : run.phase ≠ .running) (hd : d.perform? r run = some done)
    (hcontinues : (Duty.run r d).continues r = false)
    (hphase : ∀ phase, d = .setPhase phase → phase ≠ .running ∧ phase ≠ .paused) :
    done.run.Fresh ∧ done.run.phase ≠ .running := by
  refine ⟨h.of_duty hd hcontinues fun phase heq => (hphase phase heq).2, ?_⟩
  cases d <;> simp only [RunDuty.perform?] at hd <;> (repeat' split at hd) <;> cases hd
  case setPhase phase _ => exact (hphase phase rfl).1
  all_goals exact hrunning

theorem Run.Fresh.with_starter {run : Run} (h : run.Fresh) (ds : List Duty) :
    Run.Fresh { run with starter := ds } :=
  ⟨h.stepMode, h.permits, h.pausePending, h.held, h.overrides, h.phase⟩

theorem RunDuty.continues_of_mem_next {r r' : RunId} {run : Run} {d : RunDuty} {done : Done}
    (hd : d.perform? r run = some done) : ∀ e ∈ done.next, e.continues r' = false := by
  cases d <;> simp only [perform?] at hd <;> (repeat' split at hd) <;> cases hd <;>
    simp [Duty.continues]

/-- A run that is not started is only looked at. -/
theorem Run.Fresh.of_request {r : RunId} {run : Run} {d : RequestDuty} {done : Done}
    (h : run.Fresh) (hrunning : run.phase ≠ .running) (hd : d.Leads r run done) :
    (done.run.Fresh ∧ done.run.phase ≠ .running) ∧ ∀ e ∈ done.next, e.continues r = false := by
  cases hd with
  | look hagrees hnext =>
    have hoverrides := hagrees.2.trans h.overrides
    exact ⟨⟨⟨h.stepMode, h.permits, h.pausePending, h.held, hoverrides, h.phase⟩, hrunning⟩,
      fun e he => Duty.continues_of_isAside (hnext e he) r⟩
  | start m => exact ⟨⟨h, hrunning⟩, by simp [Duty.continues]⟩
  | assign hpaused => exact absurd hpaused h.phase
  | release _ _ _ hpaused => exact absurd hpaused h.phase
  | skip _ _ _ hrun => exact absurd hrun hrunning
  | pause _ _ hrun => exact absurd hrun hrunning

/-- No step takes back that a run is started. -/
theorem Run.Fares.started {b : Backend} {s : State} {p : Party} {r : RunId} {run run' : Run}
    {hs : List Duty} (h : run.Fares b s r p run' hs) (hs : run.started = true) :
    run'.started = true := by
  cases h with
  | aside | waits | away => exact hs
  | duty _ _ hd | starts _ hd | tells _ hd => exact RunDuty.started_of_perform? hd hs
  | request _ hd => exact hd.started.trans hs
  | works _ hd => exact (ThreadDuty.leaves_of_perform? hd).kept.started.trans hs

namespace State

variable {b : Backend} {s t : State} {p : Party}

/-- What the handler and the starter do to a run that is not started does not set it to a phase that
it only has later. -/
theorem Orderly.setPhase_of_unstarted {r : RunId} {run : Run} {phase : Phase} {ds : List Duty}
    (horder : s.Orderly) (hr : s.runs[r]? = some run) (hstarted : run.started = false)
    (hs : s.handler = .run r (.setPhase phase) :: ds ∨
      run.starter = .run r (.setPhase phase) :: ds) : phase ≠ .running ∧ phase ≠ .paused := by
  have hrun := horder.runs hr
  rcases hs with hs | hs
  · have hplan := horder.handler
    rw [hs] at hplan
    have hprecedes := hplan.1
    refine ⟨?_, ?_⟩
    · rintro rfl
      obtain rfl : ds = _ := hprecedes
      exact (hrun.unstarted hstarted).2.1 (by simp [hs])
    · rintro rfl
      exact hprecedes
  · have hplan := hrun.starter
    rw [hs] at hplan
    cases hplan with
    | running => exact absurd (by simp [hs]) (hrun.unstarted hstarted).2.2

/-- What a step makes of a run that is not started, and what the handler then has to do about it. -/
theorem Unstarted.of_fares {r : RunId} {run run' : Run} {hs : List Duty} (h : s.Unstarted)
    (horder : s.Orderly) (hr : s.runs[r]? = some run) (hfares : run.Fares b s r p run' hs)
    (hstarted : run'.started = false) :
    (run'.Fresh ∧ run'.phase ≠ .running) ∧ ∀ d ∈ hs, d.continues r = false := by
  have hbefore : run.started = false :=
    Bool.eq_false_iff.2 fun hs => by cases hstarted.symm.trans (hfares.started hs)
  have hfresh := h.fresh hr hbefore
  have hidle := h.idle hr hbefore
  have hrun := horder.runs hr
  have hrest {d : Duty} {ds next : List Duty} (hds : s.handler = d :: ds)
      (hnext : ∀ e ∈ next, e.continues r = false) :
      ∀ e ∈ next ++ ds, e.continues r = false := fun e he =>
    (List.mem_append.1 he).elim (hnext e) fun he => hidle e (by simp [hds, he])
  cases hfares with
  | aside hds hsub hassigned =>
    exact ⟨hfresh, hrest hds fun e he => Duty.continues_of_assigned (hassigned e he)⟩
  | @duty d ds done hds _ hd =>
    have hcontinues := hidle (.run r d) (by simp [hds])
    refine ⟨hfresh.1.of_start hfresh.2 hd hcontinues fun phase heq => ?_,
      hrest hds (RunDuty.continues_of_mem_next hd)⟩
    exact horder.setPhase_of_unstarted hr hbefore (.inl (heq ▸ hds))
  | request _ hd => exact hfresh.1.of_request hfresh.2 hd
  | @starts d ds done hds hd =>
    have hplan := hrun.starter
    rw [hds] at hplan
    have hcontinues : (Duty.run r d).continues r = false := by cases hplan <;> rfl
    have hdone := (hfresh.1.with_starter ds).of_start hfresh.2 hd hcontinues fun phase heq =>
      horder.setPhase_of_unstarted hr hbefore (.inr (heq ▸ hds))
    exact ⟨⟨hdone.1.with_starter _, hdone.2⟩, hidle⟩
  | waits => exact ⟨⟨hfresh.1.with_starter _, hfresh.2⟩, hidle⟩
  | tells hds | works hds => cases hds.symm.trans (hrun.unstarted hbefore).1
  | away => exact ⟨hfresh, hidle⟩

/-- The handler is not about to let a run go on that it just opened. -/
theorem Stride.continues_of_opens {r : RunId} {run : Run} (hst : s.Stride b t p)
    (horder : s.Orderly) (hr : s.runs[r]? = none) (hr' : t.runs[r]? = some run) :
    ∀ d ∈ t.handler, d.continues r = false := by
  obtain ⟨-, request, args, ds, hs, ht⟩ := hst.openRun_of_new hr hr'
  have hplan := horder.handler
  rw [hs] at hplan
  obtain rfl : ds = [] := hplan.1
  simpa [ht] using SessionDuty.continues_of_mem_perform r

theorem Unstarted.of_stride (h : s.Unstarted) (horder : s.Orderly) (hst : s.Stride b t p) :
    t.Unstarted := by
  have hboth {r : RunId} {run : Run} (hr : t.runs[r]? = some run) (hstarted : run.started = false) :
      (run.Fresh ∧ run.phase ≠ .running) ∧ ∀ d ∈ t.handler, d.continues r = false := by
    cases hr₀ : s.runs[r]? with
    | some run₀ =>
      obtain ⟨run', hr', hfares⟩ := hst.fares horder hr₀
      obtain rfl := Option.some.inj (hr.symm.trans hr')
      exact h.of_fares horder hr₀ hfares hstarted
    | none =>
      obtain ⟨s', hopens⟩ := hst.exists_opens hr₀ hr
      exact ⟨Run.Fresh.of_opens hopens, hst.continues_of_opens horder hr₀ hr⟩
  exact ⟨fun hr hstarted => (hboth hr hstarted).1, fun hr hstarted => (hboth hr hstarted).2⟩

theorem Unstarted.of_givenUp {r : RunId} {run run' : Run} (h : s.Unstarted)
    (hr : s.runs[r]? = some run) (hgive : run.GivenUp run') : (s.setRun r run').Unstarted := by
  have hstarted : run'.started = run.started := by cases hgive <;> rfl
  refine ⟨fun hr' hs => ?_, fun hr' hs => ?_⟩
  · rcases getElem?_setRun hr' with ⟨rfl, rfl⟩ | ⟨-, hr'⟩
    · obtain ⟨hfresh, hrunning⟩ := h.fresh hr (hstarted.symm.trans hs)
      cases hgive with
      | terminate =>
        exact ⟨⟨hfresh.stepMode, hfresh.permits, hfresh.pausePending, hfresh.held,
          hfresh.overrides, nofun⟩, nofun⟩
      | closeContext =>
        exact ⟨⟨hfresh.stepMode, rfl, hfresh.pausePending, hfresh.held, hfresh.overrides,
          hfresh.phase⟩, hrunning⟩
      | _ =>
        exact ⟨⟨hfresh.stepMode, hfresh.permits, hfresh.pausePending, hfresh.held,
          hfresh.overrides, hfresh.phase⟩, hrunning⟩
    · exact h.fresh hr' hs
  · rcases getElem?_setRun hr' with ⟨rfl, rfl⟩ | ⟨-, hr'⟩
    · exact h.idle hr (hstarted.symm.trans hs)
    · exact h.idle hr' hs

/-- On every path, the runs that are not started are as they were opened. -/
theorem Path.unstarted {es : List (State × Party)} (h : Path b {} es s) : s.Unstarted := by
  induction h with
  | refl => exact ⟨by simp, by simp⟩
  | step hpath hp ih =>
    have horder := hpath.orderly orderly_empty
    exact ih.of_stride horder (horder.stride hp)
  | @accept es t i _ _ ih =>
    have hruns : (t.accept i).runs = t.runs := by cases i <;> rfl
    refine ⟨fun hr => ?_, fun hr hs => ?_⟩
    · rw [hruns] at hr
      exact ih.fresh hr
    · rw [hruns] at hr
      have hidle := ih.idle hr hs
      cases i with
      | request | hangUp =>
        refine fun d hd => (List.mem_append.1 hd).elim (hidle d) fun hd => ?_
        obtain rfl := List.mem_singleton.1 hd
        rfl
      | _ => exact hidle
  | giveUp _ hr hgive ih => exact ih.of_givenUp hr hgive

end State

end DebugAdapter.Session
