import DebugAdapter.Proofs.Session.AtRest
import DebugAdapter.Proofs.Session.PauseOutcome
import DebugAdapter.Proofs.Session.Signals
import DebugAdapter.Proofs.Session.ThreadEnd
/-!
# Pauses are answered

A pause that was accepted is answered once, and what the run does afterwards fits the answer
(`PauseAnswer.Outcome`). Main statement: `pause_answered_once`, on every path from the acceptance of
a pause.
-/

namespace DebugAdapter.Session

open Protocol (Resumption)

variable {b : Backend} {s t u : State} {p : Party} {r : RunId} {run run' : Run} {done : Done}
  {hs ds : List Duty} {es es' : List (State × Party)}

/-! ## From the acceptance to the answer -/

/-- What a step that accepts a pause makes of the run. -/
theorem State.Orderly.of_acceptsPause (horder : s.Orderly)
    (hacc : acceptsPause r (s, .handler) = true) (hp : s.advance? b .handler = some t) :
    ∃ run, s.runs[r]? = some run ∧ run.phase = .running ∧
      t.runs[r]? = some { run with pausePending := true, lock := some .handler } := by
  cases hr : s.runs[r]? with
  | none => simp [acceptsPause, hr] at hacc
  | some run =>
    refine ⟨run, rfl, ?_⟩
    cases hhandler : s.handler with
    | nil => simp [acceptsPause, State.agenda, hr, hhandler] at hacc
    | cons d ds =>
      simp only [acceptsPause, State.agenda, hr, hhandler] at hacc
      split at hacc
      next run' r' request hrun hd =>
        obtain rfl := Option.some.inj hrun
        obtain rfl : d = .request r' (.pause request) := by simpa using hd
        simp only [Bool.and_eq_true, beq_iff_eq] at hacc
        obtain ⟨rfl, hrunning⟩ := hacc
        refine ⟨hrunning, ?_⟩
        cases horder.stride hp with
        | session hs => cases hhandler.symm.trans hs
        | @handler r₀ run₀ d ds' done hs hsub hr₀ hd ht =>
          obtain ⟨rfl, rfl⟩ := List.cons.inj (hhandler.symm.trans hs)
          obtain rfl := Option.some.inj hsub
          obtain rfl := Option.some.inj (hr.symm.trans hr₀)
          have hlt : r' < s.runs.length := (List.getElem?_eq_some_iff.1 hr).1
          simp only [Duty.stroke?, RequestDuty.perform?] at hd
          split at hd <;> cases hd
          simp [ht, setRun, send, hlt, pauseStep, hrunning]
      · cases hacc

/-- A pause is pending as long as no step answers it. -/
theorem State.Path.pausePending (h : Path b s es t) (horder : s.Orderly)
    (hpending : ∃ run, s.runs[r]? = some run ∧ run.pausePending = true)
    (hnone : ∀ e ∈ es, pauseAnswer? r e = none) (hr : t.runs[r]? = some run) :
    run.pausePending = true := by
  obtain ⟨run₀, hr₀, hpending⟩ := hpending
  refine (Run.pending_lasting b r).of_path h horder hnone (fun hnew => ?_) (fun run hr => ?_) hr
  · cases hr₀.symm.trans hnew
  · obtain rfl := Option.some.inj (hr₀.symm.trans hr)
    exact hpending

/-- A thread that says that it is over answers the pause that is pending. -/
theorem EndsThread.pauseAnswer? {e : State × Party} (h : EndsThread r e)
    (hpending : ∀ run, e.1.runs[r]? = some run → run.pausePending = true) :
    pauseAnswer? r e = some .ended := by
  obtain ⟨s, p⟩ := e
  obtain ⟨rfl, hhead⟩ := h
  cases hr : s.runs[r]? with
  | none => simp [State.agenda, hr] at hhead
  | some run =>
    cases hthread : run.thread with
    | nil => simp [State.agenda, hr, hthread] at hhead
    | cons d ds =>
      obtain rfl : d = .run r (.setPhase .terminated) := by
        simpa [State.agenda, hr, hthread] using hhead
      exact pauseAnswer?_ended hr hthread (hpending run hr)

/-- Whether in a step the thread of run `r`, with all of `rest` still to execute, begins to check a
boundary while the run is stepping. -/
def ChecksStepping (r : RunId) (rest : Script.Program) (e : State × Party) : Prop :=
  e.2 = .thread r ∧ ∃ run, e.1.runs[r]? = some run ∧ run.rest = rest ∧
    run.context.stepMode = true ∧ run.thread.head? = some (.thread r .checkClosed)

/-- A thread that begins to check a boundary while a pause is pending and the run is stepping is
about to suspend. -/
theorem State.Stride.suspends (hst : s.Stride b t p) (horder : s.Orderly) {rest : Script.Program}
    (hchecks : ChecksStepping r rest (s, p))
    (hpending : ∀ run, s.runs[r]? = some run → run.pausePending = true) :
    s.Begun r ∧ ∃ run, t.runs[r]? = some run ∧ run.Suspends r rest := by
  obtain ⟨rfl, run, hr, rfl, hmode, hhead⟩ := hchecks
  have hr : s.runs[r]? = some run := hr
  obtain ⟨ds, hthread⟩ : ∃ ds, run.thread = .thread r .checkClosed :: ds := by
    cases hcase : run.thread with
    | nil => simp [hcase] at hhead
    | cons d ds => exact ⟨ds, by simpa [hcase] using hhead⟩
  have hplan := (horder.runs hr).thread
  refine ⟨⟨run, hr, (horder.runs hr).begun (by simp [hthread])⟩, ?_⟩
  rw [hthread] at hplan
  generalize decide (run.lock = some (.thread r)) = holds at hplan
  cases hplan with
  | last =>
    obtain ⟨run', d, ds, done, hr', hds, hd, ht⟩ := hst.exists_stroke
    obtain rfl := Option.some.inj (hr.symm.trans hr')
    obtain ⟨rfl, rfl⟩ := List.cons.inj (hthread.symm.trans hds)
    have hd : ThreadDuty.checkClosed.perform? b s r { run with thread := [] } = some done := hd
    have hleaves := ThreadDuty.leaves_of_perform? hd
    refine ⟨_, ht, (hleaves.pausePending nofun).trans (hpending run hr),
      hleaves.stepMode.trans hmode, hleaves.rest nofun, fun d' hm => ?_⟩
    rcases List.mem_append.1 hm with hm | hm
    · cases ThreadDuty.follows_of_mem_next hd hm <;> rfl
    · rw [hleaves.kept.thread] at hm
      cases hm

/-- A starter that is about to set the thread to work can do so when nobody else can go on. -/
theorem State.Path.spawn_not_mem_of_blocked (h : Path b {} es s) (hr : s.runs[r]? = some run)
    (hnone : ∀ p, s.advance? b p = none) : .run r .spawn ∉ run.starter := by
  intro hspawn
  have horder := h.orderly orderly_empty
  have hfree : run.isFree = true :=
    h.isFree hr (h.unlock_not_mem hr (hnone .handler)) (horder.lock_ne_of_blocked hr (hnone _))
  have hplan := (horder.runs hr).starter
  cases hstarter : run.starter with
  | nil => simp [hstarter] at hspawn
  | cons d ds =>
    rw [hstarter] at hplan hspawn
    have hset : s.setAgenda (.starter r) ds = s.setRun r { run with starter := ds } := by
      simp [setAgenda, setRun, modify_eq_set _ hr]
    have hperform : d.perform? b (s.setRun r { run with starter := ds }) = none := by
      simpa [advance?, agenda, hr, hstarter, hset] using hnone (.starter r)
    have hstep {d : RunDuty} (hd : d.perform? r { run with starter := ds } ≠ none)
        (hnone : (Duty.run r d).perform? b (s.setRun r { run with starter := ds }) = none) :
        False := by
      rw [Duty.perform?_of_subject b _ (r := r) rfl, onRun_set_self hr,
        Option.map_eq_none_iff] at hnone
      exact hd hnone
    cases hplan with
    | cancel | spawn => exact hstep (by simp [RunDuty.perform?]) hperform
    | running =>
      have hphase :
          RunDuty.perform? r { run with starter := [.run r .spawn] } (.setPhase .running) =
            some { run := { run with starter := [.run r .spawn], phase := .running } } :=
        if_pos hfree
      exact hstep (by simp [hphase]) hperform
    | _ => simp at hspawn

section Unanswered

variable (h₀ : State.Path b {} es s) (hpath : State.Path b s es' t)
  (hpending : ∃ run, s.runs[r]? = some run ∧ run.phase = .running ∧ run.pausePending = true)
  (hnone : ∀ e ∈ es', pauseAnswer? r e = none)

include h₀ hpath hpending hnone

/-- At every step of the path the pause is pending. -/
theorem pausePending_of_mem {e : State × Party} (he : e ∈ es') (hr : e.1.runs[r]? = some run) :
    run.pausePending = true := by
  obtain ⟨run₀, hr₀, -, hpending⟩ := hpending
  obtain ⟨es₁, es₂, v, rfl, h₁, -, -⟩ := hpath.exists_split he
  exact h₁.pausePending (h₀.orderly State.orderly_empty) ⟨run₀, hr₀, hpending⟩
    (fun e he => hnone e (by simp [he])) hr

/-- As long as the pause is not answered, the thread has its end before it. -/
theorem isToEnd_of_unanswered (hr : t.runs[r]? = some run) : run.IsToEnd r t.handler := by
  obtain ⟨run₀, hr₀, hrunning, -⟩ := id hpending
  refine (Run.IsToEnd.lasting b r).of_path hpath (h₀.orderly State.orderly_empty)
    (fun e he hends => ?_) (fun hnew => ?_) (fun run hr => ?_) hr
  · cases (hnone e he).symm.trans
      (hends.pauseAnswer? fun run hr => pausePending_of_mem h₀ hpath hpending hnone he hr)
  · cases hr₀.symm.trans hnew
  · obtain rfl := Option.some.inj (hr₀.symm.trans hr)
    exact h₀.goesOn hr₀ (.inl hrunning)

/-- As long as the pause is not answered, a boundary that the thread began to check is not
passed. -/
theorem rest_of_unanswered {rest : Script.Program} {e : State × Party} (he : e ∈ es')
    (hchecks : ChecksStepping r rest e) (hr : t.runs[r]? = some run) : run.rest = rest := by
  obtain ⟨v, p⟩ := e
  obtain ⟨es₁, es₂, w, heq, h₁, hw, h₂⟩ := hpath.exists_split he
  have hv := h₀.trans h₁
  have horder := hv.orderly State.orderly_empty
  have hst := horder.stride hw
  obtain ⟨hbegun, run₁, hr₁, hsuspends⟩ := hst.suspends horder hchecks fun run hr =>
    pausePending_of_mem h₀ hpath hpending hnone he hr
  have hbegun := hbegun.of_stride horder hst
  have horder' := horder.of_stride hst
  have hw := hv.step hw
  refine Run.Suspends.rest (r := r) ((Run.Suspends.lasting b r rest).of_path h₂ horder'
    (fun e he => ?_) (fun hnew => ?_) (fun run hr => ?_) hr)
  · obtain ⟨es₃, -, -, -, h₃, -, -⟩ := h₂.exists_split he
    exact ⟨hnone e (by simp [heq, he]), fun run hr => (hw.trans h₃).heeds hr,
      (h₂.not_spawn horder' hbegun).2 e he⟩
  · cases hr₁.symm.trans hnew
  · obtain rfl := Option.some.inj (hr₁.symm.trans hr)
    exact hsuspends

/-- When nobody can go on and the pause is not answered, the engine stalls the thread. -/
theorem stalls_of_unanswered (hr : t.runs[r]? = some run) (hblocked : ∀ p, t.advance? b p = none) :
    ∃ since, .thread r (.stall since) ∈ run.thread := by
  have ht := h₀.trans hpath
  have hnil : t.handler = [] := ht.handler_of_blocked hblocked
  have hpending' : run.pausePending = true := by
    obtain ⟨run₀, hr₀, -, hpending⟩ := hpending
    exact hpath.pausePending (h₀.orderly State.orderly_empty) ⟨run₀, hr₀, hpending⟩ hnone hr
  rcases ht.cases_of_blocked hr (by simp [hnil]) (hblocked _) with
    hthread | ⟨hthread, hwait⟩ | hstalls
  · rcases isToEnd_of_unanswered h₀ hpath hpending hnone hr with ⟨d, hd, -⟩ | hspawn | hspawn
    · rw [hthread] at hd
      cases hd
    · rw [hnil] at hspawn
      cases hspawn
    · exact absurd hspawn (ht.spawn_not_mem_of_blocked hr hblocked)
  -- A parked thread of a run that is not paused has a signal.
  · have hbalanced := ht.balanced.runs hr
    have hopen : run.context.isClosed = false := by
      cases hclosed : run.context.rendezvous.closed with
      | false => exact hclosed
      | true => simp [Rendezvous.wait?, hclosed] at hwait
    have hphase : run.phase ≠ .paused := by
      rcases (ht.heeds hr).phase hpending' with heq | heq <;> simp [heq]
    have hone := hbalanced.one hopen
      (((ht.orderly State.orderly_empty).runs hr).atStop ⟨[], hthread⟩) hphase
    have hpermits := Rendezvous.permits_of_wait?_none hwait
    rw [hnil] at hone
    simp [owed, hpermits] at hone
  · exact hstalls

end Unanswered

/-! ## After the answer -/

/-- No pause is answered of a run that none is pending for. -/
theorem pauseAnswer?_of_not_pending {e : State × Party}
    (h : ∀ run, e.1.runs[r]? = some run → run.pausePending = false) : pauseAnswer? r e = none := by
  unfold pauseAnswer?
  split <;> simp_all

/-- No pause is pending until one is accepted. -/
theorem Run.notPending_lasting (b : Backend) (r : RunId) : Run.Lasting b r
    (fun e => acceptsPause r e = false) fun _ run => run.pausePending = false where
  fares {s p run run' hs} haccepts hr horder hfares h := by
    cases hfares with
    | aside | waits | away => exact h
    | duty _ _ hd | starts _ hd | tells _ hd => exact (RunDuty.pausePending_of_perform? hd).trans h
    | request hs hd =>
      cases hd with
      | skip => rfl
      | pause _ _ hrunning => simp [acceptsPause, State.agenda, hs, hr, hrunning] at haccepts
      | _ => exact h
    | @works d ds done hs hd =>
      have hleaves := ThreadDuty.leaves_of_perform? hd
      by_cases htake : d = .takePending
      · subst htake
        rw [ThreadDuty.perform?_takePending] at hd
        obtain rfl := Option.some.inj hd
        rfl
      · exact (hleaves.pausePending htake).trans h
  asked _ h := h
  givenUp hgive h := by cases hgive <;> exact h

/-- Whether in a step the thread of run `r` marks its run as paused. -/
def MarksPaused (r : RunId) (e : State × Party) : Prop :=
  e.2 = .thread r ∧ (e.1.agenda e.2).head? = some (.thread r .markPaused)

/-- A run is paused only when its thread marks it so. -/
theorem Run.notPaused_lasting (b : Backend) (r : RunId) : Run.Lasting b r
    (fun e => ¬MarksPaused r e) fun _ run => run.phase ≠ .paused where
  fares {s p run run' hs} hmarks hr horder hfares h := by
    cases hfares with
    | aside | waits | away => exact h
    | duty _ hplan hd =>
      rcases RunDuty.phase_cases hd with heq | ⟨phase, rfl, heq⟩
      · exact heq ▸ h
      · rw [heq]
        rintro rfl
        exact hplan
    | request hs hd =>
      cases hd with
      | release => simp
      | _ => exact h
    | @starts d ds done hs hd =>
      rcases RunDuty.phase_cases hd with heq | ⟨phase, rfl, heq⟩
      · exact heq ▸ h
      · have hplan := horder.starter
        rw [hs] at hplan
        rw [heq]
        rintro rfl
        cases hplan
    | @tells d ds done hs hd =>
      rcases RunDuty.phase_cases hd with heq | ⟨phase, rfl, heq⟩
      · exact heq ▸ h
      · have hplan := horder.thread
        rw [hs] at hplan
        rw [heq]
        rintro rfl
        generalize decide (run.lock = some (.thread r)) = holds at hplan
        cases hplan
    | @works d ds done hs hd =>
      have hsame : done.run.phase = run.phase := by
        refine (ThreadDuty.leaves_of_perform? hd).phase ?_
        rintro rfl
        exact hmarks ⟨rfl, by simp [State.agenda, hr, hs]⟩
      exact hsame ▸ h
  asked _ h := h
  givenUp hgive h := by cases hgive <;> first | exact h | simp

/-- What follows an answer to a pause of run `r`, when all of `rest` was to execute, and the steps
`es` that came after it made `run` of the run. -/
def PauseAnswer.Outcome (r : RunId) (rest : Script.Program) (es : List (State × Party))
    (run : Run) : PauseAnswer → Prop
  -- The thread tells at that boundary that it stopped for the pause.
  | stop => run.StopsForPause r rest ∨ ∃ e ∈ es, TellsPause r rest e
  -- Unless the client steps, or asks to pause again, the thread stops next at a line of which it
  -- read that there is a breakpoint.
  | cancel how => how.steps = false →
      (∀ e ∈ es, acceptsPause r e = false ∧ ¬MarksPaused r e) →
      run.thread.head? = some (.thread r .markPaused) → ∃ e ∈ es, ReadsInstalled r run.rest e
  | ended => run.phase = .terminated ∧ ∀ d, .thread r d ∉ run.thread

/-- What an answer makes of the run, and of what the handler has to do. -/
def PauseAnswer.Leaves (r : RunId) (run : Run) (hs : List Duty) (run' : Run) : PauseAnswer → Prop
  | stop => run'.StopsForPause r run.rest ∧ run.rest ≠ [] ∧ run'.pausePending = false
  | cancel how => run.phase = .running ∧
      run' = { run with pausePending := false, lock := some .handler } ∧ ∃ request,
        hs = [.run r (.setStepMode how.steps), .run r .unlock, answer request (resumeBody how)] ++
          continuedDuties r how
  | ended => run'.IsOver r ∧ run'.Begun r hs

/-- A thread that takes the pause is about to stop for it. -/
theorem State.Stride.of_takePending (hst : s.Stride b t (.thread r)) (horder : s.Orderly)
    (hr : s.runs[r]? = some run) (hthread : run.thread = .thread r .takePending :: ds)
    (hpending : run.pausePending = true) :
    ∃ run', t.runs[r]? = some run' ∧ PauseAnswer.stop.Leaves r run t.handler run' := by
  obtain ⟨run', d, ds', done, hr', hds, hd, ht⟩ := hst.exists_stroke
  obtain rfl := Option.some.inj (hr.symm.trans hr')
  obtain ⟨rfl, rfl⟩ := List.cons.inj (hthread.symm.trans hds)
  have hrun := horder.runs hr
  have hplan := hrun.thread
  rw [hthread] at hplan
  obtain rfl := hplan.eq_of_last rfl
  have hlock := hplan.holds_of_isLocked List.mem_cons_self rfl
  have hrest : run.rest ≠ [] := fun hnil => by
    cases hrun.statement hnil .takePending (by simp [hthread])
  have hd : ThreadDuty.takePending.perform? b s r { run with thread := [] } = some done := hd
  rw [ThreadDuty.perform?_takePending] at hd
  obtain rfl := Option.some.inj hd
  refine ⟨_, ht, ⟨by simpa using hlock, rfl, ?_⟩, hrest, rfl⟩
  simpa [hpending] using StopPlan.readStep

/-- A script that is let go on before it stopped does not stop for the pause. -/
theorem State.Stride.of_resume {request : Protocol.Request} {how : Resumption}
    (hst : s.Stride b t .handler) (horder : s.Orderly) (hr : s.runs[r]? = some run)
    (hs : s.handler = .request r (.resume request how) :: ds) (hrunning : run.phase = .running)
    (hpending : run.pausePending = true) :
    ∃ run', t.runs[r]? = some run' ∧ (PauseAnswer.cancel how).Leaves r run t.handler run' := by
  have hplan := horder.handler
  cases hst with
  | session hs' => cases hs.symm.trans hs'
  | @handler r₀ run₀ d ds' done hs' hsub hr₀ hd ht =>
    obtain ⟨rfl, rfl⟩ := List.cons.inj (hs.symm.trans hs')
    obtain rfl := Option.some.inj hsub
    obtain rfl := Option.some.inj (hr.symm.trans hr₀)
    rw [hs] at hplan
    obtain rfl : ds = [] := hplan.1
    have hlt : r < s.runs.length := (List.getElem?_eq_some_iff.1 hr).1
    simp only [Duty.stroke?, RequestDuty.perform?] at hd
    split at hd <;> cases hd
    rw [ht]
    exact ⟨_, by simp [setRun, send, hlt]; rfl, hrunning,
      by simp [resumeStep, hrunning, hpending], request, by simp [resumeStep, hrunning, hpending]⟩

/-- A thread that says that it is over is over. -/
theorem State.Stride.of_ended (hst : s.Stride b t (.thread r)) (horder : s.Orderly)
    (hr : s.runs[r]? = some run) (hthread : run.thread = .run r (.setPhase .terminated) :: ds) :
    ∃ run', t.runs[r]? = some run' ∧ PauseAnswer.ended.Leaves r run t.handler run' := by
  obtain ⟨run', d, ds', done, hr', hds, hd, ht⟩ := hst.exists_stroke
  obtain rfl := Option.some.inj (hr.symm.trans hr')
  obtain ⟨rfl, rfl⟩ := List.cons.inj (hthread.symm.trans hds)
  have hrun := horder.runs hr
  obtain ⟨run', hr'', hbegun⟩ :=
    State.Begun.of_stride ⟨run, hr, hrun.begun (by simp [hthread])⟩ horder hst
  obtain rfl := Option.some.inj (ht.symm.trans hr'')
  refine ⟨_, ht, ?_, hbegun⟩
  have hplan := hrun.thread
  rw [hthread] at hplan
  generalize decide (run.lock = some (.thread r)) = holds at hplan
  cases hplan
  simp only [Duty.stroke?, RunDuty.perform?] at hd
  split at hd <;> cases hd
  exact ⟨rfl, by simp [Duty.IsWork]⟩

theorem State.Stride.of_pauseAnswer? {a : PauseAnswer} (hst : s.Stride b t p) (horder : s.Orderly)
    (hr : s.runs[r]? = some run) (ha : pauseAnswer? r (s, p) = some a) :
    ∃ run', t.runs[r]? = some run' ∧ a.Leaves r run t.handler run' := by
  cases hagenda : s.agenda p with
  | nil => simp [pauseAnswer?, hr, hagenda] at ha
  | cons d ds =>
    have hown := horder.belongsTo hagenda
    simp only [pauseAnswer?, hr, hagenda, List.head?_cons] at ha
    split at ha
    next run' r' request how hrun hd =>
      obtain rfl := Option.some.inj hrun
      obtain rfl := Option.some.inj hd
      split at ha <;> cases ha
      next hcase =>
        obtain ⟨rfl, hrunning, hpending⟩ := hcase
        cases p with
        | starter | thread => exact hown.elim
        | handler => exact hst.of_resume horder hr hagenda hrunning hpending
    next run' r' hrun hd =>
      obtain rfl := Option.some.inj hrun
      obtain rfl := Option.some.inj hd
      split at ha <;> cases ha
      next hcase =>
        obtain ⟨rfl, hpending⟩ := hcase
        cases p with
        | starter | handler => exact hown.elim
        | thread =>
          obtain rfl : r' = _ := hown
          exact hst.of_takePending horder hr (by simpa [State.agenda, hr] using hagenda) hpending
    next run' r' hrun hd =>
      obtain rfl := Option.some.inj hrun
      obtain rfl := Option.some.inj hd
      split at ha <;> cases ha
      next hcase =>
        obtain ⟨rfl, rfl, -⟩ := hcase
        exact hst.of_ended horder hr (by simpa [State.agenda, hr] using hagenda)
    · cases ha

/-- Nothing answers a pause of a run that is over. -/
theorem pauseAnswer?_of_isOver (horder : s.Orderly)
    (hover : ∀ run, s.runs[r]? = some run → run.IsOver r) : pauseAnswer? r (s, p) = none := by
  cases hr : s.runs[r]? with
  | none => simp [pauseAnswer?, hr]
  | some run =>
    have hover := hover run hr
    cases hagenda : s.agenda p with
    | nil => simp [pauseAnswer?, hr, hagenda]
    | cons d ds =>
      have hthread (hp : p = .thread r) : ¬d.IsWork r := by
        subst hp
        have hthread : run.thread = d :: ds := by simpa [State.agenda, hr] using hagenda
        exact hover.thread d (by simp [hthread])
      have hown := horder.belongsTo hagenda
      simp only [pauseAnswer?, hr, hagenda, List.head?_cons]
      split
      next hrun _ =>
        obtain rfl := Option.some.inj hrun
        simp [hover.phase]
      next hrun hd =>
        obtain rfl := Option.some.inj hd
        refine if_neg fun hcase => ?_
        cases p with
        | starter | handler => exact hown.elim
        | thread =>
          obtain rfl : _ = _ := hown
          exact hthread (by rw [hcase.1]) (.inr ⟨_, by rw [hcase.1]⟩)
      next hrun hd =>
        obtain rfl := Option.some.inj hd
        refine if_neg fun hcase => hthread hcase.2.1 (.inl (by rw [hcase.1]))
      · rfl

/-- A run that is not paused is not let go on from a stop. -/
theorem acceptsResume_of_not_paused {e : State × Party}
    (h : ∀ run, e.1.runs[r]? = some run → run.phase ≠ .paused) : acceptsResume r e = false := by
  obtain ⟨s, p⟩ := e
  cases p with
  | starter | thread => rfl
  | handler =>
    simp only [acceptsResume]
    split
    next hr => simpa using fun _ => h _ hr
    · rfl

/-- A script that is let go on before it stopped, and does not step, passes every boundary without a
breakpoint. -/
theorem Run.passes_of_cancel {how : Resumption} {run₀ : Run} (hsteps : how.steps = false)
    (hleaves : (PauseAnswer.cancel how).Leaves r run₀ hs run) (horder : run.Orderly r hs) :
    run.Passes r es hs := by
  obtain ⟨-, rfl, request, rfl⟩ := hleaves
  have hnot {d : ThreadDuty} (hlocked : d.isLocked = true) : .thread r d ∉ run₀.thread := by
    intro hm
    have hholds := horder.thread.holds_of_isLocked hm hlocked
    simp at hholds
  refine ⟨rfl, .inr ⟨_, by simp [hsteps]; rfl⟩, by simp [hsteps, answer],
    fun hm => absurd hm (hnot rfl), fun hm => absurd hm (hnot rfl), fun {d} hm hstop => ?_⟩
  exact absurd hm (hnot (by cases d <;> first | rfl | cases hstop))

section Answered

variable {rest : Script.Program} (h₀ : State.Path b {} es s) (hpath : State.Path b s es' t)
  (hr : s.runs[r]? = some run)

include h₀ hpath hr

/-- A property that lasts is true of a run that it is true of before. -/
theorem Run.Lasting.of_run {A : State × Party → Prop} {P : List Duty → Run → Prop}
    (hlasts : Run.Lasting b r A P) (hA : ∀ e ∈ es', A e) (hP : P s.handler run)
    (hr' : t.runs[r]? = some run') : P t.handler run' := by
  refine hlasts.of_path hpath (h₀.orderly State.orderly_empty) hA (fun hnew => ?_)
    (fun run₀ hr₀ => ?_) hr'
  · cases hr.symm.trans hnew
  · obtain rfl := Option.some.inj (hr.symm.trans hr₀)
    exact hP

/-- A property that lasts is true at every step of a path. -/
theorem Run.Lasting.of_mem {A : State × Party → Prop} {P : List Duty → Run → Prop}
    (hlasts : Run.Lasting b r A P) (hA : ∀ e ∈ es', A e) (hP : P s.handler run)
    {e : State × Party} (he : e ∈ es') (hr' : e.1.runs[r]? = some run') : P e.1.handler run' := by
  obtain ⟨es₁, es₂, v, rfl, h₁, -, -⟩ := hpath.exists_split he
  exact hlasts.of_run h₀ h₁ hr (fun e he => hA e (by simp [he])) hP hr'

/-- A pause that was answered is not answered again before another one is accepted. -/
theorem pauseAnswer?_of_answered {a : PauseAnswer} {run₀ : Run}
    (hleaves : a.Leaves r run₀ s.handler run) (haccepts : ∀ e ∈ es', acceptsPause r e = false)
    {e : State × Party} (he : e ∈ es') : pauseAnswer? r e = none := by
  have hgone (hpending : run.pausePending = false) : pauseAnswer? r e = none :=
    pauseAnswer?_of_not_pending fun run' hr' =>
      (Run.notPending_lasting b r).of_mem h₀ hpath hr haccepts hpending he hr'
  cases a with
  | stop => exact hgone hleaves.2.2
  | cancel how =>
    obtain ⟨-, rfl, -⟩ := hleaves
    exact hgone rfl
  | ended =>
    obtain ⟨v, p⟩ := e
    obtain ⟨es₁, -, -, -, h₁, -, -⟩ := hpath.exists_split he
    refine pauseAnswer?_of_isOver ((h₀.trans h₁).orderly State.orderly_empty) fun run' hr' => ?_
    exact (Run.IsOver.lasting b r).of_mem h₀ hpath hr
      (fun e he => hpath.leavesBegun (h₀.orderly State.orderly_empty) ⟨run, hr, hleaves.2⟩ he)
      hleaves.1 he hr'

/-- What follows an answer to a pause. -/
theorem PauseAnswer.Leaves.outcome {a : PauseAnswer} {run₀ : Run}
    (hleaves : a.Leaves r run₀ s.handler run) (hr' : t.runs[r]? = some run') :
    a.Outcome r run₀.rest es' run' := by
  cases a with
  | stop =>
    obtain ⟨hstops, hrest, -⟩ := hleaves
    by_cases htells : ∃ e ∈ es', TellsPause r run₀.rest e
    · exact .inr htells
    · refine .inl ((Run.StopsForPause.lasting b r hrest).of_run h₀ hpath hr ?_ hstops hr')
      exact fun e he hte => htells ⟨e, he, hte⟩
  | cancel how =>
    intro hsteps hquiet hmarks
    have hpasses : Run.Passes r es' s.handler run :=
      Run.passes_of_cancel hsteps hleaves ((h₀.orderly State.orderly_empty).runs hr)
    have hphase : run.phase ≠ .paused := by
      obtain ⟨hrunning, rfl, -⟩ := hleaves
      simp [hrunning]
    have hresume (e : State × Party) (he : e ∈ es') : acceptsResume r e = false :=
      acceptsResume_of_not_paused fun run' hr' => (Run.notPaused_lasting b r).of_mem h₀ hpath hr
        (fun e he => (hquiet e he).2) hphase he hr'
    have hpasses' := (Run.Passes.lasting b r es').of_run h₀ hpath hr
      (fun e he => ⟨he, (hquiet e he).1, hresume e he⟩) hpasses hr'
    exact hpasses'.stop (d := .markPaused) (List.mem_of_mem_head? hmarks) rfl
  | ended =>
    have hover := (Run.IsOver.lasting b r).of_run h₀ hpath hr
      (fun e he => hpath.leavesBegun (h₀.orderly State.orderly_empty) ⟨run, hr, hleaves.2⟩ he)
      hleaves.1 hr'
    exact ⟨hover.phase, fun d hm => hover.thread _ hm (.inr ⟨d, rfl⟩)⟩

end Answered

/-- Whenever nobody holds the lock of a run that a pause is pending for, the run is stepping, and it
is running or over. A pause that is accepted is pending until it is answered: until then a boundary
that the thread began to check is not passed, and when nobody can go on the engine stalls the
thread. It is answered once: the thread stops for it at that boundary, the client lets the script go
on, after which it stops only where there is a breakpoint, or the run is over. -/
theorem pause_answered_once {b : Backend} {es : List (State × Party)} {s : State} {r : RunId}
    (h : State.Path b {} es s) :
    (∀ run, s.runs[r]? = some run → run.lock = none → run.pausePending = true →
      run.context.stepMode = true ∧ (run.phase = .running ∨ run.phase = .terminated)) ∧
    ∀ t es' u run, acceptsPause r (s, .handler) = true → s.advance? b .handler = some t →
      State.Path b t es' u → u.runs[r]? = some run →
      ((∀ e ∈ es', pauseAnswer? r e = none) → run.pausePending = true ∧
        (∀ e ∈ es', ∀ rest, ChecksStepping r rest e → run.rest = rest) ∧
        ((∀ p, u.advance? b p = none) → ∃ since, .thread r (.stall since) ∈ run.thread)) ∧
      ∀ es₁ e es₂ a, es' = es₁ ++ e :: es₂ → (∀ e' ∈ es₁, pauseAnswer? r e' = none) →
        pauseAnswer? r e = some a →
          ((∀ e' ∈ es₂, acceptsPause r e' = false) → ∀ e' ∈ es₂, pauseAnswer? r e' = none) ∧
          ∃ rest, (e.1.runs[r]?).map Run.rest = some rest ∧
            (∀ e' ∈ es₁, ∀ rest', ChecksStepping r rest' e' → rest = rest') ∧
            a.Outcome r rest es₂ run ∧
            ((∀ p, u.advance? b p = none) → ¬run.StopsForPause r rest) := by
  refine ⟨fun run hr hlock => h.of_pausePending hr (by simp [hlock]), ?_⟩
  intro t es' u run hacc hp hpath hr
  obtain ⟨run₀, hr₀, hrunning, ht⟩ := (h.orderly State.orderly_empty).of_acceptsPause hacc hp
  have h₀ := h.step hp
  have hpending : ∃ run, t.runs[r]? = some run ∧ run.phase = .running ∧ run.pausePending = true :=
    ⟨_, ht, hrunning, rfl⟩
  refine ⟨fun hnone => ⟨?_, fun e he rest hchecks => ?_, fun hblocked => ?_⟩, ?_⟩
  · exact hpath.pausePending (h₀.orderly State.orderly_empty) ⟨_, ht, rfl⟩ hnone hr
  · exact rest_of_unanswered h₀ hpath hpending hnone he hchecks hr
  · exact stalls_of_unanswered h₀ hpath hpending hnone hr hblocked
  rintro es₁ ⟨v, p⟩ es₂ a rfl hnone ha
  obtain ⟨h₁, w, hw, h₂⟩ := hpath.cut
  have hv := h₀.trans h₁
  have hst := (hv.orderly State.orderly_empty).stride hw
  obtain ⟨run₁, hr₁⟩ : ∃ run₁, v.runs[r]? = some run₁ := by
    cases hr₁ : v.runs[r]? with
    | none => simp [pauseAnswer?, hr₁] at ha
    | some run₁ => exact ⟨run₁, rfl⟩
  obtain ⟨run₂, hr₂, hleaves⟩ := hst.of_pauseAnswer? (hv.orderly State.orderly_empty) hr₁ ha
  refine ⟨fun haccepts e' he' => ?_, run₁.rest, by simp [hr₁], fun e' he' rest' hchecks => ?_,
    hleaves.outcome (hv.step hw) h₂ hr₂ hr, fun hblocked hstops => ?_⟩
  · exact pauseAnswer?_of_answered (hv.step hw) h₂ hr₂ hleaves haccepts he'
  · exact rest_of_unanswered h₀ h₁ hpending hnone he' hchecks hr₁
  · exact ((h₀.trans hpath).orderly State.orderly_empty).lock_ne_of_blocked hr (hblocked _)
      hstops.lock

open State (asked taken) in
/-- A script is about to be asked to pause. -/
def untilPause : List State.Turn :=
  asked "launch" (.object [("path", .string "a")]) :: taken 6 .handler ++ taken 10 (.starter 0) ++
    asked "pause" .null :: taken 1 .handler

open State (taken) in
/-- Its thread comes to its first statement. -/
def untilTaken : List State.Turn :=
  taken 4 .handler ++ taken 8 (.thread 0)

/-- Whether an answer is that the thread stops. -/
def PauseAnswer.isStop : Option PauseAnswer → Bool
  | some stop => true
  | _ => false

theorem PauseAnswer.eq_stop : {a : Option PauseAnswer} → isStop a = true → a = some stop
  | some stop, _ => rfl

theorem pause_answered_once_stopOnce : ∃ es s t es₁ v es₂ u run, State.Path promptBackend {} es s ∧
    acceptsPause 0 (s, .handler) = true ∧ s.advance? promptBackend .handler = some t ∧
    State.Path promptBackend t (es₁ ++ (v, .thread 0) :: es₂) u ∧ u.runs[0]? = some run ∧
    ∃ rest, (v.runs[0]?).map Run.rest = some rest ∧ ∃ e ∈ es₂, TellsPause 0 rest e := by
  have hwalk : (({} : State).walk? promptBackend untilPause).any (fun x =>
      acceptsPause 0 (x.2, .handler) && (x.2.advance? promptBackend .handler).any fun t =>
        (t.walk? promptBackend untilTaken).any fun y =>
          y.1.all (fun e => (pauseAnswer? 0 e).isNone) &&
            PauseAnswer.isStop (pauseAnswer? 0 (y.2, .thread 0)) &&
              (y.2.advance? promptBackend (.thread 0)).any fun w =>
                (w.walk? promptBackend (State.taken 7 (.thread 0))).any fun z =>
                  z.2.runs[0]?.any fun run => run.isFree) = true := by
    decide +kernel
  obtain ⟨⟨es, s⟩, hw, hfacts⟩ := (Option.any_eq_true ..).1 hwalk
  obtain ⟨hacc, hfacts⟩ := (Bool.and_eq_true ..).mp hfacts
  obtain ⟨t, hp, hfacts⟩ := (Option.any_eq_true ..).1 hfacts
  obtain ⟨⟨es₁, v⟩, hw₁, hfacts⟩ := (Option.any_eq_true ..).1 hfacts
  obtain ⟨hanswer, hfacts⟩ := (Bool.and_eq_true ..).mp hfacts
  obtain ⟨hnone, hstop⟩ := (Bool.and_eq_true ..).mp hanswer
  obtain ⟨w, hv, hfacts⟩ := (Option.any_eq_true ..).1 hfacts
  obtain ⟨⟨es₂, u⟩, hw₂, hfacts⟩ := (Option.any_eq_true ..).1 hfacts
  obtain ⟨run, hr, hfree⟩ := (Option.any_eq_true ..).1 hfacts
  have hpath : State.Path promptBackend {} es s := State.Path.refl.walk hw
  have hrest : State.Path promptBackend t (es₁ ++ (v, .thread 0) :: es₂) u := by
    simpa using ((State.Path.refl.walk hw₁).step hv).walk hw₂
  obtain ⟨-, rest, hrest₁, -, houtcome, -⟩ := ((pause_answered_once hpath).2 t _ u run hacc hp hrest
    hr).2 es₁ (v, .thread 0) es₂ .stop rfl (by simpa using hnone) (PauseAnswer.eq_stop hstop)
  refine ⟨es, s, t, es₁, v, es₂, u, run, hpath, hacc, hp, hrest, hr, rest, hrest₁, ?_⟩
  refine houtcome.resolve_left fun hstops => ?_
  simp [Run.isFree, hstops.lock] at hfree

end DebugAdapter.Session
