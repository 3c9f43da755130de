import DebugAdapter.Proofs.Session.PausePending
/-!
# What becomes of a pause

A pause that was accepted is answered in one way (`pauseAnswer?`): the thread takes it, the handler
cancels it, or the thread is over. Until then it is pending (`Run.pending_lasting`), and a boundary
that the thread comes to is not passed (`Run.Suspends.lasting`). A thread that takes the pause tells
that it stopped for it (`Run.StopsForPause.lasting`). After a cancellation that does not step, it
stops only where it reads that there is a breakpoint (`Run.Passes.lasting`).
-/

namespace DebugAdapter.Session

open Protocol (Resumption)

variable {b : Backend} {s t u : State} {p : Party} {r : RunId} {run run' : Run} {done : Done}
  {hs hs' ds next : List Duty} {es es' : List (State × Party)} {e : State × Party}

/-! ## Answers -/

/-- Whether a step accepts a request to pause run `r`. -/
def acceptsPause (r : RunId) (e : State × Party) : Bool :=
  match e.1.runs[r]?, (e.1.agenda e.2).head? with
  | some run, some (.request r' (.pause _)) => r' == r && run.phase == .running
  | _, _ => false

/-- What answers a pause. -/
inductive PauseAnswer where
  /-- The thread stops. -/
  | stop
  /-- The script is let go on before it stopped. -/
  | cancel (how : Resumption)
  /-- The execution is over, as its script came to its end or was abandoned. -/
  | ended

/-- How a step answers a pause that is pending for run `r`. -/
def pauseAnswer? (r : RunId) (e : State × Party) : Option PauseAnswer :=
  match e.1.runs[r]?, (e.1.agenda e.2).head? with
  | some run, some (.request r' (.resume _ how)) =>
    if r' = r ∧ run.phase = .running ∧ run.pausePending = true then some (.cancel how) else none
  | some run, some (.thread r' .takePending) =>
    if r' = r ∧ run.pausePending = true then some .stop else none
  | some run, some (.run r' (.setPhase .terminated)) =>
    if r' = r ∧ e.2 = .thread r ∧ run.pausePending = true then some .ended else none
  | _, _ => none

theorem pauseAnswer?_resume {request : Protocol.Request} {how : Resumption}
    (hr : s.runs[r]? = some run) (hs : s.handler = .request r (.resume request how) :: ds)
    (hrunning : run.phase = .running) (hpending : run.pausePending = true) :
    pauseAnswer? r (s, .handler) = some (.cancel how) := by
  simp [pauseAnswer?, State.agenda, hr, hs, hrunning, hpending]

theorem pauseAnswer?_takePending (hr : s.runs[r]? = some run)
    (hthread : run.thread = .thread r .takePending :: ds) (hpending : run.pausePending = true) :
    pauseAnswer? r (s, .thread r) = some .stop := by
  simp [pauseAnswer?, State.agenda, hr, hthread, hpending]

theorem pauseAnswer?_ended (hr : s.runs[r]? = some run)
    (hthread : run.thread = .run r (.setPhase .terminated) :: ds)
    (hpending : run.pausePending = true) : pauseAnswer? r (s, .thread r) = some .ended := by
  simp [pauseAnswer?, State.agenda, hr, hthread, hpending]

/-! ## Until the answer -/

/-- A pause is pending until it is answered. -/
theorem Run.pending_lasting (b : Backend) (r : RunId) : Run.Lasting b r
    (fun e => pauseAnswer? r e = none) fun _ run => run.pausePending = true where
  fares {s p run run' hs} hnone hr horder hfares h := by
    cases hfares with
    | aside | waits | away => exact h
    | duty _ _ hd => exact (RunDuty.pausePending_of_perform? hd).trans h
    | starts _ hd | tells _ hd => exact (RunDuty.pausePending_of_perform? hd).trans h
    | request hs hd =>
      cases hd with
      | skip _ _ _ hrunning =>
        cases hnone.symm.trans (pauseAnswer?_resume hr hs hrunning h)
      | pause => rfl
      | _ => exact h
    | @works d ds done hs hd =>
      have hleaves := ThreadDuty.leaves_of_perform? hd
      by_cases htake : d = .takePending
      · subst htake
        cases hnone.symm.trans (pauseAnswer?_takePending hr hs h)
      · exact (hleaves.pausePending htake).trans h
  asked _ h := h
  givenUp hgive h := by cases hgive <;> exact h

/-- What a duty of the thread may be once it was told to suspend, before it takes the pause. -/
def ThreadDuty.isChecking : ThreadDuty → Bool
  | checkStep | stall _ | suspend | lock | checkLive | takePending | conclude _ => true
  | _ => false

/-- A thread that checks whether to suspend while its run is stepping suspends, or is over. -/
theorem ThreadDuty.Follows.isChecking {d d' : ThreadDuty} (h : Follows run d d')
    (hd : d.isChecking = true) (htake : d ≠ .takePending) (hmode : run.context.stepMode = true) :
    d'.isChecking = true := by
  cases h <;> simp_all [ThreadDuty.isChecking]

/-- Whether a run that a pause is pending for is about to suspend, with all of `rest` still to
execute, or is over. -/
structure Run.Suspends (r : RunId) (rest : Script.Program) (run : Run) : Prop where
  pending : run.pausePending = true
  stepMode : run.context.stepMode = true
  rest : run.rest = rest
  checking : ∀ d, .thread r d ∈ run.thread → d.isChecking = true

/-- Whether a step neither answers the pause that is pending for run `r` nor sets its thread to
work, in a state in which the run heeds the pause. -/
structure LeavesPause (r : RunId) (e : State × Party) : Prop where
  unanswered : pauseAnswer? r e = none
  heeds : ∀ run, e.1.runs[r]? = some run → run.Heeds r e.1.handler
  spawn : (e.1.agenda e.2).head? ≠ some (.run r .spawn)

theorem Run.Suspends.of_duty {rest : Script.Program} {d : RunDuty} (h : run.Suspends r rest)
    (hd : d.perform? r run = some done) (hspawn : d ≠ .spawn) (hoff : d ≠ .setStepMode false) :
    done.run.Suspends r rest where
  pending := (RunDuty.pausePending_of_perform? hd).trans h.pending
  stepMode := by
    by_cases hon : d = .setStepMode true
    · subst hon
      obtain rfl := Option.some.inj hd
      rfl
    · refine (RunDuty.stepMode_of_perform? hd fun on => ?_).trans h.stepMode
      cases on <;> assumption
  rest := (RunDuty.asked hd).rest.trans h.rest
  checking d' hm := h.checking d' (RunDuty.thread_of_perform? hd hspawn ▸ hm)

/-- A boundary that is checked while a pause is pending is not passed before the pause is
answered. -/
theorem Run.Suspends.lasting (b : Backend) (r : RunId) (rest : Script.Program) :
    Run.Lasting b r (LeavesPause r) fun _ run => run.Suspends r rest where
  fares {s p run run' hs} hleaves hr horder hfares h := by
    have hheeds := hleaves.heeds run hr
    have hnot {d : RunDuty} (hhead : (s.agenda p).head? = some (.run r d)) : d ≠ .spawn := by
      rintro rfl
      exact hleaves.spawn hhead
    cases hfares with
    | aside | away => exact h
    | waits => exact ⟨h.pending, h.stepMode, h.rest, h.checking⟩
    | duty hs _ hd =>
      refine h.of_duty hd (hnot (by simp [State.agenda, hs])) ?_
      rintro rfl
      exact Bool.false_ne_true ((hheeds.off (by simp [hs])).symm.trans h.pending)
    | request hs hd =>
      cases hd with
      | skip _ _ _ hrunning hpending =>
        cases hleaves.unanswered.symm.trans (pauseAnswer?_resume hr hs hrunning hpending)
      | release => exact ⟨h.pending, h.stepMode, h.rest, h.checking⟩
      | pause => exact ⟨rfl, h.stepMode, h.rest, h.checking⟩
      | _ => exact ⟨h.pending, h.stepMode, h.rest, h.checking⟩
    | @starts d ds done hs hd =>
      have hplan := horder.starter
      rw [hs] at hplan
      have hbefore : Run.Suspends r rest { run with starter := ds } :=
        ⟨h.pending, h.stepMode, h.rest, h.checking⟩
      have hafter := hbefore.of_duty hd (hnot (by simp [State.agenda, hr, hs]))
        (by cases hplan <;> simp)
      exact ⟨hafter.pending, hafter.stepMode, hafter.rest, hafter.checking⟩
    | @tells d ds done hs hd =>
      have hplan := horder.thread
      rw [hs] at hplan
      generalize decide (run.lock = some (.thread r)) = holds at hplan
      have hbefore : Run.Suspends r rest { run with thread := ds } :=
        ⟨h.pending, h.stepMode, h.rest, fun d hm => h.checking d (by simp [hs, hm])⟩
      have hafter := hbefore.of_duty hd (hnot (by simp [State.agenda, hr, hs]))
        (by cases hplan <;> simp)
      refine ⟨hafter.pending, hafter.stepMode, hafter.rest, fun d' hm => hafter.checking d' ?_⟩
      exact (List.mem_append.1 hm).resolve_left (RunDuty.thread_not_mem_next hd d')
    | @works d ds done hs hd =>
      have hperformed := ThreadDuty.leaves_of_perform? hd
      have hchecking := h.checking d (by simp [hs])
      have htake : d ≠ .takePending := by
        rintro rfl
        cases hleaves.unanswered.symm.trans (pauseAnswer?_takePending hr hs h.pending)
      refine ⟨(hperformed.pausePending htake).trans h.pending,
        hperformed.stepMode.trans h.stepMode, (hperformed.rest ?_).trans h.rest, fun d' hm => ?_⟩
      · rintro rfl
        cases hchecking
      · rcases List.mem_append.1 hm with hm | hm
        · exact (ThreadDuty.follows_of_mem_next hd hm).isChecking hchecking htake h.stepMode
        · rw [hperformed.kept.thread] at hm
          exact h.checking d' (by simp [hs, hm])
  asked _ h := h
  givenUp hgive h := by cases hgive <;> exact ⟨h.pending, h.stepMode, h.rest, h.checking⟩

/-! ## Stops -/

/-- Whether in a step the thread of run `r`, which it marked as paused when all of `rest` was to
execute, tells that it stopped for a pause. -/
def TellsPause (r : RunId) (rest : Script.Program) (e : State × Party) : Prop :=
  e.2 = .thread r ∧ ∃ run ds, e.1.runs[r]? = some run ∧ run.rest = rest ∧ run.phase = .paused ∧
    run.thread = .run r (.emit (stopped .pause)) :: ds

/-- The agendas of a thread that took a pause, until it told so. -/
inductive StopPlan (r : RunId) (phase : Phase) : List Duty → Prop where
  | readStep : StopPlan r phase [.thread r (.readStep true)]
  | readLine (stepping : Bool) : StopPlan r phase [.thread r (.readLine true stepping)]
  | capture (e : Protocol.Event) : StopPlan r phase
      (.thread r .capture :: .thread r .markPaused :: publication r (stopped .pause) e)
  | markPaused (e : Protocol.Event) :
      StopPlan r phase (.thread r .markPaused :: publication r (stopped .pause) e)
  | publish (e : Protocol.Event) (hpaused : phase = .paused) :
      StopPlan r phase (publication r (stopped .pause) e)

/-- Whether the thread of run `r` took a pause when all of `rest` was to execute, and has not told
so yet. -/
structure Run.StopsForPause (r : RunId) (rest : Script.Program) (run : Run) : Prop where
  lock : run.lock = some (.thread r)
  rest : run.rest = rest
  plan : StopPlan r run.phase run.thread

/-- The lock keeps everybody else from a run whose thread has it. -/
theorem RunDuty.eq_of_locked {d : RunDuty} (hd : d.perform? r run = some done)
    (hlock : run.lock = some (.thread r)) (hunlock : d ≠ .unlock) (hspawn : d ≠ .spawn) :
    done.run.lock = run.lock ∧ done.run.rest = run.rest ∧ done.run.phase = run.phase ∧
      done.run.thread = run.thread := by
  cases d <;> simp only [perform?] at hd <;> (repeat' split at hd) <;> cases hd <;>
    simp_all [Run.isFree]

theorem Run.StopsForPause.thread_ne_nil {rest : Script.Program} (h : run.StopsForPause r rest) :
    run.thread ≠ [] := by
  intro hnil
  have hplan := h.plan
  rw [hnil] at hplan
  cases hplan

/-- What the thread does next after it took a pause. -/
theorem StopPlan.of_works {d : ThreadDuty} (h : StopPlan r run.phase (.thread r d :: ds))
    (hrest : run.rest ≠ []) (hd : d.perform? b s r { run with thread := ds } = some done) :
    done.run.lock = run.lock ∧ done.run.rest = run.rest ∧
      StopPlan r done.run.phase (done.next ++ done.run.thread) := by
  cases hcase : run.rest with
  | nil => exact absurd hcase hrest
  | cons stmt rest =>
    simp only [ThreadDuty.perform?, hcase] at hd
    cases h with
    | readStep =>
      obtain rfl := Option.some.inj hd
      exact ⟨rfl, rfl, .readLine _⟩
    | readLine stepping =>
      obtain rfl := Option.some.inj hd
      exact ⟨rfl, rfl, .capture _⟩
    | capture e =>
      obtain rfl := Option.some.inj hd
      exact ⟨rfl, rfl, .markPaused e⟩
    | markPaused e =>
      obtain rfl := Option.some.inj hd
      exact ⟨rfl, rfl, .publish e rfl⟩

/-- A thread that took a pause tells that it stopped for it before it does anything else. -/
theorem Run.StopsForPause.lasting (b : Backend) (r : RunId) {rest : Script.Program}
    (hrest : rest ≠ []) : Run.Lasting b r (fun e => ¬TellsPause r rest e)
      fun _ run => run.StopsForPause r rest where
  fares {s p run run' hs} htells hr horder hfares h := by
    have hbusy : run.isFree = false := by simp [Run.isFree, h.lock]
    have hspawn (hmem : .run r .spawn ∈ s.handler ∨ .run r .spawn ∈ run.starter) :
        False := h.thread_ne_nil (horder.spawned hmem)
    cases hfares with
    | aside | away => exact h
    | waits => exact ⟨h.lock, h.rest, h.plan⟩
    | @duty d ds done hs hplan hd =>
      have hunlock : d ≠ .unlock := by
        rintro rfl
        cases (horder.lock.2 (by simp [hs])).symm.trans h.lock
      have hnot : d ≠ .spawn := by
        rintro rfl
        exact hspawn (.inl (by simp [hs]))
      obtain ⟨hlock, hrest, hphase, hthread⟩ := RunDuty.eq_of_locked hd h.lock hunlock hnot
      exact ⟨hlock.trans h.lock, hrest.trans h.rest, by rw [hphase, hthread]; exact h.plan⟩
    | request hs hd =>
      cases hd with
      | release _ _ hfree | skip _ _ hfree | pause _ hfree => cases hbusy.symm.trans hfree
      | _ => exact ⟨h.lock, h.rest, h.plan⟩
    | @starts d ds done hs hd =>
      have hplan := horder.starter
      rw [hs] at hplan
      have hnot : d ≠ .spawn := by
        rintro rfl
        exact hspawn (.inr (by simp [hs]))
      obtain ⟨hlock, hrest, hphase, hthread⟩ :=
        RunDuty.eq_of_locked hd h.lock (by cases hplan <;> simp) hnot
      refine ⟨hlock.trans h.lock, hrest.trans h.rest, ?_⟩
      change StopPlan r done.run.phase done.run.thread
      rw [hphase, hthread]
      exact h.plan
    | @tells d ds done hs hd =>
      have hplan := h.plan
      rw [hs] at hplan
      cases hplan with
      | publish e hpaused => exact absurd ⟨rfl, run, _, hr, h.rest, hpaused, hs⟩ htells
    | works hs hd =>
      have hplan := h.plan
      rw [hs] at hplan
      obtain ⟨hlock, hrest', hplan⟩ := hplan.of_works (h.rest ▸ hrest) hd
      exact ⟨hlock.trans h.lock, hrest'.trans h.rest, hplan⟩
  asked _ h := h
  givenUp hgive h := by
    cases hgive with
    | terminate _ hfree => simp [Run.isFree, h.lock] at hfree
    | _ => exact ⟨h.lock, h.rest, h.plan⟩

/-! ## After a cancellation -/

/-- Whether in a step the thread of run `r`, with all of `rest` still to execute, asks for its line
and finds a breakpoint there. -/
def ReadsInstalled (r : RunId) (rest : Script.Program) (e : State × Party) : Prop :=
  e.2 = .thread r ∧ ∃ run stmt pending stepping, e.1.runs[r]? = some run ∧ run.rest = rest ∧
    run.thread.head? = some (.thread r (.readLine pending stepping)) ∧ rest.head? = some stmt ∧
    stmt.line ∈ run.context.lines

/-- Whether a duty of the thread comes before a stop, and after the thread asked for its line. -/
def ThreadDuty.mayStop : ThreadDuty → Bool
  | readTemplate | capture | markPaused => true
  | _ => false

/-- Whether the handler is about to turn the step mode of run `r` off, and to release its lock. -/
def TurnsOff (r : RunId) (hs : List Duty) : Prop :=
  ∃ ds, hs = .run r (.setStepMode false) :: .run r .unlock :: ds

/-- Whether run `r` neither pauses nor steps, but for what the handler is about to do, and only
stops at a line of which its thread read in one of the steps `es` that it has a breakpoint. -/
structure Run.Passes (r : RunId) (es : List (State × Party)) (hs : List Duty) (run : Run) :
    Prop where
  pending : run.pausePending = false
  mode : run.context.stepMode = false ∨ TurnsOff r hs
  on : .run r (.setStepMode true) ∉ hs
  step {pending : Bool} : .thread r (.readStep pending) ∈ run.thread → pending = false
  line {pending stepping : Bool} : .thread r (.readLine pending stepping) ∈ run.thread →
    pending = false ∧ stepping = false
  stop {d : ThreadDuty} : .thread r d ∈ run.thread → d.mayStop = true →
    ∃ e ∈ es, ReadsInstalled r run.rest e

/-- A thread is about to stop only after it read what to stop for. -/
theorem ThreadDuty.Follows.mayStop {d d' : ThreadDuty} (h : Follows run d d')
    (hstop : d'.mayStop = true) : d = .readTemplate ∨ ∃ pending stepping,
      d = .readLine pending stepping ∧ ((pending || stepping) = true ∨
        ∃ stmt, run.rest.head? = some stmt ∧ stmt.line ∈ run.context.lines) := by
  cases h with
  | stop h => exact .inr ⟨_, _, rfl, .inl h⟩
  | readTemplate hrest hline => exact .inr ⟨_, _, rfl, .inr ⟨_, hrest, hline⟩⟩
  | stopThere => exact .inl rfl
  | _ => cases hstop

namespace Run.Passes

/-- What the handler does next does not turn the step mode on. -/
theorem of_handler {d : Duty} (h : run.Passes r es (d :: ds))
    (hpending : run'.pausePending = run.pausePending)
    (hmode : run'.context.stepMode = run.context.stepMode) (hrest : run'.rest = run.rest)
    (hthread : ∀ d, .thread r d ∈ run'.thread → d = .reach ∨ .thread r d ∈ run.thread)
    (hd : ∀ on, d ≠ .run r (.setStepMode on)) (hnext : ∀ e ∈ next, e.continues r = false) :
    run'.Passes r es (next ++ ds) where
  pending := hpending.trans h.pending
  mode := by
    refine .inl (hmode.trans (h.mode.resolve_right ?_))
    rintro ⟨ds', heq⟩
    exact hd false (List.cons.inj heq).1
  on hm := by
    rcases List.mem_append.1 hm with hm | hm
    · simpa [Duty.continues] using hnext _ hm
    · exact h.on (List.mem_cons_of_mem _ hm)
  step hm := h.step ((hthread _ hm).resolve_left nofun)
  line hm := h.line ((hthread _ hm).resolve_left nofun)
  stop hm hstop := by
    rw [hrest]
    refine h.stop ((hthread _ hm).resolve_left ?_) hstop
    rintro rfl
    cases hstop

/-- The run changes neither its pending pause nor its step mode. -/
theorem of_run (h : run.Passes r es hs) (hpending : run'.pausePending = run.pausePending)
    (hmode : run'.context.stepMode = run.context.stepMode) (hrest : run'.rest = run.rest)
    (hthread : ∀ d, .thread r d ∈ run'.thread → d = .reach ∨ .thread r d ∈ run.thread) :
    run'.Passes r es hs where
  pending := hpending.trans h.pending
  mode := hmode ▸ h.mode
  on := h.on
  step hm := h.step ((hthread _ hm).resolve_left nofun)
  line hm := h.line ((hthread _ hm).resolve_left nofun)
  stop hm hstop := by
    rw [hrest]
    refine h.stop ((hthread _ hm).resolve_left ?_) hstop
    rintro rfl
    cases hstop

theorem thread_cases {d : RunDuty} (hd : d.perform? r run = some done) (d' : ThreadDuty)
    (hm : .thread r d' ∈ done.run.thread) : d' = .reach ∨ .thread r d' ∈ run.thread := by
  by_cases hreach : d' = .reach
  · exact .inl hreach
  · exact .inr (RunDuty.thread_mem_of_perform? hd hm hreach)

/-- The starter or the thread does something to a run. -/
theorem of_party {d : RunDuty} (h : run.Passes r es hs) (hd : d.perform? r run = some done)
    (hmode : ∀ on, d ≠ .setStepMode on) : done.run.Passes r es hs :=
  h.of_run (RunDuty.pausePending_of_perform? hd) (RunDuty.stepMode_of_perform? hd hmode)
    (RunDuty.asked hd).rest (thread_cases hd)

/-- The thread does something. -/
theorem of_works {d : ThreadDuty} (h : run.Passes r es s.handler) (horder : run.Orderly r s.handler)
    (hr : s.runs[r]? = some run) (he : (s, .thread r) ∈ es)
    (hds : run.thread = .thread r d :: ds)
    (hd : d.perform? b s r { run with thread := ds } = some done) :
    Run.Passes r es s.handler { done.run with thread := done.next ++ done.run.thread } := by
  have hleaves := ThreadDuty.leaves_of_perform? hd
  have hpending : done.run.pausePending = false := by
    by_cases htake : d = .takePending
    · subst htake
      rw [ThreadDuty.perform?_takePending] at hd
      obtain rfl := Option.some.inj hd
      rfl
    · exact (hleaves.pausePending htake).trans h.pending
  have hmem {d' : ThreadDuty} (hm : .thread r d' ∈ done.next ++ done.run.thread) :
      ThreadDuty.Follows { run with thread := ds } d d' ∨ .thread r d' ∈ ds := by
    refine (List.mem_append.1 hm).imp (ThreadDuty.follows_of_mem_next hd) fun hm => ?_
    rwa [hleaves.kept.thread] at hm
  have hold {d' : ThreadDuty} (hm : .thread r d' ∈ ds) : .thread r d' ∈ run.thread := by
    rw [hds]
    exact List.mem_cons_of_mem _ hm
  have hhead : .thread r d ∈ run.thread := by simp [hds]
  refine ⟨hpending, hleaves.stepMode ▸ h.mode, h.on, fun hm => ?_, @fun asked stepping hm => ?_,
    fun hm hstop => ?_⟩
  · rcases hmem hm with hfollows | hm
    · cases hfollows with
      | readStep => exact h.pending
      | stop _ hstops | stopThere hstops => cases hstops
    · exact h.step (hold hm)
  · rcases hmem hm with hfollows | hm
    · cases hfollows with
      | readLine =>
        refine ⟨h.step hhead, h.mode.resolve_right ?_⟩
        rintro ⟨ds', heq⟩
        have hhandler := horder.lock.2 (by simp [heq])
        have hholds := horder.thread.holds_of_isLocked hhead rfl
        simp [hhandler] at hholds
      | stop _ hstops | stopThere hstops => cases hstops
    · exact h.line (hold hm)
  · rcases hmem hm with hfollows | hm
    · rcases hfollows.mayStop hstop with rfl | ⟨pending, stepping, rfl, hcase⟩
      · obtain ⟨e, he, hreads⟩ := h.stop hhead rfl
        exact ⟨e, he, (hleaves.rest nofun).symm ▸ hreads⟩
      · obtain ⟨rfl, rfl⟩ := h.line hhead
        rcases hcase with hcase | ⟨stmt, hrest, hline⟩
        · cases hcase
        · have hsame : done.run.rest = run.rest := hleaves.rest nofun
          exact ⟨_, he, rfl, run, stmt, false, false, hr, hsame.symm, by simp [hds],
            hsame ▸ hrest, hline⟩
    · have hperform : d ≠ .perform := by
        rintro rfl
        have hplan := horder.thread
        rw [hds] at hplan
        generalize decide (run.lock = some (.thread r)) = holds at hplan
        cases hplan
        cases hm
      obtain ⟨e, he, hreads⟩ := h.stop (hold hm) hstop
      have hsame : done.run.rest = run.rest := hleaves.rest hperform
      exact ⟨e, he, hsame.symm ▸ hreads⟩

theorem lasting (b : Backend) (r : RunId) (es : List (State × Party)) : Run.Lasting b r
    (fun e => e ∈ es ∧ acceptsPause r e = false ∧ acceptsResume r e = false)
    (Run.Passes r es) where
  fares {s p run run' hs} hA hr horder hfares h := by
    obtain ⟨he, hpause, hresume⟩ := hA
    cases hfares with
    | @aside d ds next hs hsub hnext =>
      rw [hs] at h
      exact h.of_handler rfl rfl rfl (fun _ hm => .inr hm) (fun on heq => hsub (heq ▸ rfl))
        fun e he => Duty.continues_of_assigned (hnext e he)
    | away => exact h
    | waits => exact h.of_run rfl rfl rfl fun _ hm => .inr hm
    | @duty d ds done hs hplan hd =>
      rw [hs] at h
      by_cases hmode : ∃ on, d = .setStepMode on
      · obtain ⟨on, rfl⟩ := hmode
        obtain rfl := Option.some.inj hd
        cases on with
        | true => exact absurd (by simp) h.on
        | false => exact ⟨h.pending, .inl rfl, fun hm => h.on (List.mem_cons_of_mem _ hm), h.step,
            h.line, h.stop⟩
      · have hmode (on : Bool) : d ≠ .setStepMode on := fun heq => hmode ⟨on, heq⟩
        exact h.of_handler (RunDuty.pausePending_of_perform? hd)
          (RunDuty.stepMode_of_perform? hd hmode) (RunDuty.asked hd).rest (thread_cases hd)
          (fun on heq => hmode on (by simpa using heq)) (RunDuty.continues_of_mem_next hd)
    | request hs hd =>
      rw [hs] at h
      have haside {next : List Duty} (hnext : ∀ e ∈ next, e.isAside = true) (e : Duty)
          (he : e ∈ next) := Duty.continues_of_isAside (hnext e he) r
      cases hd with
      | @look _ snapshot next _ hnext _ | @assign _ _ snapshot next _ _ hnext =>
        have hlook : Run.Passes r es (next ++ []) { run with snapshot } :=
          h.of_handler rfl rfl rfl (fun _ hm => .inr hm) nofun (haside hnext)
        rwa [List.append_nil] at hlook
      | start m =>
        have hstart : run.Passes r es ([.session (.send m), .run r .startIfLive] ++ []) :=
          h.of_handler rfl rfl rfl (fun _ hm => .inr hm) nofun (by simp [Duty.continues])
        exact hstart
      | release _ _ _ hpaused => simp [acceptsResume, hs, hr, hpaused] at hresume
      | skip _ _ _ _ hpending => cases h.pending.symm.trans hpending
      | pause _ _ hrunning => simp [acceptsPause, State.agenda, hs, hr, hrunning] at hpause
    | @starts d ds done hs hd =>
      have hplan := horder.starter
      rw [hs] at hplan
      have hbefore : Run.Passes r es s.handler { run with starter := ds } :=
        h.of_run rfl rfl rfl fun _ hm => .inr hm
      have hafter := hbefore.of_party hd (by cases hplan <;> simp)
      exact hafter.of_run rfl rfl rfl fun _ hm => .inr hm
    | @tells d ds done hs hd =>
      have hplan := horder.thread
      rw [hs] at hplan
      generalize decide (run.lock = some (.thread r)) = holds at hplan
      have hbefore : Run.Passes r es s.handler { run with thread := ds } :=
        h.of_run rfl rfl rfl fun _ hm => .inr (by rw [hs]; exact List.mem_cons_of_mem _ hm)
      have hafter := hbefore.of_party hd (by cases hplan <;> simp)
      exact hafter.of_run rfl rfl rfl fun d' hm =>
        .inr ((List.mem_append.1 hm).resolve_left (RunDuty.thread_not_mem_next hd d'))
    | works hs hd => exact h.of_works horder hr he hs hd
  asked d h := by
    refine ⟨h.pending, .inl (h.mode.resolve_right ?_), by simp, h.step, h.line, h.stop⟩
    rintro ⟨ds, hds⟩
    cases hds
  givenUp hgive h := by
    cases hgive <;> exact h.of_run rfl rfl rfl fun _ hm => .inr hm

end Run.Passes

end DebugAdapter.Session
