import DebugAdapter.Proofs.Session.Stable
/-!
# Suspensions without interruption

A thread asks whether to suspend, and suspends, in many small steps with those of other parties in
between. `Run.Works` is that it takes some of its steps without interruption. These do what the
debug context says in one go: the checks before a statement decide as `Context.shouldSuspend` does
(`works_checks`), and in a suspension the handler decides by `Run.decision`. Unless that is to wait
the thread goes on as `Context.suspend` says (`suspends_at_once`). Otherwise it comes to its park,
and whatever the other parties do while it is there, when it can leave it goes on as
`Context.suspend` says for what they did meanwhile. Main statement: `suspends_with_wait`.
-/

namespace DebugAdapter.Session

/-! ## A thread without interruption -/

/-- The call of the handler that begins with a duty of the thread of `run`. -/
def Duty.begins? (run : Run) : Duty → Option Context.Call
  | .thread _ .lock => run.rest.head?.map fun stmt => .pause stmt.span
  | .thread _ .takeOverrides => some .resume
  | _ => none

/-- Without interruption the thread of run `r`, which is `run`, makes another run of it, and these
calls of the handler begin on the way. -/
inductive Run.Works (b : Backend) (s : State) (r : RunId) (run : Run) :
    List Context.Call → Run → Prop where
  | refl : Works b s r run [] run
  | step {calls : List Context.Call} {run' : Run} {d : Duty} {ds : List Duty} {done : Done}
      (h : Works b s r run calls run') (hds : run'.thread = d :: ds) (hsub : d.subject? = some r)
      (hd : d.stroke? b s r { run' with thread := ds } = some done) :
      Works b s r run (calls ++ (d.begins? run').toList)
        { done.run with thread := done.next ++ done.run.thread }

variable {b : Backend} {s t : State} {r : RunId} {run run₁ run₂ : Run}
  {calls calls' : List Context.Call} {d : ThreadDuty} {ds : List Duty} {done : Done}
  {stmt : Script.Statement} {rest : Script.Program} {o : Context.Occasion}

/-- What a duty makes of a run depends on the breakpoints, the time and the releases besides. -/
theorem Duty.stroke?_congr (d : Duty) (hregistry : t.registry = s.registry)
    (hclock : t.clock = s.clock) (hreleases : t.releases = s.releases) :
    d.stroke? b t r run = d.stroke? b s r run := by
  cases d with
  | thread _ d =>
    cases d <;> simp only [stroke?, ThreadDuty.perform?, ThreadDuty.performAt?,
      ThreadDuty.performIdle?, stallThen, afterCheck, hregistry, hreleases]
  | starter _ d => cases d <;> simp only [stroke?, StarterDuty.perform?, hregistry, hclock]
  | _ => rfl

theorem State.getElem?_send_setRun (hr : s.runs[r]? = some run) (run' : Run)
    (sent : List Protocol.Outgoing) : ((s.setRun r run').send sent).runs[r]? = some run' := by
  have hlt : r < s.runs.length := (List.getElem?_eq_some_iff.1 hr).1
  simp [setRun, send, hlt]

theorem State.advance?_thread {d : Duty} (hr : s.runs[r]? = some run) (hds : run.thread = d :: ds)
    (hsub : d.subject? = some r) (hd : d.stroke? b s r { run with thread := ds } = some done) :
    s.advance? b (.thread r) = some
      ((s.setRun r { done.run with thread := done.next ++ done.run.thread }).send done.sent) := by
  have hagenda : s.agenda (.thread r) = d :: ds := by simp [agenda, hr, hds]
  have hset : s.setAgenda (.thread r) ds = s.setRun r { run with thread := ds } := by
    simp [setAgenda, setRun, modify_eq_set _ hr]
  have hperform : d.perform? b (s.setRun r { run with thread := ds }) =
      some ((s.setRun r done.run).send done.sent, done.next) := by
    have hd : d.stroke? b (s.setRun r { run with thread := ds }) r { run with thread := ds } =
        some done := (d.stroke?_congr rfl rfl rfl).trans hd
    rw [Duty.perform?_of_subject b _ hsub, onRun_set_self hr, hd]
    rfl
  have hthread : ((s.setRun r done.run).send done.sent).agenda (.thread r) = done.run.thread := by
    simp only [agenda, getElem?_send_setRun hr, Option.map_some, Option.getD_some]
  simp only [advance?, hagenda, hset, hperform, Option.map_some, hthread]
  simp only [setAgenda, send, modify_setRun hr]
  rfl

namespace Run.Works

theorem trans (h : run.Works b s r calls run₁) (h' : run₁.Works b s r calls' run₂) :
    run.Works b s r (calls ++ calls') run₂ := by
  induction h' with
  | refl => simpa using h
  | step _ hds hsub hd ih => simpa using ih.step hds hsub hd

/-- What a thread does without interruption it does on a path. -/
theorem path (h : run.Works b s r calls run₁) (hr : s.runs[r]? = some run) :
    ∃ es sent, State.Path b s es ((s.setRun r run₁).send sent) ∧ ∀ e ∈ es, e.2 = .thread r := by
  induction h with
  | refl =>
    obtain ⟨_, hget⟩ := List.getElem?_eq_some_iff.1 hr
    have hself : (s.setRun r run).send [] = s := by
      simp [State.setRun, State.send, ← hget]
    exact ⟨[], [], hself.symm ▸ .refl, by simp⟩
  | @step calls run₁ d ds done _ hds hsub hd ih =>
    obtain ⟨es, sent, hpath, hes⟩ := ih
    have hr₁ := State.getElem?_send_setRun hr run₁ sent
    have hd : d.stroke? b ((s.setRun r run₁).send sent) r { run₁ with thread := ds } = some done :=
      (d.stroke?_congr rfl rfl rfl).trans hd
    have hstep := hpath.step (State.advance?_thread hr₁ hds hsub hd)
    refine ⟨es ++ [((s.setRun r run₁).send sent, .thread r)], sent ++ done.sent, ?_,
      fun e he => ?_⟩
    · simpa only [State.setRun, State.send, List.set_set, List.append_assoc] using hstep
    · rcases List.mem_append.1 he with he | he
      · exact hes e he
      · rw [List.mem_singleton.1 he]

/-- A step with a duty of the thread's own, before a statement. -/
theorem own (h : run.Works b s r calls run₁) (hrest : run₁.rest = stmt :: rest)
    (hds : run₁.thread = .thread r d :: ds)
    (hd : d.performAt? b s r { run₁ with thread := ds } stmt = some done) :
    run.Works b s r (calls ++ ((Duty.thread r d).begins? run₁).toList)
      { done.run with thread := done.next ++ done.run.thread } := by
  refine h.step hds rfl ?_
  simpa only [Duty.stroke?, ThreadDuty.perform?, hrest] using hd

/-- A step with the last duty of a thread. -/
theorem last (h : run.Works b s r calls run₁) (hrest : run₁.rest = stmt :: rest)
    (hds : run₁.thread = [.thread r d])
    (hd : d.performAt? b s r { run₁ with thread := [] } stmt = some done)
    (hnil : done.run.thread = []) :
    run.Works b s r (calls ++ ((Duty.thread r d).begins? run₁).toList)
      { done.run with thread := done.next } := by
  simpa [hnil] using h.own hrest hds hd

end Run.Works

/-! ## The checks -/

@[simp] theorem afterCheck_true (b : Backend) (s : State) (r : RunId) (line : UInt32)
    (d : ThreadDuty) : afterCheck b s r line true d = stallThen b s r line true .suspend := rfl

/-- The checks before a statement decide whether to suspend as the debug context does. -/
theorem works_checks (hthread : run.thread = [.thread r .checkClosed])
    (hrest : run.rest = stmt :: rest) : run.Works b s r [] { run with
      thread := afterCheck b s r stmt.line (run.context.shouldSuspend stmt.line) .perform } := by
  have hclosed : run.Works b s r [] { run with
      thread := afterCheck b s r stmt.line run.context.isClosed .checkStep } :=
    .last .refl hrest hthread rfl rfl
  cases hc : run.context.isClosed with
  | true => simpa [Context.shouldSuspend, hc] using hclosed
  | false =>
    rw [hc] at hclosed
    have hstep : run.Works b s r [] { run with
        thread := afterCheck b s r stmt.line run.context.stepMode .checkLine } :=
      .last hclosed hrest rfl rfl rfl
    cases hm : run.context.stepMode with
    | true => simpa [Context.shouldSuspend, hm] using hstep
    | false =>
      rw [hm] at hstep
      simp only [Context.shouldSuspend, hc, hm, Bool.false_or]
      exact .last hstep hrest rfl rfl rfl

/-! ## What the handler decides -/

/-- What the handler of a run decides at a pause before a statement. -/
def Run.decision (registry : Registry) (run : Run) (stmt : Script.Statement) : Context.Decision :=
  if run.isLive then
    if run.pausePending || run.context.stepMode then .wait
    else if run.context.hasBreakpoint stmt.line then
      match (registry.get? run.key stmt.line).bind LineBreakpoint.logMessage with
      | some _ => .proceed
      | none => .wait
    else .proceed
  else .abort

/-- What a thread does next when its handler decided. -/
def decidedDuty : Context.Decision → ThreadDuty
  | .wait => .park
  | .proceed => .perform
  | .abort => .conclude aborted

/-- Whether a run is as far in its script as `run`, and its thread is about to do `d`. -/
structure Run.ComesTo (r : RunId) (d : ThreadDuty) (run run' : Run) : Prop where
  context : run'.context = run.context
  rest : run'.rest = run.rest
  vars : run'.vars = run.vars
  thread : run'.thread = [.thread r d]

theorem works_lock (b : Backend) (s : State) (hthread : run.thread = [.thread r .suspend])
    (hrest : run.rest = stmt :: rest) (hopen : run.context.isClosed = false)
    (hfree : run.isFree = true) : run.Works b s r [.pause stmt.span]
      { run with lock := some (.thread r), thread := [.thread r .checkLive] } := by
  have hsuspend : run.Works b s r [] { run with thread := [.thread r .lock] } := by
    have h : run.Works b s r _ _ := .last .refl hrest hthread rfl rfl
    simpa [hopen, Duty.begins?] using h
  have hlock : ThreadDuty.lock.performAt? b s r { run with thread := [] } stmt = some
      { run := { run with lock := some (.thread r), thread := [] }
        next := [.thread r .checkLive] } := if_pos hfree
  simpa [Duty.begins?, hrest] using hsuspend.last hrest rfl hlock rfl

theorem works_readLine (b : Backend) (s : State) (hthread : run.thread = [.thread r .suspend])
    (hrest : run.rest = stmt :: rest) (hopen : run.context.isClosed = false)
    (hfree : run.isFree = true) (hlive : run.isLive = true) :
    run.Works b s r [.pause stmt.span] { run with
      lock := some (.thread r), pausePending := false
      thread := [.thread r (.readLine run.pausePending run.context.stepMode)] } := by
  have hlock := works_lock b s hthread hrest hopen hfree
  have hcheck : run.Works b s r [.pause stmt.span]
      { run with lock := some (.thread r), thread := [.thread r .takePending] } := by
    simpa [hlive, Duty.begins?] using hlock.last hrest rfl rfl rfl
  have htake : run.Works b s r [.pause stmt.span] { run with
      lock := some (.thread r), pausePending := false
      thread := [.thread r (.readStep run.pausePending)] } := hcheck.last hrest rfl rfl rfl
  exact htake.last hrest rfl rfl rfl

/-- A thread that stops publishes its stop and comes to its park. -/
theorem works_stop {reason : StopReason} (hthread : run.thread = stopDuties r run stmt.span reason)
    (hrest : run.rest = stmt :: rest) : run.Works b s r [] { run with
      snapshot := .capture run.vars [frameAt run.clientPath stmt.span]
      phase := .paused, lock := none, thread := [.thread r .park] } := by
  have hcapture : run.Works b s r _ _ := .own .refl hrest hthread rfl
  have hmark := hcapture.own hrest rfl rfl
  have hstopped := hmark.step rfl rfl rfl
  have hnote := hstopped.step rfl rfl rfl
  exact hnote.step rfl rfl rfl

/-- In a suspension the thread asks its handler, and does what it decides. -/
theorem works_decided (b : Backend) (s : State) (hthread : run.thread = [.thread r .suspend])
    (hrest : run.rest = stmt :: rest) (hopen : run.context.isClosed = false)
    (hfree : run.isFree = true) : ∃ run', run.Works b s r [.pause stmt.span] run' ∧
      run.ComesTo r (decidedDuty (run.decision s.registry stmt)) run' := by
  unfold Run.decision
  split
  next hlive =>
    have hline := (works_readLine b s hthread hrest hopen hfree hlive).last hrest
      rfl rfl rfl
    split
    next hstop =>
      simp only [hstop, if_true] at hline
      exact ⟨_, hline.trans (works_stop rfl hrest), rfl, rfl, rfl, rfl⟩
    next hstop =>
      simp only [hstop] at hline
      split
      next hbreakpoint =>
        simp only [hbreakpoint] at hline
        have htemplate := hline.last hrest rfl rfl rfl
        split
        next template heq =>
          simp only [heq] at htemplate
          exact ⟨_, (htemplate.step rfl rfl rfl).step rfl rfl rfl, rfl, rfl, rfl, rfl⟩
        next heq =>
          simp only [heq] at htemplate
          exact ⟨_, htemplate.trans (works_stop rfl hrest), rfl, rfl, rfl, rfl⟩
      next hbreakpoint =>
        simp only [hbreakpoint] at hline
        exact ⟨_, hline.step rfl rfl rfl, rfl, rfl, rfl, rfl⟩
  next hdead =>
    have hlock := works_lock b s hthread hrest hopen hfree
    have hcheck := hlock.last hrest rfl rfl rfl
    simp only [hdead] at hcheck
    exact ⟨_, hcheck.step rfl rfl rfl, rfl, rfl, rfl, rfl⟩

/-! ## How a suspension ends -/

/-- The variables of a script after a suspension. -/
def resumedVars (vars : Json.Fields) : Script.Resume → Json.Fields
  | .proceed overrides => vars.insertAll overrides
  | .abort => vars

/-- What a thread does after a suspension. -/
def resumedDuty : Script.Resume → ThreadDuty
  | .proceed _ => .perform
  | .abort => .conclude aborted

/-- Whether a run came out of a suspension of `run` as the debug context says. -/
def Run.Resumes (r : RunId) (run : Run) (done : Context.Suspension) (run' : Run) : Prop :=
  { run with context := done.context, vars := resumedVars run.vars done.resume }.ComesTo r
    (resumedDuty done.resume) run'

/-- A suspension in which the handler does not decide to wait ends as the debug context says. -/
theorem suspends_at_once (hthread : run.thread = [.thread r .suspend])
    (hrest : run.rest = stmt :: rest) (hfree : run.isFree = true)
    (hdecision : o.decision = run.decision s.registry stmt)
    (hmeanwhile : o.meanwhile run.context = run.context)
    (hsoon : run.context.isClosed = true ∨ o.decision ≠ .wait) :
    ∃ run', run.Works b s r (run.context.suspend stmt.span o).calls run' ∧
      run.Resumes r (run.context.suspend stmt.span o) run' := by
  cases hclosed : run.context.isClosed with
  | true =>
    have hsuspend : run.context.suspend stmt.span o = ⟨.abort, [], run.context⟩ := by
      simp [Context.suspend, hclosed]
    have hends : run.Works b s r _ _ := .last .refl hrest hthread rfl rfl
    simp only [hclosed] at hends
    rw [hsuspend]
    exact ⟨_, hends, rfl, rfl, rfl, rfl⟩
  | false =>
    have hne : o.decision ≠ .wait := hsoon.resolve_left (by simp [hclosed])
    obtain ⟨run', hworks, hcomes⟩ := works_decided b s hthread hrest hclosed hfree
    rw [← hdecision] at hcomes
    cases hd : o.decision with
    | wait => exact absurd hd hne
    | proceed =>
      have hsuspend : run.context.suspend stmt.span o =
          ⟨.proceed [], [.pause stmt.span], run.context⟩ := by
        simp [Context.suspend, hclosed, hd, hmeanwhile]
      rw [hsuspend]
      rw [hd] at hcomes
      exact ⟨run', hworks, hcomes⟩
    | abort =>
      have hsuspend : run.context.suspend stmt.span o =
          ⟨.abort, [.pause stmt.span], run.context⟩ := by
        simp [Context.suspend, hclosed, hd, hmeanwhile]
      rw [hsuspend]
      rw [hd] at hcomes
      exact ⟨run', hworks, hcomes⟩

/-- A thread leaves its park, when it can, as the debug context says. -/
theorem leaves_park (b : Backend) (s : State) (o : Context.Occasion)
    (hthread : run.thread = [.thread r .park]) (hrest : run.rest = stmt :: rest)
    (hwait : run.context.rendezvous.wait? ≠ none) (paused : Context.Call)
    (hoverrides : o.overrides = run.snapshot.takeOverrides.1) :
    ∃ calls run', run.Works b s r calls run' ∧
      (run.context.leaveWait o paused).calls = paused :: calls ∧
      run.Resumes r (run.context.leaveWait o paused) run' := by
  obtain ⟨⟨wake, rendezvous⟩, hw⟩ := Option.ne_none_iff_exists'.1 hwait
  have hpark : ThreadDuty.park.performAt? b s r { run with thread := [] } stmt =
      ThreadDuty.park.performIdle? s r { run with thread := [] } := rfl
  simp only [ThreadDuty.performIdle?, hw] at hpark
  cases wake with
  | closed =>
    have hleave : run.context.leaveWait o paused = ⟨.abort, [paused], run.context⟩ := by
      simp [Context.leaveWait, hw]
    rw [hleave]
    exact ⟨_, _, .last .refl hrest hthread hpark rfl, rfl, rfl, rfl, rfl, rfl⟩
  | signaled =>
    have hleave : run.context.leaveWait o paused = ⟨.proceed run.snapshot.takeOverrides.1,
        [paused, .resume], { run.context with rendezvous }⟩ := by
      simp [Context.leaveWait, hw, hoverrides]
    rw [hleave]
    have htake : run.Works b s r _ _ := .last .refl hrest hthread hpark rfl
    exact ⟨_, _, htake.last hrest rfl rfl rfl, rfl, rfl, rfl, rfl, rfl⟩

/-! ## Suspensions that wait -/

/-- Whether the thread of a run that is as far as `run` is parked. -/
def Run.StaysParked (r : RunId) (run run' : Run) : Prop :=
  { run with context := run'.context }.ComesTo r .park run'

/-- A thread stays parked, and its run as far as it is, whatever other parties do. -/
theorem Run.staysParked_stable (b : Backend) (r : RunId) (run : Run) :
    Run.Stable b r (fun e => e.2 ≠ .thread r) (run.StaysParked r) where
  starter _ h := ⟨h.context, h.rest, h.vars, h.thread⟩
  duty {s p run' d done} _ _ hapt hd h := by
    cases d
    case spawn => cases h.thread.symm.trans hapt
    all_goals
      simp only [RunDuty.perform?] at hd
      (repeat' split at hd) <;> cases hd <;> exact ⟨rfl, h.rest, h.vars, h.thread⟩
  request hd h := by cases hd <;> exact ⟨rfl, h.rest, h.vars, h.thread⟩
  thread hother := absurd rfl hother
  givenUp hgive h := by cases hgive <;> exact ⟨rfl, h.rest, h.vars, h.thread⟩

/-- A suspension in which the handler decides to wait: the thread comes to its park, and whatever
other parties do while it is there, when it can leave it goes on as the debug context says for what
they did. -/
theorem suspends_with_wait (horder : s.Orderly) (hr : s.runs[r]? = some run)
    (hthread : run.thread = [.thread r .suspend]) (hrest : run.rest = stmt :: rest)
    (hopen : run.context.isClosed = false) (hfree : run.isFree = true)
    (hdecision : run.decision s.registry stmt = .wait) :
    ∃ es t run₁, State.Path b s es t ∧ (∀ e ∈ es, e.2 = .thread r) ∧ t.runs[r]? = some run₁ ∧
      run.Works b s r [.pause stmt.span] run₁ ∧ run.ComesTo r .park run₁ ∧
      ∀ es' u run₂, State.Path b t es' u → (∀ e ∈ es', e.2 ≠ .thread r) →
        u.runs[r]? = some run₂ → run₂.context.rendezvous.wait? ≠ none →
        let done := run.context.suspend stmt.span
          ⟨.wait, run₂.snapshot.takeOverrides.1, fun _ => run₂.context⟩
        ∃ calls run₃, run₂.Works b u r calls run₃ ∧ done.calls = .pause stmt.span :: calls ∧
          run.Resumes r done run₃ := by
  obtain ⟨run₁, hworks, hcomes⟩ := works_decided b s hthread hrest hopen hfree
  rw [hdecision] at hcomes
  obtain ⟨es, sent, hpath, hes⟩ := hworks.path hr
  have hr₁ := State.getElem?_send_setRun hr run₁ sent
  refine ⟨es, _, run₁, hpath, hes, hr₁, hworks, hcomes,
    fun es' u run₂ hothers hes' hr₂ hwait => ?_⟩
  -- Of a parked run others change what the handler answers from, and its context.
  have hwaits : run.StaysParked r run₂ := by
    refine (Run.staysParked_stable b r run).of_path hothers (hpath.orderly horder) hes'
      (fun hnone => ?_) (fun run' hr' => ?_) hr₂
    · cases hr₁.symm.trans hnone
    · obtain rfl := Option.some.inj (hr₁.symm.trans hr')
      exact ⟨rfl, hcomes.rest, hcomes.vars, hcomes.thread⟩
  -- What they did to the context is what happened meanwhile, as the debug context sees it.
  let o : Context.Occasion := ⟨.wait, run₂.snapshot.takeOverrides.1, fun _ => run₂.context⟩
  have hsuspend : run.context.suspend stmt.span o =
      run₂.context.leaveWait o (.pause stmt.span) := by
    simp [Context.suspend, hopen, o]
  obtain ⟨calls, run₃, hleaves, hcalls, hresumes⟩ := leaves_park b u o hwaits.thread
    (hwaits.rest.trans hrest) hwait (.pause stmt.span) rfl
  rw [← hsuspend] at hcalls hresumes
  have hvars : run₃.vars = resumedVars run.vars (run.context.suspend stmt.span o).resume :=
    hresumes.vars.trans (congrArg (resumedVars · _) hwaits.vars)
  exact ⟨calls, run₃, hleaves, hcalls, hresumes.context, hresumes.rest.trans hwaits.rest, hvars,
    hresumes.thread⟩

end DebugAdapter.Session
