import DebugAdapter.Proofs.Session.InstalledLines
import DebugAdapter.Proofs.Session.Shown
import DebugAdapter.Proofs.Session.Unstarted
/-!
# The course of a run

A `State.Course` goes on from a state without other requests than those to let run `r` go on, one at
each stop. `State.Follows` is what holds on it : until the run is set to work it waits as it was
opened (`Run.Waits`), and then its thread shows what the reference debugger does, with a command
that is under way (`State.Errand`) still to be taken.
-/

namespace DebugAdapter.Session

open Protocol (Event Outgoing Request Resumption)

/-! ## Courses -/

/-- The steps `es` lead from `s` to a state in which the commands `cs` were given, each when run `r`
was paused. -/
inductive State.Course (b : Backend) (r : RunId) (s : State) :
    (cs : List Resumption) → (es : List (State × Party)) → State → Prop where
  | refl : Course b r s [] [] s
  | step {cs : List Resumption} {es : List (State × Party)} {t u : State} {p : Party} :
      Course b r s cs es t → t.advance? b p = some u → Course b r s cs (es ++ [(t, p)]) u
  | elapse {cs : List Resumption} {es : List (State × Party)} {t : State} (n : Nat) :
      Course b r s cs es t → Course b r s cs es (t.accept (.elapse n))
  | release {cs : List Resumption} {es : List (State × Party)} {t : State} :
      Course b r s cs es t → Course b r s cs es (t.accept .release)
  | resume {cs : List Resumption} {es : List (State × Party)} {t : State} {run : Run}
      {request : Request} {how : Resumption} {args : Protocol.ThreadArguments} :
      Course b r s cs es t → t.handler = [] → t.currentRun? = some (r, run) →
      run.phase = .paused → Protocol.Command.ofName? request.command = some (.resume how) →
      Protocol.decodeArguments request.command Protocol.ThreadArguments.shape.decode
        request.arguments = .ok args →
      Course b r s (cs ++ [how]) es (t.accept (.request request))

theorem State.Course.path {b : Backend} {r : RunId} {s s₀ t : State} {cs : List Resumption}
    {es es₀ : List (State × Party)} (h : Course b r s cs es t) (h₀ : Path b s₀ es₀ s) :
    Path b s₀ (es₀ ++ es) t := by
  induction h with
  | refl => simpa using h₀
  | step _ hp ih => simpa using ih.step hp
  | elapse n _ ih => exact ih.accept (.elapse n) trivial
  | release _ ih => exact ih.accept .release trivial
  | resume _ hs _ _ _ _ ih => exact ih.accept (.request _) hs

/-- What the thread of run `r` sent in a step. -/
def sentIn (b : Backend) (r : RunId) (e : State × Party) : List Outgoing :=
  if e.2 = .thread r then
    ((e.1.advance? b e.2).map fun t => t.outbox.drop e.1.outbox.length).getD []
  else []

/-- What the thread of run `r` sent in these steps. -/
def sentBy (b : Backend) (r : RunId) (es : List (State × Party)) : List Outgoing :=
  es.flatMap (sentIn b r)

/-- A run that nobody disturbs is not disturbed by its thread. -/
theorem Run.Undisturbed.of_leaves {r : RunId} {run run' : Run} {d : ThreadDuty}
    {marks : UInt32 → Option Mark} {registry : Registry} (h : run.Undisturbed marks registry)
    (hd : d.Leaves r run run') : run'.Undisturbed marks registry := by
  cases hd with
  | takePending => exact ⟨h.live, h.opened, rfl, h.overrides, h.lines, h.marks⟩
  | capture | takeOverrides => exact ⟨h.live, h.opened, h.pausePending, rfl, h.lines, h.marks⟩
  | park hwait =>
    exact ⟨h.live, (Rendezvous.closed_of_wait? hwait).trans h.opened, h.pausePending, h.overrides,
      h.lines, h.marks⟩
  | _ => exact ⟨h.live, h.opened, h.pausePending, h.overrides, h.lines, h.marks⟩

/-! ## Harmless duties -/

/-- Whether a duty on a run only starts it, signals it, or leaves its script alone. -/
def RunDuty.isHarmless : RunDuty → Bool
  | emit _ | cancel | startIfLive | claimStart | spawn | schedule | invalidate | signal
  | setPhase .awaitingBreakpoints | setPhase .running => true
  | _ => false

/-- Whether a duty of the handler only answers, or starts or signals run `r`. -/
def Duty.isHarmless (r : RunId) : Duty → Bool
  | session (.send _) | session .reportTermination => true
  | run r' d => r' == r && d.isHarmless
  | request r' (.answerThenStart _) => r' == r
  | _ => false

/-- Whether a run is the same but for its phase and for who starts it. -/
structure Run.Untouched (run run' : Run) : Prop where
  key : run'.key = run.key
  clientPath : run'.clientPath = run.clientPath
  context : run'.context = run.context
  frames : run'.snapshot.frames = run.snapshot.frames
  overrides : run'.snapshot.overrides = run.snapshot.overrides
  live : run'.isLive = run.isLive
  terminated : run'.terminated = run.terminated
  pausePending : run'.pausePending = run.pausePending
  rest : run'.rest = run.rest
  vars : run'.vars = run.vars
  held : run'.held = run.held
  thread : run'.thread = run.thread

variable {b : Backend} {s t : State} {p : Party} {r : RunId} {run run' : Run}
  {marks : UInt32 → Option Mark} {registry : Registry} {done : Done}

namespace Run.Untouched

theorem refl (run : Run) : run.Untouched run :=
  ⟨rfl, rfl, rfl, rfl, rfl, rfl, rfl, rfl, rfl, rfl, rfl, rfl⟩

theorem undisturbed (h : run.Untouched run') (hrun : run.Undisturbed marks registry) :
    run'.Undisturbed marks registry where
  live := h.live.trans hrun.live
  opened := (congrArg Context.isClosed h.context).trans hrun.opened
  pausePending := h.pausePending.trans hrun.pausePending
  overrides := h.overrides.trans hrun.overrides
  lines := by rw [h.context, h.key, hrun.lines]
  marks line := by rw [h.key, hrun.marks]

theorem told {script : List Resumption → List Notice} {sent : List Event} {ns : List Notice}
    (h : run.Untouched run') (htold : run.Told marks r script sent ns) :
    run'.Told marks r script sent ns := by
  refine htold.of_run (by rw [h.thread]) (by rw [h.thread]) (fun _ => by simp [h.thread]) h.key
    h.clientPath h.rest h.vars h.held (congrArg _ h.context) (.inr (congrArg _ h.context))
    (fun hstop => ?_) ?_
  · exact hstop.of_run h.rest h.vars h.clientPath h.frames (by simp [h.thread])
  · rw [h.terminated, h.thread]
    exact htold.ended

theorem fresh (h : run.Untouched run') (hfresh : run.Fresh) (hphase : run'.phase ≠ .paused) :
    run'.Fresh where
  stepMode := (congrArg _ h.context).trans hfresh.stepMode
  permits := (congrArg (fun c => c.rendezvous.permits) h.context).trans hfresh.permits
  pausePending := h.pausePending.trans hfresh.pausePending
  held := h.held.trans hfresh.held
  overrides := h.overrides.trans hfresh.overrides
  phase := hphase

theorem with_starter (h : run.Untouched run') (ds : List Duty) :
    run.Untouched { run' with starter := ds } :=
  ⟨h.key, h.clientPath, h.context, h.frames, h.overrides, h.live, h.terminated, h.pausePending,
    h.rest, h.vars, h.held, h.thread⟩

theorem of_duty {d : RunDuty} (hd : d.perform? r run = some done) (hharmless : d.isHarmless = true)
    (hspawn : d ≠ .spawn) (hsignal : d ≠ .signal) : run.Untouched done.run := by
  cases d <;> try cases hharmless
  all_goals
    simp only [RunDuty.perform?] at hd
    (repeat' split at hd) <;> cases hd
  all_goals
    first
      | exact absurd rfl hspawn
      | exact absurd rfl hsignal
      | exact ⟨rfl, rfl, rfl, rfl, rfl, rfl, rfl, rfl, rfl, rfl, rfl, rfl⟩

end Run.Untouched

/-- Only a step that starts a run has it started, and then its thread is about to be set to work. -/
theorem RunDuty.started_cases {d : RunDuty} (hd : d.perform? r run = some done)
    (hstarted : done.run.started = true) :
    run.started = true ∨ .run r .spawn ∈ done.next := by
  cases d <;> simp only [perform?] at hd <;> (repeat' split at hd) <;> cases hd <;> simp_all

theorem RunDuty.isHarmless_of_mem_next {d : RunDuty} (hd : d.perform? r run = some done)
    (hharmless : d.isHarmless = true) : ∀ e ∈ done.next, e.isHarmless r = true := by
  cases d <;> try cases hharmless
  all_goals
    simp only [perform?] at hd
    (repeat' split at hd) <;> cases hd <;> simp [Duty.isHarmless, isHarmless]

/-! ## Where a run is on its course -/

/-- Whether run `r` waits to be set to work, as it was opened. -/
structure Run.Waits (marks : UInt32 → Option Mark) (r : RunId)
    (script : List Resumption → List Notice) (hs : List Duty) (run : Run) : Prop where
  fresh : run.Fresh
  thread : run.thread = []
  terminated : run.terminated = false
  harmless : ∀ d ∈ hs, d.isHarmless r = true
  owed : owed r hs = 0
  spawner : run.started = true → .run r .spawn ∈ hs ∨ .run r .spawn ∈ run.starter
  script (cs : List Resumption) : script cs = debug marks run.rest false cs run.vars

/-- The commands to let run `r` go on that are under way, by what the handler is about to do : a
command is asked for and accepted, it sets how the run is to go on, and then it is a signal that is
owed or a permit. -/
inductive Run.Errand (r : RunId) (run : Run) :
    (hs : List Duty) → (cs : List Resumption) → Prop where
  | free {hs : List Duty} {cs : List Resumption} (hharmless : ∀ d ∈ hs, d.isHarmless r = true)
      (hcount : run.context.rendezvous.permits + owed r hs = cs.length)
      (hsteps : ∀ c ∈ cs, run.context.stepMode = c.steps) : Errand r run hs cs
  | asked {request : Request} {how : Resumption} {args : Protocol.ThreadArguments}
      (hname : Protocol.Command.ofName? request.command = some (.resume how))
      (hargs : Protocol.decodeArguments request.command Protocol.ThreadArguments.shape.decode
        request.arguments = .ok args) (hpaused : run.phase = .paused) :
      Errand r run [.session (.handle request)] [how]
  | accepted {request : Request} {how : Resumption} (hpaused : run.phase = .paused) :
      Errand r run [.request r (.resume request how)] [how]
  | released {how : Resumption} {hs : List Duty} (hharmless : ∀ d ∈ hs, d.isHarmless r = true)
      (hpermits : run.context.rendezvous.permits = 0) (howed : owed r hs = 1) :
      Errand r run (.run r (.setStepMode how.steps) :: hs) [how]

/-- Whether the thread of run `r` has begun to show a script, some commands of which are under way,
and sent `sent`. -/
structure Run.Plays (marks : UInt32 → Option Mark) (r : RunId)
    (script : List Resumption → List Notice) (cs : List Resumption) (sent : List Event)
    (hs : List Duty) (run : Run) : Prop where
  begun : run.Begun r hs
  told : ∃ taken coming ns, cs = taken ++ coming ∧
    run.Told marks r (fun cs => script (taken ++ cs)) sent ns ∧ run.Errand r hs coming

/-- Whether nobody disturbed run `r`, which shows a script, was given the commands `cs` and sent
`sent`, while the handler has the agenda `hs`. -/
structure Run.OnCourse (marks : UInt32 → Option Mark) (registry : Registry) (r : RunId)
    (script : List Resumption → List Notice) (cs : List Resumption) (sent : List Event)
    (hs : List Duty) (run : Run) : Prop where
  undisturbed : run.Undisturbed marks registry
  stage : cs = [] ∧ sent = [] ∧ run.Waits marks r script hs ∨
    run.Plays marks r script cs sent hs

/-! ## Steps of the handler -/

section Handler

variable {script : List Resumption → List Notice} {cs : List Resumption} {sent : List Event}
  {d : Duty} {ds hs : List Duty}

theorem owed_spawn (r : RunId) (d : RunDuty) (hsignal : d ≠ .signal) :
    (Duty.run r d).signals r = false := by
  cases d <;> first | rfl | exact absurd rfl hsignal

/-- A run that is set to work tells that it starts, and then shows its script. -/
theorem Run.Waits.told (h : run.Waits marks r script hs) :
    Run.Told marks r script [] [] { run with thread :=
      [.run r (.emit (startNote run.clientPath run.key)), .thread r .reach] } where
  events := rfl
  script cs := by
    rw [h.script, ← h.fresh.stepMode]
    rfl
  held _ := h.fresh.held
  fits hmem := by
    obtain rfl : _ = ThreadDuty.reach := by simpa using hmem
    trivial
  stop hmem := by simp at hmem
  ended hterminated := by
    cases h.terminated.symm.trans hterminated

theorem Run.Waits.of_untouched (h : run.Waits marks r script hs) (hsame : run.Untouched run')
    (hphase : run'.phase ≠ .paused) {hs' : List Duty} (hharmless : ∀ d ∈ hs', d.isHarmless r = true)
    (howed : Session.owed r hs' = 0)
    (hspawner : run'.started = true → .run r .spawn ∈ hs' ∨ .run r .spawn ∈ run'.starter) :
    run'.Waits marks r script hs' where
  fresh := hsame.fresh h.fresh hphase
  thread := hsame.thread.trans h.thread
  terminated := hsame.terminated.trans h.terminated
  harmless := hharmless
  owed := howed
  spawner := hspawner
  script cs := by rw [h.script, hsame.rest, hsame.vars]

/-- A run waits on while the handler does something else than to set it to work. -/
theorem Run.Waits.of_duty {d : RunDuty} (h : run.Waits marks r script (.run r d :: ds))
    (hspawn : d ≠ .spawn) (hd : d.perform? r run = some done)
    (hphase : done.run.phase ≠ .paused)
    (hstarter : .run r .spawn ∈ run.starter → .run r .spawn ∈ done.run.starter) :
    done.run.Waits marks r script (done.next ++ ds) := by
  have hharmless : d.isHarmless = true := by
    simpa [Duty.isHarmless] using h.harmless (.run r d) (by simp)
  have howed := h.owed
  have hsignal : d ≠ .signal := by
    rintro rfl
    simp [Duty.signals] at howed
  rw [owed_cons, owed_spawn r d hsignal] at howed
  refine h.of_untouched (.of_duty hd hharmless hspawn hsignal) hphase (fun e he => ?_) ?_
    fun hstarted => ?_
  · rcases List.mem_append.1 he with he | he
    · exact RunDuty.isHarmless_of_mem_next hd hharmless e he
    · exact h.harmless e (by simp [he])
  · rw [owed_append, owed_next hd]
    simpa using howed
  · rcases RunDuty.started_cases hd hstarted with hbefore | hmem
    · rcases h.spawner hbefore with hmem | hmem
      · have hmem : .run r .spawn ∈ ds := by simpa [Ne.symm hspawn] using hmem
        exact .inl (by simp [hmem])
      · exact .inr (hstarter hmem)
    · exact .inl (by simp [hmem])

theorem RunDuty.phase_of_isHarmless {d : RunDuty} (hd : d.perform? r run = some done)
    (hharmless : d.isHarmless = true) :
    done.run.phase = run.phase ∨
      ∃ phase, d = .setPhase phase ∧ done.run.phase = phase ∧ phase ≠ .paused := by
  cases d <;> try cases hharmless
  case setPhase phase =>
    simp only [perform?] at hd
    split at hd <;> cases hd
    refine .inr ⟨phase, rfl, rfl, ?_⟩
    rintro rfl
    cases hharmless
  all_goals
    simp only [perform?] at hd
    (repeat' split at hd) <;> cases hd <;> exact .inl rfl

namespace Run.OnCourse

variable {a l : Nat}

/-- A run that waits stays on its course by a duty of the handler on it. -/
theorem of_waits {d : RunDuty} (hrun : run.Undisturbed marks registry)
    (hwaits : run.Waits marks r script (.run r d :: ds))
    (horder : run.Orderly r (.run r d :: ds)) (hd : d.perform? r run = some done)
    (hbegun : done.run.thread ≠ [] → done.run.Begun r (done.next ++ ds)) :
    done.run.OnCourse marks registry r script [] [] (done.next ++ ds) := by
  have hharmless : d.isHarmless = true := by
    simpa [Duty.isHarmless] using hwaits.harmless (.run r d) (by simp)
  have howed := hwaits.owed
  have hsignal : d ≠ .signal := by
    rintro rfl
    simp [Duty.signals] at howed
  rw [owed_cons, owed_spawn r d hsignal] at howed
  by_cases hspawn : d = .spawn
  · subst hspawn
    obtain rfl := Option.some.inj hd
    refine ⟨⟨hrun.live, hrun.opened, hrun.pausePending, hrun.overrides, hrun.lines, hrun.marks⟩,
      .inr ⟨hbegun (by simp), [], [], [], rfl, hwaits.told, .free (fun e he => ?_) ?_ (by simp)⟩⟩
    · exact hwaits.harmless e (by simpa using .inr he)
    · simpa [hwaits.fresh.permits] using howed
  · have hsame := Run.Untouched.of_duty hd hharmless hspawn hsignal
    refine ⟨hsame.undisturbed hrun, .inl ⟨rfl, rfl, hwaits.of_duty hspawn hd ?_ fun hmem => ?_⟩⟩
    · rcases RunDuty.phase_of_isHarmless hd hharmless with hphase | ⟨phase, -, hphase, hne⟩
      · rw [hphase]
        exact hwaits.fresh.phase
      · rw [hphase]
        exact hne
    · by_cases hschedule : d = .schedule
      · subst hschedule
        have hnil := (horder.scheduled (by simp)).2
        simp [hnil] at hmem
      · have hstarter : done.run.starter = run.starter := by
          cases d <;> simp only [RunDuty.perform?] at hd <;> (repeat' split at hd) <;> cases hd <;>
            first | rfl | exact absurd rfl hschedule
        rw [hstarter]
        exact hmem

/-- A run that was let go on is told how. -/
theorem of_setStepMode {how : Resumption} {ns : List Notice}
    (htold : run.Told marks r script sent ns) (horder : run.Orderly r hs)
    (hstop : run.AtStop r) :
    Run.Told marks r script sent ns
      { run with context := { run.context with stepMode := how.steps } } :=
  htold.of_run rfl rfl (fun _ h => h) rfl rfl rfl rfl rfl rfl
    (.inl (horder.thread.of_atStop hstop.1 hstop.2))
    (fun hstop => hstop.of_run rfl rfl rfl rfl id) htold.ended

/-- A duty of the handler on a run leaves it on its course. -/
theorem of_run {d : RunDuty} (h : run.OnCourse marks registry r script cs sent (.run r d :: ds))
    (horder : run.Orderly r (.run r d :: ds))
    (hbalanced : run.Balanced r (owed r (.run r d :: ds)) a l)
    (hd : d.perform? r run = some done)
    (hbegun : done.run.thread ≠ [] ∨ run.Begun r (.run r d :: ds) →
      done.run.Begun r (done.next ++ ds)) :
    done.run.OnCourse marks registry r script cs sent (done.next ++ ds) := by
  have hrun := h.undisturbed
  rcases h.stage with ⟨rfl, rfl, hwaits⟩ | ⟨hbefore, taken, coming, ns, rfl, htold, herrand⟩
  · exact of_waits hrun hwaits horder hd fun hthread => hbegun (.inl hthread)
  have hafter := hbegun (.inr hbefore)
  cases herrand with
  | free hharmless hcount hsteps =>
    have hown : d.isHarmless = true := by
      simpa [Duty.isHarmless] using hharmless (.run r d) (by simp)
    have hrest : ∀ e ∈ ds, e.isHarmless r = true := fun e he => hharmless e (by simp [he])
    by_cases hsignal : d = .signal
    · subst hsignal
      obtain rfl := Option.some.inj hd
      have hle := hbalanced.pending_le hrun.opened
      simp only [owed_cons, Duty.signals, beq_self_eq_true, if_true] at hcount hle
      have hpermits := Context.permits_signal hrun.opened (by omega)
      refine ⟨⟨hrun.live, ?_, hrun.pausePending, hrun.overrides, hrun.lines, hrun.marks⟩,
        .inr ⟨hafter, taken, coming, ns, rfl, ?_, .free hrest ?_ hsteps⟩⟩
      · exact (Context.isClosed_signal _).trans hrun.opened
      · exact htold.of_run rfl rfl (fun _ h => h) rfl rfl rfl rfl rfl rfl (.inr rfl)
          (fun hstop => hstop.of_run rfl rfl rfl rfl id) htold.ended
      · rw [List.nil_append, hpermits]
        omega
    · have hspawn : d ≠ .spawn := by
        rintro rfl
        exact hbefore.handler (by simp)
      have hsame := Run.Untouched.of_duty hd hown hspawn hsignal
      refine ⟨hsame.undisturbed hrun, .inr ⟨hafter, taken, coming, ns, rfl, hsame.told htold,
        .free (fun e he => ?_) ?_ ?_⟩⟩
      · exact (List.mem_append.1 he).elim (RunDuty.isHarmless_of_mem_next hd hown e) (hrest e)
      · rw [owed_cons, owed_spawn r d hsignal] at hcount
        rw [owed_append, owed_next hd, hsame.context]
        simpa using hcount
      · rw [hsame.context]
        exact hsteps
  | @released how _ hharmless hpermits howed =>
    obtain rfl := Option.some.inj hd
    have hstop := (hbalanced.atStop hrun.opened (by simp [howed])).1
    refine ⟨⟨hrun.live, hrun.opened, hrun.pausePending, hrun.overrides, hrun.lines, hrun.marks⟩,
      .inr ⟨hafter, taken, _, ns, rfl, of_setStepMode htold horder hstop,
        .free hharmless ?_ (by simp)⟩⟩
    simp [hpermits, howed]

/-- A harmless duty of the handler that does nothing to a run leaves it on its course. -/
theorem of_aside {e : Duty} {next : List Duty}
    (h : run.OnCourse marks registry r script cs sent (e :: ds)) (he : e.isHarmless r = true)
    (hspawn : e ≠ .run r .spawn) (hsignal : e.signals r = false)
    (hnext : ∀ d ∈ next, d.isHarmless r = true) (howed : owed r next = 0)
    (hbegun : run.Begun r (e :: ds) → run.Begun r (next ++ ds)) :
    run.OnCourse marks registry r script cs sent (next ++ ds) := by
  have hall (hds : ∀ d ∈ e :: ds, d.isHarmless r = true) :
      ∀ d ∈ next ++ ds, d.isHarmless r = true := fun d hd =>
    (List.mem_append.1 hd).elim (hnext d) fun hd => hds d (by simp [hd])
  have hcount : owed r (next ++ ds) = owed r (e :: ds) := by
    simp [howed, hsignal]
  refine ⟨h.undisturbed, ?_⟩
  rcases h.stage with ⟨rfl, rfl, hwaits⟩ | ⟨hbefore, taken, coming, ns, rfl, htold, herrand⟩
  · refine .inl ⟨rfl, rfl, hwaits.of_untouched (.refl run) hwaits.fresh.phase
      (hall hwaits.harmless) (hcount.trans hwaits.owed) fun hstarted => ?_⟩
    refine (hwaits.spawner hstarted).imp_left fun hmem => ?_
    have hmem : .run r .spawn ∈ ds := by simpa [Ne.symm hspawn] using hmem
    simp [hmem]
  · refine .inr ⟨hbegun hbefore, taken, coming, ns, rfl, htold, ?_⟩
    cases herrand with
    | free hharmless hpermits hsteps =>
      exact .free (hall hharmless) (by rwa [hcount]) hsteps
    | _ => simp [Duty.isHarmless, RunDuty.isHarmless] at he

/-- A duty of the handler for a request about a run leaves it on its course. -/
theorem of_request {d : RequestDuty}
    (h : run.OnCourse marks registry r script cs sent (.request r d :: ds))
    (hbalanced : run.Balanced r (owed r (.request r d :: ds)) a l)
    (hd : d.perform? b r run = some done)
    (hbegun : run.Begun r (.request r d :: ds) → done.run.Begun r (done.next ++ ds)) :
    done.run.OnCourse marks registry r script cs sent (done.next ++ ds) := by
  cases hharmless : (Duty.request r d).isHarmless r with
  | true =>
    obtain ⟨m, rfl⟩ : ∃ m, d = .answerThenStart m := by
      cases d <;> first | exact ⟨_, rfl⟩ | cases hharmless
    obtain rfl := Option.some.inj hd
    refine h.of_aside hharmless nofun rfl ?_ ?_ hbegun
    · cases run.started <;> simp [Duty.isHarmless, RunDuty.isHarmless]
    · cases run.started <;> simp [Duty.signals]
  | false =>
    have hrun := h.undisturbed
    rcases h.stage with ⟨-, -, hwaits⟩ | ⟨hbefore, taken, coming, ns, rfl, htold, herrand⟩
    · cases hharmless.symm.trans (hwaits.harmless _ (by simp))
    cases herrand with
    | free hall => cases hharmless.symm.trans (hall _ (by simp))
    | @accepted request how hpaused =>
      have hnone := hbalanced.none hrun.opened fun _ => hpaused
      have hafter := hbegun hbefore
      cases RequestDuty.leads_of_perform? hd with
      | look _ _ hresume => exact absurd hpaused (hresume _ _ rfl)
      | skip _ _ _ hrunning => cases hpaused.symm.trans hrunning
      | release =>
        refine ⟨⟨hrun.live, hrun.opened, hrun.pausePending, hrun.overrides, hrun.lines, hrun.marks⟩,
          .inr ⟨hafter, taken, _, ns, rfl, ?_, .released ?_ (Nat.eq_zero_of_add_eq_zero_right hnone)
            ?_⟩⟩
        · exact htold.of_run rfl rfl (fun _ h => h) rfl rfl rfl rfl rfl rfl (.inr rfl)
            (fun hstop => hstop.of_run rfl rfl rfl rfl id) htold.ended
        · cases how <;> simp [Duty.isHarmless, RunDuty.isHarmless, answer, continuedDuties]
        · cases how <;> simp [Duty.signals, answer, continuedDuties]

/-- A run that is let go on is asked for a resumption by the handler. -/
theorem of_handle {request : Request}
    (h : run.OnCourse marks registry r script cs sent (.session (.handle request) :: ds))
    (hcurrent : s.current = some r) :
    ((SessionDuty.handle request).perform b s).1 = s ∧ run.OnCourse marks registry r script cs sent
      (((SessionDuty.handle request).perform b s).2 ++ ds) := by
  rcases h.stage with ⟨-, -, hwaits⟩ | ⟨hbefore, taken, coming, ns, rfl, htold, herrand⟩
  · cases hwaits.harmless (.session (.handle request)) (by simp)
  cases herrand with
  | free hall => cases hall (.session (.handle request)) (by simp)
  | @asked _ how args hname hargs hpaused =>
    have hperform : (SessionDuty.handle request).perform b s =
        (s, [.request r (.resume request how)]) := by
      simp only [SessionDuty.perform, hname, State.handle, withArguments, hargs, State.forCurrent,
        hcurrent]
    rw [hperform]
    exact ⟨rfl, h.undisturbed, .inr ⟨⟨hbefore.started, by simp, hbefore.starter⟩, taken, _, ns, rfl,
      htold, .accepted hpaused⟩⟩

/-! ## Steps of the starter -/

theorem of_untouched (h : run.OnCourse marks registry r script cs sent hs)
    (hsame : run.Untouched run') (hphase : run'.phase = run.phase)
    (hstarted : run'.started = true → run.started = true ∨ .run r .spawn ∈ run'.starter)
    (hspawn : .run r .spawn ∈ run.starter → .run r .spawn ∈ run'.starter)
    (hbegun : run.Begun r hs → run'.Begun r hs) :
    run'.OnCourse marks registry r script cs sent hs := by
  refine ⟨hsame.undisturbed h.undisturbed, ?_⟩
  rcases h.stage with ⟨rfl, rfl, hwaits⟩ | ⟨hbefore, taken, coming, ns, rfl, htold, herrand⟩
  · refine .inl ⟨rfl, rfl, hwaits.of_untouched hsame (by rw [hphase]; exact hwaits.fresh.phase)
      hwaits.harmless hwaits.owed fun hs => ?_⟩
    rcases hstarted hs with hs | hs
    · exact (hwaits.spawner hs).imp_right hspawn
    · exact .inr hs
  · refine .inr ⟨hbegun hbefore, taken, coming, ns, rfl, hsame.told htold, ?_⟩
    cases herrand with
    | free hharmless hcount hsteps =>
      exact .free hharmless (by rwa [hsame.context]) (by rwa [hsame.context])
    | asked hname hargs hpaused => exact .asked hname hargs (hphase.trans hpaused)
    | accepted hpaused => exact .accepted (hphase.trans hpaused)
    | released hharmless hpermits howed =>
      exact .released hharmless (by rwa [hsame.context]) howed

/-- A step of its starter leaves a run on its course. -/
theorem of_starter {e : Duty} (h : run.OnCourse marks registry r script cs sent hs)
    (horder : run.Orderly r hs) (hstarter : run.starter = e :: ds)
    (hd : e.stroke? b s r { run with starter := ds } = some done)
    (hbegun : done.run.thread ≠ [] ∨ run.Begun r hs →
      Run.Begun r hs { done.run with starter := done.next ++ done.run.starter }) :
    Run.OnCourse marks registry r script cs sent hs
      { done.run with starter := done.next ++ done.run.starter } := by
  have hrun := h.undisturbed
  have hplan := horder.starter
  rw [hstarter] at hplan
  cases hplan with
  | look d =>
    obtain ⟨hdone, -, -⟩ := StarterDuty.plan_of_perform? hd
    rw [hdone] at hbegun ⊢
    exact h.of_untouched ((Untouched.refl run).with_starter _) rfl .inl (by simp [hstarter])
      fun hbefore => hbegun (.inr hbefore)
  | late | startIfLive =>
    obtain rfl := Option.some.inj hd
    exact h.of_untouched ((Untouched.refl run).with_starter _) rfl .inl (by simp [hstarter])
      fun hbefore => hbegun (.inr hbefore)
  | claim =>
    simp only [Duty.stroke?, RunDuty.perform?] at hd
    split at hd <;> obtain rfl := Option.some.inj hd
    · exact h.of_untouched ((Untouched.refl run).with_starter _) rfl .inl (by simp [hstarter])
        fun hbefore => hbegun (.inr hbefore)
    · refine h.of_untouched ?_ rfl (by simp) (by simp [hstarter])
        fun hbefore => hbegun (.inr hbefore)
      exact ⟨rfl, rfl, rfl, rfl, rfl, rfl, rfl, rfl, rfl, rfl, rfl, rfl⟩
  | cancel =>
    obtain rfl := Option.some.inj hd
    refine h.of_untouched ?_ rfl .inl (by simp) fun hbefore => hbegun (.inr hbefore)
    exact ⟨rfl, rfl, rfl, rfl, rfl, rfl, rfl, rfl, rfl, rfl, rfl, rfl⟩
  | running =>
    simp only [Duty.stroke?, RunDuty.perform?] at hd
    split at hd <;> cases hd
    rcases h.stage with ⟨rfl, rfl, hwaits⟩ | ⟨hbefore, -⟩
    · have hsame : run.Untouched { run with phase := .running, starter := [.run r .spawn] } :=
        ⟨rfl, rfl, rfl, rfl, rfl, rfl, rfl, rfl, rfl, rfl, rfl, rfl⟩
      exact ⟨hsame.undisturbed hrun, .inl ⟨rfl, rfl,
        hwaits.of_untouched hsame (by simp) hwaits.harmless hwaits.owed fun _ => .inr (by simp)⟩⟩
    · exact absurd (by simp [hstarter]) hbefore.starter
  | spawn =>
    obtain rfl := Option.some.inj hd
    rcases h.stage with ⟨rfl, rfl, hwaits⟩ | ⟨hbefore, -⟩
    · have hsame : Run.Untouched { run with thread := [.run r (.emit (startNote run.clientPath
          run.key)), .thread r .reach] } { run with
            starter := []
            thread := [.run r (.emit (startNote run.clientPath run.key)), .thread r .reach] } :=
        ⟨rfl, rfl, rfl, rfl, rfl, rfl, rfl, rfl, rfl, rfl, rfl, rfl⟩
      refine ⟨⟨hrun.live, hrun.opened, hrun.pausePending, hrun.overrides, hrun.lines, hrun.marks⟩,
        .inr ⟨hbegun (.inl (by simp)), [], [], [], rfl, hsame.told hwaits.told,
          .free hwaits.harmless ?_ (by simp)⟩⟩
      simpa [hwaits.fresh.permits] using hwaits.owed
    · exact absurd (by simp [hstarter]) hbefore.starter

/-! ## Steps of the thread -/

/-- A thread that leaves its park takes the command that is under way. -/
theorem of_park (h : run.OnCourse marks registry r script cs sent hs)
    (hbalanced : run.Balanced r (owed r hs) a l) (hthread : run.thread = [.thread r .park])
    {rendezvous : Rendezvous}
    (hwait : run.context.rendezvous.wait? = some (.signaled, rendezvous))
    (hbegun : run.Begun r hs → Run.Begun r hs { run with
      context := { run.context with rendezvous }
      thread := [.thread r .takeOverrides] }) :
    Run.OnCourse marks registry r script cs sent hs { run with
      context := { run.context with rendezvous }
      thread := [.thread r .takeOverrides] } := by
  have hrun := h.undisturbed
  rcases h.stage with ⟨-, -, hwaits⟩ | ⟨hbefore, taken, coming, ns, rfl, htold, herrand⟩
  · cases hwaits.thread.symm.trans hthread
  have hafter := hbegun hbefore
  obtain ⟨-, hpermits, rfl⟩ := Rendezvous.eq_of_signaled hwait
  have hpending := hbalanced.pending_le hrun.opened
  obtain ⟨-, hphase⟩ := hbalanced.atStop hrun.opened (by omega)
  cases herrand with
  | asked _ _ hpaused | accepted hpaused => exact absurd hpaused hphase
  | released _ hzero => omega
  | free hharmless hcount hsteps =>
    obtain ⟨c, rfl⟩ : ∃ c, coming = [c] := List.length_eq_one_iff.1 (by omega)
    have hscript : (fun cs => script (taken ++ [c] ++ cs)) =
        fun cs => script (taken ++ c :: cs) := by
      simp
    refine ⟨⟨hrun.live, hrun.opened, hrun.pausePending, hrun.overrides, hrun.lines, hrun.marks⟩,
      .inr ⟨hafter, taken ++ [c], [], ns, by simp, ?_, .free hharmless ?_ (by simp)⟩⟩
    · rw [hscript]
      exact htold.of_park hthread (hsteps c (by simp)).symm
    · simp only [List.length_singleton, List.length_nil] at hcount ⊢
      omega

/-- What a step of the thread keeps, but for one out of its park. -/
theorem keeps_of_thread {e : Duty} (hrun : run.Undisturbed marks registry)
    (horder : run.Orderly r hs) (hthread : run.thread = e :: ds) (hpark : e ≠ .thread r .park)
    (hd : e.stroke? b s r { run with thread := ds } = some done) :
    done.run.context = run.context ∧ done.run.Undisturbed marks registry ∧
      (run.AtStop r → done.run.phase = run.phase) := by
  have hplan := horder.thread
  rw [hthread] at hplan
  generalize decide (run.lock = some (.thread r)) = holds at hplan
  have hself : Run.Undisturbed marks registry { run with thread := ds } :=
    ⟨hrun.live, hrun.opened, hrun.pausePending, hrun.overrides, hrun.lines, hrun.marks⟩
  obtain ⟨d, rfl⟩ | ⟨d, rfl⟩ := hplan.head_cases
  · cases hplan with
    | finish =>
      simp only [Duty.stroke?, RunDuty.perform?] at hd
      split at hd <;> cases hd
      exact ⟨rfl, ⟨hrun.live, hrun.opened, hrun.pausePending, hrun.overrides, hrun.lines,
        hrun.marks⟩, fun hstop => by simp [AtStop, hthread] at hstop⟩
    | _ =>
      simp only [Duty.stroke?, RunDuty.perform?] at hd
      (repeat' split at hd) <;> cases hd
      all_goals exact ⟨rfl, ⟨hrun.live, hrun.opened, hrun.pausePending, hrun.overrides,
        hrun.lines, hrun.marks⟩, fun _ => rfl⟩
  · have hleaves : d.Leaves r { run with thread := ds } done.run :=
      ThreadDuty.leaves_of_perform? hd
    have hne : d ≠ .park := fun heq => hpark (congrArg _ heq)
    refine ⟨hleaves.context hne, hself.of_leaves hleaves, fun hstop => hleaves.phase ?_⟩
    rintro rfl
    exact hstop.2 (by simp [hthread])

/-- A step of its thread leaves a run on its course. -/
theorem of_thread {e : Duty} (hengine : b.engine = {})
    (h : run.OnCourse marks s.registry r script cs sent hs) (horder : run.Orderly r hs)
    (hbalanced : run.Balanced r (owed r hs) a l) (hthread : run.thread = e :: ds)
    (hd : e.stroke? b s r { run with thread := ds } = some done)
    (hbegun : run.Begun r hs →
      Run.Begun r hs { done.run with thread := done.next ++ done.run.thread }) :
    ∃ evs, done.sent = evs.map .event ∧
      Run.OnCourse marks s.registry r script cs (sent ++ evs) hs
        { done.run with thread := done.next ++ done.run.thread } := by
  have hrun := h.undisturbed
  by_cases hpark : e = .thread r .park
  · subst hpark
    obtain rfl : ds = [] := by
      have hplan := horder.thread
      rw [hthread] at hplan
      generalize decide (run.lock = some (.thread r)) = holds at hplan
      cases hplan
      rfl
    rcases ThreadDuty.cases_of_park hd with ⟨rendezvous, hwait, rfl⟩ | ⟨hclosed, -⟩
    · exact ⟨[], rfl, by simpa using h.of_park hbalanced hthread hwait hbegun⟩
    · cases hrun.opened.symm.trans hclosed
  rcases h.stage with ⟨-, -, hwaits⟩ | ⟨hbefore, taken, coming, ns, rfl, htold, herrand⟩
  · cases hwaits.thread.symm.trans hthread
  obtain ⟨evs, ns', hsent, htold'⟩ := htold.of_thread hengine hrun horder hthread hpark hd
  obtain ⟨hcontext, hrun', hphase⟩ := keeps_of_thread hrun horder hthread hpark hd
  have hpaused (hpaused : run.phase = .paused) : done.run.phase = .paused :=
    (hphase (hbalanced.paused hrun.opened hpaused)).trans hpaused
  refine ⟨evs, hsent, ⟨hrun'.live, hrun'.opened, hrun'.pausePending, hrun'.overrides, hrun'.lines,
    hrun'.marks⟩, .inr ⟨hbegun hbefore, taken, coming, ns', rfl, htold', ?_⟩⟩
  cases herrand with
  | free hharmless hcount hsteps =>
    exact .free hharmless (by rwa [← hcontext] at hcount) (by rwa [← hcontext] at hsteps)
  | asked hname hargs hask => exact .asked hname hargs (hpaused hask)
  | accepted hask => exact .accepted (hpaused hask)
  | released hharmless hpermits howed =>
    exact .released hharmless (by rwa [← hcontext] at hpermits) howed

/-- What the handler is about to do is about this run or about none. -/
theorem subject_of_head (h : run.OnCourse marks registry r script cs sent (d :: ds)) :
    d.subject? = none ∨ d.subject? = some r := by
  have hown (hharmless : d.isHarmless r = true) : d.subject? = none ∨ d.subject? = some r := by
    cases d with
    | session d => exact .inl rfl
    | run r' e =>
      simp only [Duty.isHarmless, Bool.and_eq_true, beq_iff_eq] at hharmless
      exact .inr (congrArg _ hharmless.1)
    | request r' e => cases e <;> simp_all [Duty.isHarmless, Duty.subject?]
    | _ => cases hharmless
  rcases h.stage with ⟨-, -, hwaits⟩ | ⟨-, _, _, _, -, -, herrand⟩
  · exact hown (hwaits.harmless d (by simp))
  · cases herrand with
    | free hharmless => exact hown (hharmless d (by simp))
    | asked => exact .inl rfl
    | _ => exact .inr rfl

/-- What the handler is about to do to the session is to handle a request, or it is harmless. -/
theorem session_of_head {d : SessionDuty}
    (h : run.OnCourse marks registry r script cs sent (.session d :: ds)) :
    (∃ request, d = .handle request) ∨ (Duty.session d).isHarmless r = true := by
  rcases h.stage with ⟨-, -, hwaits⟩ | ⟨-, _, _, _, -, -, herrand⟩
  · exact .inr (hwaits.harmless _ (by simp))
  · cases herrand with
    | free hharmless => exact .inr (hharmless _ (by simp))
    | asked => exact .inl ⟨_, rfl⟩

end Run.OnCourse

end Handler

/-! ## Steps of any party -/

/-- Whether run `r` is the current one and on its course. -/
structure State.Follows (marks : UInt32 → Option Mark) (r : RunId)
    (script : List Resumption → List Notice) (cs : List Resumption) (sent : List Event)
    (s : State) (run : Run) : Prop where
  current : s.currentRun? = some (r, run)
  course : run.OnCourse marks s.registry r script cs sent s.handler

namespace State

variable {script : List Resumption → List Notice} {cs : List Resumption} {sent : List Event}
  {es : List (State × Party)}

/-- A run that has a thread at work, or has begun before, has begun. -/
theorem Stride.begun (hst : s.Stride b t p) (horder : s.Orderly) (hr : s.runs[r]? = some run)
    (hr' : t.runs[r]? = some run') (h : run'.thread ≠ [] ∨ run.Begun r s.handler) :
    run'.Begun r t.handler := by
  rcases h with hthread | hbegun
  · exact ((horder.of_stride hst).runs hr').begun hthread
  · obtain ⟨run₁, hr₁, hbegun⟩ := Begun.of_stride ⟨run, hr, hbegun⟩ horder hst
    obtain rfl := Option.some.inj (hr'.symm.trans hr₁)
    exact hbegun

/-- A duty of the handler on the session leaves a run on its course. -/
theorem Follows.of_session {d : SessionDuty} {ds : List Duty}
    (h : s.Follows marks r script cs sent run) (hs : s.handler = .session d :: ds) :
    Follows marks r script cs sent { (d.perform b { s with handler := ds }).1 with
      handler := (d.perform b { s with handler := ds }).2 ++ ds } run := by
  obtain ⟨hcurrent, hr⟩ := currentRun?_eq_some.1 h.current
  have hcourse := h.course
  rw [hs] at hcourse
  have hpass {u : State} (hrun : u.currentRun? = s.currentRun?)
      (hregistry : u.registry = s.registry)
      (hharmless : (Duty.session d).isHarmless r = true) :
      Follows marks r script cs sent { u with handler := [] ++ ds } run := by
    refine ⟨hrun.trans h.current, ?_⟩
    rw [hregistry]
    exact hcourse.of_aside hharmless (by simp) rfl (by simp) rfl fun hbefore =>
      ⟨hbefore.started, fun hmem => hbefore.handler (.tail _ hmem), hbefore.starter⟩
  rcases hcourse.session_of_head with ⟨request, rfl⟩ | hharmless
  · obtain ⟨hsame, hnext⟩ := hcourse.of_handle (b := b) (s := { s with handler := ds }) hcurrent
    refine ⟨?_, ?_⟩
    · rw [hsame]
      exact h.current
    · simp only [hsame]
      exact hnext
  · cases d with
    | send m => exact hpass rfl rfl hharmless
    | reportTermination =>
      simp only [SessionDuty.perform]
      split <;> exact hpass rfl rfl hharmless
    | _ => cases hharmless

theorem Follows.of_eq (h : s.Follows marks r script cs sent run)
    (hcurrent : t.currentRun? = s.currentRun?) (hregistry : t.registry = s.registry)
    (hhandler : t.handler = s.handler) : t.Follows marks r script cs sent run where
  current := hcurrent.trans h.current
  course := by
    rw [hregistry, hhandler]
    exact h.course

theorem currentRun?_setRun_of_ne {r₀ : RunId} {run₀ : Run} (ms : List Outgoing)
    (hr : s.currentRun? = some (r, run)) (hne : r₀ ≠ r) :
    ((s.setRun r₀ run₀).send ms).currentRun? = s.currentRun? := by
  obtain ⟨hcurrent, hrun⟩ := currentRun?_eq_some.1 hr
  rw [hr]
  exact currentRun?_eq_some.2 ⟨hcurrent, by simpa [setRun, send, hne] using hrun⟩

/-- A step of any party leaves a run on its course. -/
theorem Follows.of_stride (hengine : b.engine = {}) (h : s.Follows marks r script cs sent run)
    (horder : s.Orderly) (hbalanced : s.Balanced es) (hst : s.Stride b t p) :
    ∃ run' evs, t.Follows marks r script cs (sent ++ evs) run' ∧
      (p = .thread r → t.outbox = s.outbox ++ evs.map .event) ∧ (p ≠ .thread r → evs = []) := by
  obtain ⟨hcurrent, hr⟩ := currentRun?_eq_some.1 h.current
  have hlt : r < s.runs.length := (List.getElem?_eq_some_iff.1 hr).1
  have hcourse := h.course
  have hrun := horder.runs hr
  have hbalance := hbalanced.runs hr
  have hst' := hst
  cases hst' with
  | session hs ht =>
    subst ht
    exact ⟨run, [], by simpa using h.of_session hs, (by simp), fun _ => rfl⟩
  | @handler r₀ run₀ d ds done hs hsub hr₀ hd ht =>
    rw [hs] at hcourse hrun hbalance
    obtain rfl : r₀ = r := by
      rcases hcourse.subject_of_head with hsub' | hsub'
      · cases hsub.symm.trans hsub'
      · exact Option.some.inj (hsub.symm.trans hsub')
    obtain rfl := Option.some.inj (hr.symm.trans hr₀)
    have hr' : t.runs[r₀]? = some done.run := by simp [ht, setRun, send, hlt]
    have hbegun := hst.begun horder hr hr'
    have hhandler : t.handler = done.next ++ ds := by rw [ht]
    rw [hhandler, hs] at hbegun
    refine ⟨done.run, [], ⟨currentRun?_eq_some.2 ⟨by rw [ht]; exact hcurrent, hr'⟩, ?_⟩, (by simp),
      fun _ => rfl⟩
    rw [List.append_nil, hhandler, show t.registry = s.registry by rw [ht]; rfl]
    have hown : d.BelongsTo .handler := horder.belongsTo hs
    cases d with
    | session d => cases hd
    | starter _ d | thread _ d => exact hown.elim
    | run _ d =>
      cases hsub
      exact hcourse.of_run hrun hbalance hd hbegun
    | request _ d =>
      cases hsub
      exact hcourse.of_request hbalance hd fun hbefore => hbegun (.inr hbefore)
  | @starter r₀ run₀ d ds done hs hr₀ hd ht =>
    by_cases hne : r₀ = r
    · subst hne
      obtain rfl := Option.some.inj (hr.symm.trans hr₀)
      have hr' : t.runs[r₀]? = some { done.run with starter := done.next ++ done.run.starter } := by
        simp [ht, setRun, send, hlt]
      have hbegun := hst.begun horder hr hr'
      rw [show t.handler = s.handler by rw [ht]; rfl] at hbegun
      refine ⟨_, [], ⟨currentRun?_eq_some.2 ⟨by rw [ht]; exact hcurrent, hr'⟩, ?_⟩, (by simp),
        fun _ => rfl⟩
      rw [List.append_nil, ht]
      exact hcourse.of_starter hrun hs hd hbegun
    · subst ht
      refine ⟨run, [], ?_, (by simp), fun _ => rfl⟩
      rw [List.append_nil]
      exact h.of_eq (currentRun?_setRun_of_ne _ h.current hne) rfl rfl
  | @thread r₀ run₀ d ds done hs hr₀ hd ht =>
    by_cases hne : r₀ = r
    · subst hne
      obtain rfl := Option.some.inj (hr.symm.trans hr₀)
      have hr' : t.runs[r₀]? = some { done.run with thread := done.next ++ done.run.thread } := by
        simp [ht, setRun, send, hlt]
      have hbegun := hst.begun horder hr hr'
      rw [show t.handler = s.handler by rw [ht]; rfl] at hbegun
      obtain ⟨evs, hsent, hcourse'⟩ := hcourse.of_thread hengine hrun hbalance hs hd
        fun hbefore => hbegun (.inr hbefore)
      refine ⟨_, evs, ⟨currentRun?_eq_some.2 ⟨by rw [ht]; exact hcurrent, hr'⟩, ?_⟩, fun _ => ?_,
        fun hne => absurd rfl hne⟩
      · rw [ht]
        exact hcourse'
      · rw [ht, ← hsent]
        rfl
    · subst ht
      refine ⟨run, [], ?_, fun heq => absurd (by simpa using heq) hne, fun _ => rfl⟩
      rw [List.append_nil]
      exact h.of_eq (currentRun?_setRun_of_ne _ h.current hne) rfl rfl

/-- A command that comes at a stop is under way. -/
theorem Follows.of_resume {request : Request} {how : Resumption} {args : Protocol.ThreadArguments}
    (h : s.Follows marks r script cs sent run) (hbalanced : s.Balanced es) (hs : s.handler = [])
    (hphase : run.phase = .paused)
    (hname : Protocol.Command.ofName? request.command = some (.resume how))
    (hargs : Protocol.decodeArguments request.command Protocol.ThreadArguments.shape.decode
      request.arguments = .ok args) :
    (s.accept (.request request)).Follows marks r script (cs ++ [how]) sent run := by
  have hcourse := h.course
  have hbalance := hbalanced.runs (currentRun?_eq_some.1 h.current).2
  have hhandler : (s.accept (.request request)).handler = [.session (.handle request)] := by
    simp [accept, hs]
  refine ⟨h.current, hcourse.undisturbed, .inr ?_⟩
  rw [hs] at hcourse hbalance
  rw [hhandler]
  have hnone := hbalance.none hcourse.undisturbed.opened fun _ => hphase
  rcases hcourse.stage with ⟨-, -, hwaits⟩ | ⟨hbegun, taken, coming, ns, rfl, htold, herrand⟩
  · exact absurd hphase hwaits.fresh.phase
  cases herrand with
  | free _ hcount =>
    obtain rfl : coming = [] := List.length_eq_zero_iff.1 (hcount.symm.trans hnone)
    refine ⟨⟨hbegun.started, by simp, hbegun.starter⟩, taken, [how], ns, by simp, htold, ?_⟩
    exact .asked hname hargs hphase

theorem sentIn_eq (hp : s.advance? b p = some t) {evs : List Event}
    (hsent : p = .thread r → t.outbox = s.outbox ++ evs.map .event)
    (hnone : p ≠ .thread r → evs = []) : sentIn b r (s, p) = evs.map .event := by
  unfold sentIn
  split
  next heq => simp [hp, hsent heq]
  next hne => simp [hnone hne]

/-- On its whole course, a run follows the script. -/
theorem Course.follows {es₀ : List (State × Party)} (hengine : b.engine = {})
    (h : Course b r s cs es t) (hpath : Path b {} es₀ s)
    (hs : s.Follows marks r script [] [] run) :
    ∃ run' evs, t.Follows marks r script cs evs run' ∧ sentBy b r es = evs.map .event := by
  induction h with
  | refl => exact ⟨run, [], hs, rfl⟩
  | @step cs es t u p hcourse hp ih =>
    obtain ⟨run', evs, hfollows, hsent⟩ := ih
    have hpath := hcourse.path hpath
    have horder := hpath.orderly orderly_empty
    obtain ⟨run'', evs', hfollows', hsends, hnone⟩ :=
      hfollows.of_stride hengine horder hpath.balanced (horder.stride hp)
    refine ⟨run'', evs ++ evs', hfollows', ?_⟩
    rw [sentBy, List.flatMap_append, List.flatMap_singleton, sentIn_eq hp hsends hnone,
      List.map_append, ← hsent, sentBy]
  | elapse _ _ ih | release _ ih =>
    obtain ⟨run', evs, hfollows, hsent⟩ := ih
    exact ⟨run', evs, hfollows.of_eq rfl rfl rfl, hsent⟩
  | @resume cs es t run₁ request how args hcourse hrest hcurrent hphase hname hargs ih =>
    obtain ⟨run', evs, hfollows, hsent⟩ := ih
    obtain ⟨-, rfl⟩ := Prod.mk.inj (Option.some.inj (hfollows.current.symm.trans hcurrent))
    exact ⟨run', evs, hfollows.of_resume (hcourse.path hpath).balanced hrest hphase hname hargs,
      hsent⟩

end State

end DebugAdapter.Session
