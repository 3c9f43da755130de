import DebugAdapter.Proofs.Session.InstalledLines
/-!
# Lines at a statement boundary

Breakpoints are in the registry before the handler passes them on to the current run
(`State.isPassing`), and a starter that finds them there starts the run. So a thread may come to its
first statement in between. `boundary_lines_exact` says which lines it meets there, whoever took
which step : the ones of the registry, if the handler judged rightly and is not in between.
-/

namespace DebugAdapter.Session

open Protocol (Request)

/-- What passes no lines on leads to nothing that does, but for a change of breakpoints. -/
theorem SessionDuty.passes_of_mem_perform {b : Backend} {s : State} {d : SessionDuty}
    (hpasses : (Duty.session d).passes = false) (hreplaces : (Duty.session d).replaces = false) :
    ∀ e ∈ (d.perform b s).2, e.passes = false := by
  cases d with
  | handle request =>
    simp only [perform]
    split
    · exact passes_of_mem_handle
    · exact fun e he => Duty.passes_of_isAside (isAside_of_mem_refuse e he)
  | openRun request args =>
    rcases s.prepare_cases b request args with ⟨ds, haside, heq⟩ | ⟨_, _, _, -, -, -, heq⟩
    · simp only [perform, heq]
      exact fun e he => Duty.passes_of_isAside (haside e he)
    · simp [perform, heq, State.openRun, Duty.passes, answer]
  | replaceBreakpoints => cases hreplaces
  | passOn => cases hpasses
  | shutdown =>
    intro e he
    rcases List.mem_append.1 he with he | he
    · exact passes_of_mem_abandonAny e he
    · obtain rfl : e = .session .clearRegistry := by simpa using he
      rfl
  | reportTermination =>
    simp only [perform]
    split <;> simp
  | send | clearRegistry => simp [perform]

namespace State

/-- Whether new breakpoints are in the registry that the handler has yet to pass on to run `r`. -/
def isPassing (s : State) (r : RunId) (run : Run) : Bool :=
  match s.handler with
  | .session (.passOn replaced _) :: _ => replaced.matches run.key
  | .run r' (.setLines _) :: _ => r' == r
  | _ => false

variable {b : Backend} {s t u : State} {p : Party} {r : RunId} {run run' : Run}
  {es es' : List (State × Party)}

/-- A run has what it is promised unless the handler has yet to pass it on. -/
theorem promised_of_isPassing (h : s.isPassing r run = false) :
    s.promised r run = run.context.lines := by
  unfold isPassing at h
  unfold promised
  split at h <;> simp_all

theorem isPassing_eq_false (h : ∀ d ∈ s.handler, d.passes = false) : s.isPassing r run = false := by
  unfold isPassing
  split
  next heq => cases h _ (by rw [heq]; exact .head _)
  next heq => cases h _ (by rw [heq]; exact .head _)
  · rfl

/-! ## Until lines are passed on -/

/-- Whether the handler still has to pass these breakpoints on, and run `r` has the lines of `run`
until then. -/
def Holds (replaced : Replaced) (r : RunId) (run : Run) (s : State) : Prop :=
  ((∃ m, s.handler = [.session (.passOn replaced m)]) ∨
      ∃ r' m, s.handler = [.run r' (.setLines replaced.lines), .request r' (.answerThenStart m)]) ∧
    ∃ run', s.runs[r]? = some run' ∧ run.Retains run'

variable {replaced : Replaced}

/-- A step of the handler passes the lines on, or is about to. -/
theorem Holds.of_handler (h : s.Holds replaced r run) (horder : s.Orderly)
    (hst : s.Stride b t .handler) : t.Holds replaced r run ∨ ∀ d ∈ t.handler, d.passes = false := by
  obtain ⟨hhandler, run', hr, hretains⟩ := h
  cases hst with
  | @session d ds hs ht =>
    obtain ⟨m, hpass⟩ | ⟨r', m, hset⟩ := hhandler
    · obtain ⟨heq, rfl⟩ := List.cons.inj (hs.symm.trans hpass)
      cases heq
      simp only [SessionDuty.perform, passOn, List.append_nil] at ht
      repeat' split at ht
      · exact .inl ⟨.inr ⟨_, m, by rw [ht]⟩, run', by rw [ht]; exact hr, hretains⟩
      · exact .inr (by simp [ht, Duty.passes])
      · exact .inr (by simp [ht, Duty.passes])
    · cases hs.symm.trans hset
  | @handler r' run₀ d ds done hs hsub hr' hd ht =>
    refine .inr fun e he => ?_
    rw [ht] at he
    rcases List.mem_append.1 he with he | he
    · exact Duty.passes_of_isCalm (isCalm_of_stroke (horder.belongsTo hs) hd e he)
    · obtain ⟨m, hpass⟩ | ⟨r', m, hset⟩ := hhandler
      · obtain ⟨rfl, rfl⟩ := List.cons.inj (hs.symm.trans hpass)
        cases hsub
      · obtain ⟨rfl, rfl⟩ := List.cons.inj (hs.symm.trans hset)
        obtain rfl : e = .request r' (.answerThenStart m) := by simpa using he
        rfl

/-- A step of another party leaves the lines that a run has. -/
theorem Holds.of_other (h : s.Holds replaced r run) (horder : s.Orderly)
    (hst : s.Stride b t p) (hp : p ≠ .handler) : t.Holds replaced r run := by
  obtain ⟨hhandler, run', hr, hretains⟩ := h
  cases hr' : t.runs[r]? with
  | none => cases hr.symm.trans (hst.runs_none hr')
  | some run'' =>
    have hretains' := hst.retains horder (horder.head_ne_setLines hp r) hr hr'
    refine ⟨by rw [hst.handler_eq hp]; exact hhandler, run'', hr', ?_⟩
    exact ⟨hretains'.key.trans hretains.key, hretains'.lines.trans hretains.lines,
      fun hlive => hretains.live (hretains'.live hlive)⟩

/-- Giving up a run leaves the lines that a run has. -/
theorem Holds.of_givenUp {r₀ : RunId} {run₀ run₁ : Run} (h : s.Holds replaced r run)
    (hr₀ : s.runs[r₀]? = some run₀) (hgive : run₀.GivenUp run₁) :
    (s.setRun r₀ run₁).Holds replaced r run := by
  obtain ⟨hhandler, run', hr', hretains⟩ := h
  refine ⟨hhandler, ?_⟩
  by_cases heq : r₀ = r
  · subst heq
    obtain rfl := Option.some.inj (hr₀.symm.trans hr')
    have hlt : r₀ < s.runs.length := (List.getElem?_eq_some_iff.1 hr').1
    exact ⟨run₁, by simp [setRun, hlt], hretains.of_givenUp hgive⟩
  · exact ⟨run', by simpa [setRun, heq] using hr', hretains⟩

/-- A handler that passes nothing on goes on to pass nothing on, but for a change of breakpoints. -/
theorem Stride.passes_of_mem (hst : s.Stride b t p) (horder : s.Orderly)
    (hs : ∀ d ∈ s.handler, d.passes = false)
    (hreplaces : ∀ d ∈ (s.agenda p).head?, d.replaces = false) :
    ∀ d ∈ t.handler, d.passes = false := by
  by_cases hp : p = .handler
  case neg =>
    rw [hst.handler_eq hp]
    exact hs
  subst hp
  cases hst with
  | @session d ds hds ht =>
    intro e he
    rw [ht] at he
    rcases List.mem_append.1 he with he | he
    · exact SessionDuty.passes_of_mem_perform (hs _ (by simp [hds]))
        (hreplaces _ (by simp [agenda, hds])) e he
    · exact hs e (by simp [hds, he])
  | handler hds _ _ hd ht =>
    intro e he
    rw [ht] at he
    rcases List.mem_append.1 he with he | he
    · exact Duty.passes_of_isCalm (isCalm_of_stroke (horder.belongsTo hds) hd e he)
    · exact hs e (by simp [hds, he])

/-- On a path without another change of breakpoints a run keeps its lines until new ones are passed
on. -/
theorem Path.holds {m : Protocol.Outgoing} (h : Path b s es t) (horder : s.Orderly)
    (hs : s.handler = [.session (.passOn replaced m)]) (hr : s.runs[r]? = some run)
    (hes : ∀ e ∈ es, ∀ d ∈ (e.1.agenda e.2).head?, d.replaces = false) :
    t.Holds replaced r run ∨ ∀ d ∈ t.handler, d.passes = false := by
  induction h with
  | refl => exact .inl ⟨.inl ⟨m, hs⟩, run, hr, .refl run⟩
  | @step es t u p hpath hp ih =>
    have horder := hpath.orderly horder
    have hst := horder.stride hp
    rcases ih fun e he => hes e (by simp [he]) with hholds | hpasses
    · by_cases hparty : p = .handler
      · subst hparty
        exact hholds.of_handler horder hst
      · exact .inl (hholds.of_other horder hst hparty)
    · exact .inr (hst.passes_of_mem horder hpasses (hes (t, p) (by simp)))
  | @accept es t i _ hi ih =>
    cases i with
    | request | hangUp =>
      have hnil : t.handler = [] := hi
      refine .inr ?_
      simp [State.accept, hnil, Duty.passes]
    | elapse | release => exact ih hes
  | @giveUp es t r₀ run₀ run₁ _ hr₀ hgive ih =>
    exact (ih hes).imp_left fun hholds => hholds.of_givenUp hr₀ hgive

/-! ## After breakpoints were replaced -/

/-- After breakpoints were replaced, the live run that had the lines of the registry has them again
just when the handler judged rightly; but as long as the handler has yet to pass the new ones on,
just when these are the old ones. -/
theorem Path.lines_iff {request : Request} {args : Protocol.BreakpointArguments}
    (h : Path b {} es s) (hs : s.handler = [.session (.replaceBreakpoints request args)])
    (hr : s.currentRun? = some (r, run)) (hagrees : run.context.lines = s.registry.lines run.key)
    (hstep : s.advance? b .handler = some t) (h' : Path b t es' u)
    (hes : ∀ e ∈ es', ∀ d ∈ (e.1.agenda e.2).head?, d.replaces = false)
    (hr' : u.currentRun? = some (r, run')) (hlive : run'.isLive = true) :
    run'.context.lines = u.registry.lines run'.key ↔
      if u.isPassing r run' then s.registry.lines run.key = u.registry.lines run'.key
      else s.registry.judgesLines args.source args.requested run.key := by
  have horder := h.orderly orderly_empty
  have hpath := h.step hstep
  obtain ⟨hcurrent, hregistry, hpromised⟩ := (horder.stride hstep).of_replaceBreakpoints hs
  rw [hr] at hcurrent
  have hrun := (currentRun?_eq_some.1 hcurrent).2
  split
  next hpassing =>
    obtain ⟨replaced, m, hpass⟩ : ∃ replaced m, t.handler = [.session (.passOn replaced m)] := by
      cases horder.stride hstep with
      | session hs' ht =>
        obtain ⟨heq, rfl⟩ := List.cons.inj (hs'.symm.trans hs)
        cases heq
        exact ⟨_, _, by rw [ht]; rfl⟩
      | handler hs' hsub =>
        obtain ⟨rfl, rfl⟩ := List.cons.inj (hs'.symm.trans hs)
        cases hsub
    rcases h'.holds (hpath.orderly orderly_empty) hpass hrun hes with
      ⟨-, run₁, hr₁, hretains⟩ | hnone
    · obtain rfl := Option.some.inj ((currentRun?_eq_some.1 hr').2.symm.trans hr₁)
      rw [hretains.lines, hagrees]
    · cases (isPassing_eq_false hnone).symm.trans hpassing
  next hpassing =>
    obtain ⟨hregistry', run₁, hr₁, -, hkey, hlines⟩ := h'.inherits (hpath.orderly orderly_empty)
      (hpath.tidy orderly_empty tidy_empty) hes hrun hr' hlive
    obtain ⟨-, rfl⟩ := Prod.mk.inj (Option.some.inj (hr₁.symm.trans hcurrent))
    rw [promised_of_isPassing (by simpa using hpassing), hpromised, hagrees] at hlines
    rw [hlines, hregistry', hregistry, hkey]
    exact agrees_iff_judgesLines

theorem mem_afterCheck_iff {line : UInt32} {suspends : Bool} :
    .thread r .perform ∈ afterCheck b s r line suspends .perform ↔ suspends = false := by
  have hnot : .thread r .perform ∉ stallThen b s r line true .suspend :=
    not_mem_stallThen nofun nofun
  cases suspends <;> simp [afterCheck, hnot]

/-- At a boundary, a thread that asks for the line of its next statement goes on to execute it just
when its run has no breakpoint there. -/
theorem Orderly.performs_iff {stmt : Script.Statement} {rest : Script.Program} (horder : s.Orderly)
    (hr : s.runs[r]? = some run) (hthread : run.thread = [.thread r .checkLine])
    (hrest : run.rest = stmt :: rest) (hp : s.advance? b (.thread r) = some t) :
    ∃ run', t.runs[r]? = some run' ∧
      (.thread r .perform ∈ run'.thread ↔ stmt.line ∉ run.context.lines) := by
  cases horder.stride hp with
  | @thread _ run₀ d ds done hs hr₀ hd ht =>
    obtain rfl := Option.some.inj (hr.symm.trans hr₀)
    obtain ⟨rfl, rfl⟩ := List.cons.inj (hthread.symm.trans hs)
    have hlt : r < s.runs.length := (List.getElem?_eq_some_iff.1 hr).1
    have hnext : done.next ++ done.run.thread =
        afterCheck b s r stmt.line (run.context.hasBreakpoint stmt.line) .perform := by
      simp only [Duty.stroke?, ThreadDuty.perform?, hrest, ThreadDuty.performAt?] at hd
      obtain rfl := Option.some.inj hd
      exact List.append_nil _
    refine ⟨_, by rw [ht]; simp [setRun, send, hlt]; rfl, ?_⟩
    rw [hnext, mem_afterCheck_iff, Context.hasBreakpoint, ← Bool.not_eq_true, List.contains_iff_mem]

end State

/-! ## What a thread meets at its first statement -/

/-- A live run has the lines that the registry has for it whenever the handler has none to pass on
to it, whoever took which step and whoever started it, if every change of breakpoints passed its
lines on rightly; so its thread executes no statement that has a breakpoint in the registry without
suspending. After one change the lines are those of the registry again just when it passed them on
rightly; until it passed them on, just when they are the old ones. -/
theorem boundary_lines_exact (b : Backend) :
    (∀ {es : List (State × Party)} {s : State} {r : RunId} {run : Run},
      State.Path b {} es s → (∀ e ∈ es, e.2 = .handler → e.1.JudgesRightly) →
      s.currentRun? = some (r, run) → run.isLive = true → s.isPassing r run = false →
      run.context.lines = s.registry.lines run.key ∧
        ∀ {stmt : Script.Statement} {rest : Script.Program} {t : State},
          run.thread = [.thread r .checkLine] → run.rest = stmt :: rest →
          s.advance? b (.thread r) = some t → ∃ run', t.runs[r]? = some run' ∧
            (.thread r .perform ∈ run'.thread ↔ stmt.line ∉ s.registry.lines run.key)) ∧
    ∀ {es es' : List (State × Party)} {s t u : State} {r : RunId} {run run' : Run}
      {request : Request} {args : Protocol.BreakpointArguments},
      State.Path b {} es s → s.handler = [.session (.replaceBreakpoints request args)] →
      s.currentRun? = some (r, run) → run.context.lines = s.registry.lines run.key →
      s.advance? b .handler = some t → State.Path b t es' u →
      (∀ e ∈ es', ∀ d ∈ (e.1.agenda e.2).head?, d.replaces = false) →
      u.currentRun? = some (r, run') → run'.isLive = true →
      (run'.context.lines = u.registry.lines run'.key ↔
        if u.isPassing r run' then s.registry.lines run.key = u.registry.lines run'.key
        else s.registry.judgesLines args.source args.requested run.key) := by
  refine ⟨fun {es s r run} h hright hr hlive hpassing => ?_, State.Path.lines_iff⟩
  have hlines : run.context.lines = s.registry.lines run.key := by
    rw [← State.promised_of_isPassing hpassing]
    exact h.inStep hright r run hr hlive
  refine ⟨hlines, fun {stmt rest t} hthread hrest hp => ?_⟩
  rw [← hlines]
  exact (h.orderly State.orderly_empty).performs_iff (State.currentRun?_eq_some.1 hr).2 hthread
    hrest hp

/-- Whether the starter of run `r` is about to find breakpoints for it in time. -/
def findsEntry (r : RunId) (e : State × Party) : Bool :=
  match e.2, e.1.runs[r]? with
  | .starter r', some run =>
    r' == r && match run.starter with
    | .starter _ (.lookEntry deadline) :: _ =>
      e.1.registry.hasEntry run.key && decide (e.1.clock < deadline)
    | _ => false
  | _, _ => false

/-- Whether the current run, if it is run 0, was started for its breakpoints and is about to ask for
the line of its only statement, which is the second one. -/
def State.atFirst? (es : List (State × Party)) (s : State) : Option Run :=
  match s.currentRun? with
  | some (0, run) =>
    match run.thread, run.rest with
    | [.thread 0 .checkLine], [stmt] =>
      if run.isLive && stmt.line == 2 && es.any (findsEntry 0) then some run else none
    | _, _ => none
  | _ => none

theorem State.of_atFirst? {es : List (State × Party)} {s : State} {run : Run}
    (h : s.atFirst? es = some run) : s.currentRun? = some (0, run) ∧ run.isLive = true ∧
      (∃ e ∈ es, findsEntry 0 e = true) ∧ run.thread = [.thread 0 .checkLine] ∧
      ∃ stmt, run.rest = [stmt] ∧ stmt.line = 2 := by
  unfold atFirst? at h
  split at h
  next run' hr =>
    split at h
    next stmt hthread hrest =>
      split at h <;> cases h
      next hfacts =>
        simp only [Bool.and_eq_true, beq_iff_eq, List.any_eq_true] at hfacts
        obtain ⟨⟨hlive, hline⟩, hfinds⟩ := hfacts
        exact ⟨hr, hlive, hfinds, hthread, stmt, hrest, hline⟩
    · cases h
  · cases h

/-- A backend with one script, whose key has a resource type after that of a source. -/
def functionBackend : Backend where
  library := .table [("function/a", ⟨"return 1", "function/a", {}⟩)]
  crashText := ""

open State (asked taken) in
/-- A script is launched, and a breakpoint is requested that the handler is about to put in the
registry. -/
def launchThenSet (script path : String) : List State.Turn :=
  asked "launch" (.object [("path", .string script)]) :: taken 6 .handler ++ setLine path 1

open State (taken) in
/-- The starter finds breakpoints, and the thread comes to the first statement. -/
def toFirst : List State.Turn :=
  taken 8 (.starter 0) ++ taken 5 (.thread 0)

/-- Whether the handler, if it is to replace breakpoints now, passes their lines on rightly. -/
def State.isRight (s : State) : Bool :=
  match s.handler, s.currentRun? with
  | .session (.replaceBreakpoints _ args) :: _, some (_, run) =>
    decide (s.registry.judgesLines args.source args.requested run.key)
  | _, _ => true

theorem State.judgesRightly_of_isRight {s : State} (h : s.isRight = true) : s.JudgesRightly := by
  intro request args ds r run hs hr _
  simpa [isRight, hs, hr] using h

open State (taken) in
/-- A breakpoint that is requested under the key of a launched run is there when its thread comes to
the first statement, which it does not go on to execute. -/
theorem boundary_lines_exact_same_key : ∃ es s t run run',
    State.Path nestedBackend {} es s ∧ s.advance? nestedBackend (.thread 0) = some t ∧
      s.currentRun? = some (0, run) ∧ (∃ e ∈ es, findsEntry 0 e = true) ∧
      run.context.lines = [2] ∧ s.registry.lines run.key = [2] ∧ t.runs[0]? = some run' ∧
      .thread 0 .perform ∉ run'.thread := by
  have hwalk : (({} : State).walk? nestedBackend
      (launchThenSet "api/a" "api/a.ms" ++ taken 3 .handler ++ toFirst)).any (fun w =>
        w.1.all (fun e => e.1.isRight) && (w.2.advance? nestedBackend (.thread 0)).isSome &&
          (w.2.atFirst? w.1).any fun run => !w.2.isPassing 0 run && run.context.lines == [2]) =
      true := by
    decide +kernel
  obtain ⟨⟨es, s⟩, hw, hfacts⟩ := (Option.any_eq_true ..).1 hwalk
  simp only [Bool.and_eq_true, List.all_eq_true] at hfacts
  obtain ⟨⟨hright, hstep⟩, hfirst⟩ := hfacts
  obtain ⟨t, ht⟩ := Option.isSome_iff_exists.1 hstep
  obtain ⟨run, hfirst, hfacts⟩ := (Option.any_eq_true ..).1 hfirst
  simp only [Bool.and_eq_true, Bool.not_eq_true', beq_iff_eq] at hfacts
  obtain ⟨hpassing, hinstalled⟩ := hfacts
  obtain ⟨hr, hlive, hfinds, hthread, stmt, hrest, hline⟩ := State.of_atFirst? hfirst
  have hpath : State.Path nestedBackend {} es s := State.Path.refl.walk hw
  obtain ⟨hlines, hperforms⟩ := (boundary_lines_exact nestedBackend).1 hpath
    (fun e he _ => State.judgesRightly_of_isRight (hright e he)) hr hlive hpassing
  have hregistry : s.registry.lines run.key = [2] := hlines.symm.trans hinstalled
  obtain ⟨run', hr', hiff⟩ := hperforms hthread hrest ht
  refine ⟨es, s, t, run, run', hpath, ht, hr, hfinds, hinstalled, hregistry, hr', ?_⟩
  rw [hiff, hregistry, hline]
  simp

open State (taken) in
/-- A run is started for breakpoints that are not its lines at its first statement : because their
key has another resource type in front and the handler does not take them for the run's, or because
the handler has yet to pass them on. -/
theorem boundary_lines_apart :
    (∃ es s run, State.Path functionBackend {} es s ∧ s.handler = [] ∧
      s.currentRun? = some (0, run) ∧ run.isLive = true ∧ (∃ e ∈ es, findsEntry 0 e = true) ∧
      run.thread = [.thread 0 .checkLine] ∧ (∃ stmt, run.rest = [stmt] ∧ stmt.line = 2) ∧
      run.context.lines = [] ∧ s.registry.lines run.key = [2]) ∧
    ∃ es s run, State.Path nestedBackend {} es s ∧ s.isPassing 0 run = true ∧
      s.currentRun? = some (0, run) ∧ run.isLive = true ∧ (∃ e ∈ es, findsEntry 0 e = true) ∧
      run.thread = [.thread 0 .checkLine] ∧ (∃ stmt, run.rest = [stmt] ∧ stmt.line = 2) ∧
      run.context.lines = [] ∧ s.registry.lines run.key = [2] := by
  constructor
  · have hwalk : (({} : State).walk? functionBackend
        (launchThenSet "function/a" "api/function/a.ms" ++ taken 3 .handler ++ toFirst)).any
          (fun w => w.2.handler.isEmpty && (w.2.atFirst? w.1).any fun run =>
            run.context.lines == [] && w.2.registry.lines run.key == [2]) = true := by
      decide +kernel
    obtain ⟨⟨es, s⟩, hw, hfacts⟩ := (Option.any_eq_true ..).1 hwalk
    simp only [Bool.and_eq_true, List.isEmpty_iff] at hfacts
    obtain ⟨run, hfirst, hlines⟩ := (Option.any_eq_true ..).1 hfacts.2
    simp only [Bool.and_eq_true, beq_iff_eq] at hlines
    obtain ⟨hr, hlive, hfinds, hthread, hstmt⟩ := State.of_atFirst? hfirst
    exact ⟨es, s, run, State.Path.refl.walk hw, hfacts.1, hr, hlive, hfinds, hthread, hstmt,
      hlines.1, hlines.2⟩
  · have hwalk : (({} : State).walk? nestedBackend
        (launchThenSet "api/a" "api/a.ms" ++ taken 1 .handler ++ toFirst)).any
          (fun w => (w.2.atFirst? w.1).any fun run => w.2.isPassing 0 run &&
            run.context.lines == [] && w.2.registry.lines run.key == [2]) = true := by
      decide +kernel
    obtain ⟨⟨es, s⟩, hw, hfacts⟩ := (Option.any_eq_true ..).1 hwalk
    obtain ⟨run, hfirst, hlines⟩ := (Option.any_eq_true ..).1 hfacts
    simp only [Bool.and_eq_true, beq_iff_eq] at hlines
    obtain ⟨hr, hlive, hfinds, hthread, hstmt⟩ := State.of_atFirst? hfirst
    exact ⟨es, s, run, State.Path.refl.walk hw, hlines.1.1, hr, hlive, hfinds, hthread, hstmt,
      hlines.1.2, hlines.2⟩

end DebugAdapter.Session
