import DebugAdapter.Proofs.Session.Reference
import DebugAdapter.Proofs.Session.Signals
/-!
# What a thread shows

The thread of a run that nobody disturbs (`Run.Undisturbed`) shows what the reference debugger does.
What it has still to show, when the client goes on to give these commands, can be read off its
agenda (`Run.ahead`), and a step of the thread only moves notices from there to what it is about to
send (`ThreadDuty.tells`).
-/

namespace DebugAdapter.Session

open Protocol (Event Resumption)

/-! ## Agendas -/

/-- The events that an agenda holds already. -/
def eventsOf : List Duty → List Event
  | [] => []
  | .run _ (.emit e) :: ds => e :: eventsOf ds
  | .run _ .claimTerminated :: ds => terminated :: eventsOf ds
  | _ :: ds => eventsOf ds

/-- The last of a thread's own duties on an agenda. -/
def lastOwn? : List Duty → Option ThreadDuty
  | [] => none
  | .thread _ d :: ds => some ((lastOwn? ds).getD d)
  | _ :: ds => lastOwn? ds

@[simp] theorem eventsOf_emits (r : RunId) (es : List Event) (ds : List Duty) :
    eventsOf (es.map (fun e => .run r (.emit e)) ++ ds) = es ++ eventsOf ds := by
  induction es with
  | nil => rfl
  | cons e es ih => exact congrArg (e :: ·) ih

@[simp] theorem eventsOf_thread (r : RunId) (d : ThreadDuty) (ds : List Duty) :
    eventsOf (.thread r d :: ds) = eventsOf ds := rfl

@[simp] theorem lastOwn?_thread (r : RunId) (d : ThreadDuty) (ds : List Duty) :
    lastOwn? (.thread r d :: ds) = some ((lastOwn? ds).getD d) := rfl

@[simp] theorem lastOwn?_run (r : RunId) (d : RunDuty) (ds : List Duty) :
    lastOwn? (.run r d :: ds) = lastOwn? ds := by
  cases d <;> rfl

@[simp] theorem lastOwn?_emits (r : RunId) (es : List Event) (ds : List Duty) :
    lastOwn? (es.map (fun e => .run r (.emit e)) ++ ds) = lastOwn? ds := by
  induction es with
  | nil => rfl
  | cons e es ih => exact ih

/-! ## What is ahead -/

/-- What a thread shows from a duty on, when these commands are given. -/
def ThreadDuty.ahead (marks : UInt32 → Option Mark) (run : Run) (cs : List Resumption) :
    ThreadDuty → List Notice
  | park =>
    match run.rest, cs with
    | stmt :: rest, c :: cs => performed (debug marks rest c.steps cs) stmt run.vars
    | _, _ => []
  | takeOverrides | perform =>
    match run.rest with
    | stmt :: rest => performed (debug marks rest run.context.stepMode cs) stmt run.vars
    | [] => []
  | conclude (.outcome o) => [.over o]
  | conclude (.crash _) => []
  | _ => debug marks run.rest run.context.stepMode cs run.vars

/-- What the thread of a run shows from now on, when these commands are given. -/
def Run.ahead (marks : UInt32 → Option Mark) (run : Run) (cs : List Resumption) : List Notice :=
  ((lastOwn? run.thread).map (ThreadDuty.ahead marks run cs)).getD []

/-- Whether a duty of the thread is one that a run may have when nobody disturbs it. -/
def ThreadDuty.Fits (run : Run) : ThreadDuty → Prop
  | stall _ => False
  | checkLine => run.context.stepMode = false
  | readStep pending => pending = false
  | readLine pending stepping => pending = false ∧ stepping = run.context.stepMode
  | readTemplate => run.context.stepMode = false ∧
    ∀ stmt ∈ run.rest.head?, run.context.hasBreakpoint stmt.line = true
  | conclude ending => ∃ o, ending = .outcome o
  | _ => True

/-- Whether nobody disturbs a run whose lines carry these marks : it is neither given up nor asked
to pause, its variables are its own and its lines are those of the registry. -/
structure Run.Undisturbed (marks : UInt32 → Option Mark) (registry : Registry) (run : Run) :
    Prop where
  live : run.isLive = true
  opened : run.context.isClosed = false
  pausePending : run.pausePending = false
  overrides : run.snapshot.overrides = []
  lines : run.context.lines = registry.lines run.key
  marks (line : UInt32) : (registry.get? run.key line).map LineBreakpoint.logMessage = marks line

/-- Whether a run that stopped shows where. -/
def Run.ShowsStop (r : RunId) (run : Run) (ns : List Notice) : Prop :=
  ∃ reason stmt rest, run.rest = stmt :: rest ∧ ns.getLast? = some (.stop reason stmt run.vars) ∧
    (.thread r .capture ∉ run.thread → run.snapshot.frames = [frameAt run.clientPath stmt.span])

/-- Whether the thread that did `d` is about to send `new` and then shows what else was ahead. -/
structure Run.Tells (marks : UInt32 → Option Mark) (r : RunId) (run : Run) (d : ThreadDuty)
    (new : List Notice) (run' : Run) : Prop where
  events : eventsOf run'.thread = transcript run.clientPath run.held new
  ahead (cs : List Resumption) : d.ahead marks run cs = new ++ run'.ahead marks cs
  held : lastOwn? run'.thread ≠ none → run'.held = holdsAfter run.held new
  fits {d : ThreadDuty} : .thread r d ∈ run'.thread → d.Fits run'
  stop : .thread r .park ∈ run'.thread → run'.ShowsStop r new

variable {b : Backend} {s : State} {r : RunId} {run run' : Run} {d d' : ThreadDuty}
  {marks : UInt32 → Option Mark} {registry : Registry} {stmt : Script.Statement}
  {rest : Script.Program} {done : Done} {new : List Notice}

namespace Run.Undisturbed

theorem hasBreakpoint (h : run.Undisturbed marks registry) (line : UInt32) :
    run.context.hasBreakpoint line = (marks line).isSome := by
  rw [Context.hasBreakpoint, h.lines, ← h.marks, Option.isSome_map, Bool.eq_iff_iff,
    List.contains_iff_mem]
  unfold Registry.lines Registry.get?
  cases registry.lookup run.key with
  | none => simp
  | some m => exact m.mem_lines line

theorem template (h : run.Undisturbed marks registry) (line : UInt32) :
    (registry.get? run.key line).bind LineBreakpoint.logMessage = (marks line).join := by
  rw [← h.marks]
  cases registry.get? run.key line <;> rfl

end Run.Undisturbed

/-! ## Steps of the thread -/

namespace Run.Tells

/-- A thread goes on to another of its duties after it told what is new. -/
theorem of_next (before : List RunDuty) (d' : ThreadDuty)
    (hthread : run'.thread = before.map (.run r) ++ [.thread r d'])
    (hevents : eventsOf (before.map (.run r)) = transcript run.clientPath run.held new)
    (hahead : ∀ cs, d.ahead marks run cs = new ++ d'.ahead marks run' cs)
    (hheld : run'.held = holdsAfter run.held new) (hfits : d'.Fits run') (hpark : d' ≠ .park) :
    run.Tells marks r d new run' := by
  have hpre : eventsOf run'.thread = eventsOf (before.map (.run r)) ∧
      lastOwn? run'.thread = some d' := by
    rw [hthread]
    clear hthread hevents
    induction before with
    | nil => exact ⟨rfl, rfl⟩
    | cons e before ih =>
      refine ⟨?_, by simpa using ih.2⟩
      cases e <;> simp [eventsOf, ih.1]
  refine ⟨hpre.1.trans hevents, fun cs => ?_, fun _ => hheld, fun hmem => ?_, fun hmem => ?_⟩
  · rw [hahead, Run.ahead, hpre.2]
    rfl
  · obtain rfl : _ = d' := by simpa [hthread] using hmem
    exact hfits
  · simp [hthread, Ne.symm hpark] at hmem

/-- A thread goes on to another of its duties. -/
theorem silent (hthread : run'.thread = [.thread r d'])
    (hahead : ∀ cs, d.ahead marks run cs = d'.ahead marks run' cs)
    (hheld : run'.held = run.held) (hfits : d'.Fits run') (hpark : d' ≠ .park) :
    run.Tells marks r d [] run' :=
  .of_next [] d' hthread rfl hahead hheld hfits hpark

/-- A thread stops. -/
theorem of_stop {reason : StopReason} (hrest : run.rest = stmt :: rest)
    (hahead : ∀ cs, d.ahead marks run cs = .stop reason stmt run.vars ::
      ThreadDuty.park.ahead marks run cs) :
    run.Tells marks r d [.stop reason stmt run.vars]
      { run with thread := stopDuties r run stmt.span reason } where
  events := rfl
  ahead cs := hahead cs
  held _ := rfl
  fits hmem := by
    simp only [stopDuties, List.mem_cons, Duty.thread.injEq, true_and] at hmem
    rcases hmem with rfl | rfl | hmem | hmem | hmem | rfl | hmem <;> trivial
  stop _ := ⟨reason, stmt, rest, hrest, rfl, by simp [stopDuties]⟩

end Run.Tells

/-! ## What is decided before a statement -/

theorem boundary_stepping (mark : Option Mark) (vars : Json.Fields) :
    boundary mark true vars = .stop (if mark.isSome then .breakpoint else .step) := by
  cases mark <;> rfl

theorem debug_of_stop {reason : StopReason} (hrest : run.rest = stmt :: rest)
    (hstop : boundary (marks stmt.line) run.context.stepMode run.vars = .stop reason)
    (cs : List Resumption) : debug marks run.rest run.context.stepMode cs run.vars =
      .stop reason stmt run.vars :: ThreadDuty.park.ahead marks run cs := by
  simp only [hrest, debug, hstop, ThreadDuty.ahead]
  cases cs <;> rfl

theorem debug_of_log {text : String} (hrest : run.rest = stmt :: rest)
    (hlog : boundary (marks stmt.line) run.context.stepMode run.vars = .log text)
    (cs : List Resumption) : debug marks run.rest run.context.stepMode cs run.vars =
      .log text :: ThreadDuty.perform.ahead marks run cs := by
  simp only [hrest, debug, hlog, ThreadDuty.ahead]

theorem debug_of_pass (hrest : run.rest = stmt :: rest)
    (hpass : boundary (marks stmt.line) run.context.stepMode run.vars = .pass)
    (cs : List Resumption) : debug marks run.rest run.context.stepMode cs run.vars =
      ThreadDuty.perform.ahead marks run cs := by
  simp only [hrest, debug, hpass, ThreadDuty.ahead]

/-- The checks before a suspension lead to it or to the next check. -/
theorem afterCheck_eq (hengine : b.engine = {}) (line : UInt32) (suspends : Bool) :
    afterCheck b s r line suspends d = [.thread r (if suspends then .suspend else d)] := by
  unfold afterCheck stallThen
  rw [hengine]
  cases suspends <;> rfl

namespace ThreadDuty

theorem tells_checkLine (hrun : run.Undisturbed marks registry) (hstep : checkLine.Fits run)
    (hrest : run.rest = stmt :: rest) (hengine : b.engine = {}) :
    run.Tells marks r .checkLine [] { run with
      thread := afterCheck b s r stmt.line (run.context.hasBreakpoint stmt.line) .perform } := by
  have hstep : run.context.stepMode = false := hstep
  rw [afterCheck_eq hengine, hrun.hasBreakpoint]
  cases hmark : marks stmt.line with
  | some mark => exact .silent rfl (fun _ => rfl) rfl trivial nofun
  | none => exact .silent rfl (debug_of_pass hrest (by rw [hmark, hstep]; rfl)) rfl trivial nofun

theorem tells_readLine (hrun : run.Undisturbed marks s.registry) {pending stepping : Bool}
    (hfits : (readLine pending stepping).Fits run) (hrest : run.rest = stmt :: rest)
    (hd : (readLine pending stepping).performAt? b s r run stmt = some done) :
    ∃ new, run.Tells marks r (.readLine pending stepping) new
      { done.run with thread := done.next } := by
  obtain ⟨rfl, rfl⟩ := hfits
  obtain rfl := Option.some.inj hd
  simp only [hrun.hasBreakpoint, Bool.false_or, Bool.false_eq_true, if_false]
  cases hstep : run.context.stepMode with
  | true =>
    have hstop : boundary (marks stmt.line) run.context.stepMode run.vars =
        .stop (if (marks stmt.line).isSome then .breakpoint else .step) := by
      rw [hstep]
      exact boundary_stepping (marks stmt.line) run.vars
    exact ⟨_, .of_stop hrest (debug_of_stop hrest hstop)⟩
  | false =>
    cases hmark : marks stmt.line with
    | some mark =>
      refine ⟨[], .silent rfl (fun _ => rfl) rfl ⟨hstep, fun stmt' h => ?_⟩ nofun⟩
      obtain rfl : stmt = stmt' := by simpa [hrest] using h
      rw [hrun.hasBreakpoint, hmark]
      rfl
    | none =>
      have hpass : boundary (marks stmt.line) run.context.stepMode run.vars = .pass := by
        rw [hmark, hstep]
        rfl
      exact ⟨[], .of_next [.unlock] _ rfl rfl (debug_of_pass hrest hpass) rfl trivial nofun⟩

theorem tells_readTemplate (hrun : run.Undisturbed marks s.registry)
    (hfits : readTemplate.Fits run) (hrest : run.rest = stmt :: rest)
    (hd : readTemplate.performAt? b s r run stmt = some done) :
    ∃ new, run.Tells marks r .readTemplate new { done.run with thread := done.next } := by
  obtain ⟨hstep, hmark⟩ := hfits
  have hmark := hmark stmt (by simp [hrest])
  rw [hrun.hasBreakpoint, Option.isSome_iff_exists] at hmark
  obtain ⟨mark, hmark⟩ := hmark
  obtain rfl := Option.some.inj hd
  simp only [hrun.template, hmark, Option.join_some]
  cases mark with
  | none =>
    have hstop : boundary (marks stmt.line) run.context.stepMode run.vars = .stop .breakpoint := by
      rw [hmark, hstep]
      rfl
    exact ⟨_, .of_stop hrest (debug_of_stop hrest hstop)⟩
  | some template =>
    have hlog : boundary (marks stmt.line) run.context.stepMode run.vars =
        .log (Template.interpolate template (lookupPath run.vars)) := by
      rw [hmark, hstep]
      rfl
    exact ⟨[.log _], .of_next [.unlock, .emit _] _ rfl rfl (debug_of_log hrest hlog) rfl
      trivial nofun⟩

/-! ## What a statement and the end of a script show -/

theorem tells_perform (hrest : run.rest = stmt :: rest)
    (hd : perform.performAt? b s r run stmt = some done) :
    ∃ new, run.Tells marks r .perform new { done.run with thread := done.next } := by
  simp only [performAt?, hrest, List.tail_cons] at hd
  have hahead (cs : List Resumption) : perform.ahead marks run cs =
      performed (debug marks rest run.context.stepMode cs) stmt run.vars := by
    rw [ahead, hrest]
  split at hd <;> obtain rfl := Option.some.inj hd
  next vars heffect =>
    refine ⟨[], .silent rfl (fun cs => ?_) rfl trivial (by simp)⟩
    rw [hahead, performed, heffect]
    rfl
  next channel text heffect =>
    have hevents := eventsOf_emits r ((LineBuffer.write (run.held channel)
      (Utf8.ofString text)).1.map (written channel)) []
    rw [List.append_nil, List.map_map] at hevents
    refine ⟨[.write channel text], .of_next
      ((LineBuffer.write (run.held channel) (Utf8.ofString text)).1.map fun l =>
        .emit (written channel l)) .reach ?_ ?_ (fun cs => ?_) rfl trivial (by simp)⟩
    · rw [List.map_map]
      rfl
    · rw [List.map_map]
      exact hevents
    · rw [hahead, performed, heffect]
      rfl
  next o heffect =>
    refine ⟨[], .silent rfl (fun cs => ?_) rfl ⟨o, rfl⟩ (by simp)⟩
    rw [hahead, performed, heffect]
    rfl

theorem tells_conclude (o : Script.Outcome) : run.Tells marks r (.conclude (.outcome o))
    [.over o] { run with held := fun _ => [], thread := endDuties r run (.outcome o) } where
  events := by
    rw [endDuties, eventsOf_emits]
    simp [eventsOf, transcript, Notice.events, heldNotes, drained]
  ahead cs := by
    rw [Run.ahead, endDuties, lastOwn?_emits]
    rfl
  held hne := by
    rw [endDuties, lastOwn?_emits] at hne
    exact absurd rfl hne
  fits hmem := absurd hmem (not_thread_mem_endDuties r run _ _)
  stop hmem := absurd hmem (not_thread_mem_endDuties r run _ _)

/-- The last duty of a thread, but for a park, shows what was ahead. -/
theorem tells (hengine : b.engine = {}) (hrun : run.Undisturbed marks s.registry)
    (hfits : d.Fits run) (hlast : d.isLast = true) (hpark : d ≠ .park)
    (hend : run.rest = [] → d.mayEnd = true) (hd : d.perform? b s r run = some done) :
    ∃ new, run.Tells marks r d new { done.run with thread := done.next } := by
  unfold perform? at hd
  split at hd
  next hrest =>
    cases d <;> try cases hend hrest
    · obtain rfl := Option.some.inj hd
      refine ⟨[], .silent rfl (fun cs => ?_) rfl ⟨_, rfl⟩ (by simp)⟩
      simp only [ahead, hrest]
      rfl
    · obtain ⟨o, rfl⟩ := hfits
      obtain rfl := Option.some.inj hd
      exact ⟨_, tells_conclude o⟩
  next stmt rest hrest =>
    cases d with
    | stall | capture | markPaused => cases hlast
    | park => exact absurd rfl hpark
    | checkLine =>
      obtain rfl := Option.some.inj hd
      exact ⟨[], tells_checkLine hrun hfits hrest hengine⟩
    | readLine => exact tells_readLine hrun hfits hrest hd
    | readTemplate => exact tells_readTemplate hrun hfits hrest hd
    | perform => exact tells_perform hrest hd
    | conclude =>
      obtain ⟨o, rfl⟩ := hfits
      obtain rfl := Option.some.inj hd
      exact ⟨_, tells_conclude o⟩
    | reach | enter =>
      obtain rfl := Option.some.inj hd
      simp only [stallThen, hengine]
      exact ⟨[], .silent rfl (fun _ => rfl) rfl trivial (by simp)⟩
    | checkClosed =>
      obtain rfl := Option.some.inj hd
      rw [afterCheck_eq hengine, hrun.opened]
      exact ⟨[], .silent rfl (fun _ => rfl) rfl trivial (by simp)⟩
    | checkStep =>
      obtain rfl := Option.some.inj hd
      rw [afterCheck_eq hengine]
      cases hstep : run.context.stepMode with
      | true => exact ⟨[], .silent rfl (fun _ => rfl) rfl trivial (by simp)⟩
      | false => exact ⟨[], .silent rfl (fun _ => rfl) rfl hstep (by simp)⟩
    | lock =>
      simp only [performAt?, performIdle?] at hd
      split at hd <;> cases hd
      exact ⟨[], .silent rfl (fun _ => rfl) rfl trivial (by simp)⟩
    | takeOverrides =>
      obtain rfl := Option.some.inj hd
      simp only [hrun.overrides]
      exact ⟨[], .silent rfl (fun _ => rfl) rfl trivial (by simp)⟩
    | suspend =>
      obtain rfl := Option.some.inj hd
      rw [hrun.opened]
      exact ⟨[], .silent rfl (fun _ => rfl) rfl trivial (by simp)⟩
    | checkLive =>
      obtain rfl := Option.some.inj hd
      rw [hrun.live]
      exact ⟨[], .silent rfl (fun _ => rfl) rfl trivial (by simp)⟩
    | takePending =>
      obtain rfl := Option.some.inj hd
      exact ⟨[], .silent rfl (fun _ => rfl) rfl hrun.pausePending (by simp)⟩
    | readStep pending =>
      obtain rfl := Option.some.inj hd
      exact ⟨[], .silent rfl (fun _ => rfl) rfl ⟨hfits, rfl⟩ (by simp)⟩

end ThreadDuty

/-! ## What a thread told -/

/-- Whether the thread of run `r`, which sent some events already, told `ns` of what the script is
to show, and is to tell the rest. The events of `ns` that it did not send are on its agenda. -/
structure Run.Told (marks : UInt32 → Option Mark) (r : RunId)
    (script : List Resumption → List Notice) (sent : List Event) (ns : List Notice) (run : Run) :
    Prop where
  events : sent ++ eventsOf run.thread =
    startNote run.clientPath run.key :: transcript run.clientPath (fun _ => []) ns
  script (cs : List Resumption) : script cs = ns ++ run.ahead marks cs
  held : lastOwn? run.thread ≠ none → run.held = holdsAfter (fun _ => []) ns
  fits {d : ThreadDuty} : .thread r d ∈ run.thread → d.Fits run
  stop : .thread r .park ∈ run.thread → run.ShowsStop r ns
  ended : run.terminated = true → ∀ d ∈ run.thread, ∃ e, d = .run r (.emit e)

theorem ThreadDuty.ahead_congr (hrest : run'.rest = run.rest) (hvars : run'.vars = run.vars)
    (hstep : d = .park ∨ run'.context.stepMode = run.context.stepMode) (cs : List Resumption) :
    d.ahead marks run' cs = d.ahead marks run cs := by
  rcases hstep with rfl | hstep
  · simp only [ahead, hrest, hvars]
  · cases d with
    | conclude ending => cases ending <;> rfl
    | _ => simp only [ahead, hrest, hvars, hstep]

theorem ThreadDuty.Fits.congr (h : d.Fits run) (hrest : run'.rest = run.rest)
    (hlines : run'.context.lines = run.context.lines)
    (hstep : d = .park ∨ run'.context.stepMode = run.context.stepMode) : d.Fits run' := by
  rcases hstep with rfl | hstep
  · trivial
  · have hbreakpoint (line : UInt32) :
        run'.context.hasBreakpoint line = run.context.hasBreakpoint line := by
      rw [Context.hasBreakpoint, hlines]
      rfl
    cases d with
    | checkLine | readLine => simpa only [Fits, hstep] using h
    | readTemplate => simpa only [Fits, hstep, hrest, hbreakpoint] using h
    | _ => exact h

theorem Run.ShowsStop.of_run {ns : List Notice} (h : run.ShowsStop r ns)
    (hrest : run'.rest = run.rest) (hvars : run'.vars = run.vars)
    (hpath : run'.clientPath = run.clientPath)
    (hframes : run'.snapshot.frames = run.snapshot.frames)
    (hcapture : .thread r .capture ∈ run.thread → .thread r .capture ∈ run'.thread) :
    run'.ShowsStop r ns := by
  obtain ⟨reason, stmt, rest, hstmt, hlast, hstop⟩ := h
  refine ⟨reason, stmt, rest, hrest.trans hstmt, by rw [hvars, hlast], fun hnot => ?_⟩
  rw [hframes, hpath]
  exact hstop fun hmem => hnot (hcapture hmem)

/-- A thread that stopped has nothing to do but to publish the stop and to park. -/
theorem ThreadPlan.of_atStop {holds : Bool} {ds : List Duty} (h : ThreadPlan r holds ds)
    (hpark : .thread r .park ∈ ds) (hmark : .thread r .markPaused ∉ ds) :
    lastOwn? ds = some .park ∧ ∀ d, .thread r d ∈ ds → d = .park := by
  induction h with
  | out | finish | claim => simp at hpark
  | emit _ _ ih | unlock _ ih => simpa using ih (by simpa using hpark) (by simpa using hmark)
  | stall _ hafter => rcases hafter with rfl | rfl <;> simp at hpark
  | capture | markPaused => simp at hmark
  | last =>
    obtain rfl : ThreadDuty.park = _ := by simpa using hpark
    exact ⟨rfl, by simp⟩

/-- What a thread sends is on its agenda before. -/
theorem ThreadDuty.sent_of_perform? (hd : d.perform? b s r run = some done) : done.sent = [] := by
  unfold perform? at hd
  split at hd
  · cases d <;> simp only [performIdle?] at hd <;> (repeat' split at hd) <;> cases hd <;> rfl
  · cases d <;> simp only [performAt?, performIdle?] at hd <;> (repeat' split at hd) <;>
      cases hd <;> rfl

namespace Run.Told

variable {script : List Resumption → List Notice} {sent sent' : List Event} {ns : List Notice}

/-- What a thread told stays told by what does not touch its script. -/
theorem of_run (h : run.Told marks r script sent ns)
    (hevents : sent' ++ eventsOf run'.thread = sent ++ eventsOf run.thread)
    (hlast : lastOwn? run'.thread = lastOwn? run.thread)
    (hmem : ∀ d, .thread r d ∈ run'.thread → .thread r d ∈ run.thread)
    (hkey : run'.key = run.key) (hpath : run'.clientPath = run.clientPath)
    (hrest : run'.rest = run.rest) (hvars : run'.vars = run.vars) (hheld : run'.held = run.held)
    (hlines : run'.context.lines = run.context.lines)
    (hstep : (lastOwn? run.thread = some .park ∧ ∀ d, .thread r d ∈ run.thread → d = .park) ∨
      run'.context.stepMode = run.context.stepMode)
    (hstop : run.ShowsStop r ns → run'.ShowsStop r ns)
    (hended : run'.terminated = true → ∀ d ∈ run'.thread, ∃ e, d = .run r (.emit e)) :
    run'.Told marks r script sent' ns where
  events := by
    rw [hevents, hkey, hpath]
    exact h.events
  script cs := by
    rw [h.script, Run.ahead, Run.ahead, hlast]
    cases hd : lastOwn? run.thread with
    | none => rfl
    | some d =>
      refine congrArg (ns ++ ·) (ThreadDuty.ahead_congr hrest hvars ?_ cs).symm
      exact hstep.imp_left fun hpark => Option.some.inj (hd.symm.trans hpark.1)
  held hne := by
    rw [hheld]
    exact h.held (hlast ▸ hne)
  fits hd := (h.fits (hmem _ hd)).congr hrest hlines (hstep.imp_left fun hpark =>
    hpark.2 _ (hmem _ hd))
  stop hpark := hstop (h.stop (hmem _ hpark))
  ended := hended

/-- The last duty of a thread, but for a park, adds to what was told. -/
theorem of_tells {new : List Notice} (h : run.Told marks r script sent ns)
    (hthread : run.thread = [.thread r d])
    (htells : Run.Tells marks r { run with thread := [] } d new run')
    (hkey : run'.key = run.key) (hpath : run'.clientPath = run.clientPath)
    (hended : run'.terminated = run.terminated) :
    run'.Told marks r script sent (ns ++ new) where
  events := by
    have hevents := h.events
    have hheld := h.held (by simp [hthread])
    rw [hthread, eventsOf_thread, eventsOf, List.append_nil] at hevents
    rw [htells.events, hevents, hkey, hpath, transcript_append, hheld]
    rfl
  script cs := by
    have hahead : d.ahead marks { run with thread := [] } cs = d.ahead marks run cs :=
      ThreadDuty.ahead_congr rfl rfl (.inr rfl) cs
    rw [h.script, Run.ahead, hthread, List.append_assoc, ← htells.ahead, hahead]
    rfl
  held hne := by
    rw [htells.held hne, h.held (by simp [hthread]), holdsAfter, holdsAfter, holdsAfter,
      List.foldl_append]
  fits := htells.fits
  stop hpark := by
    obtain ⟨reason, stmt, rest, hrest, hlast, hframes⟩ := htells.stop hpark
    refine ⟨reason, stmt, rest, hrest, ?_, hframes⟩
    rw [List.getLast?_append, hlast]
    rfl
  ended hterminated := by
    obtain ⟨e, he⟩ := h.ended (hended ▸ hterminated) (.thread r d) (by simp [hthread])
    cases he

/-- A step of the thread, but for one out of its park, goes on telling. -/
theorem of_thread {hs ds : List Duty} {e : Duty} (h : run.Told marks r script sent ns)
    (hengine : b.engine = {}) (hrun : run.Undisturbed marks s.registry)
    (horder : run.Orderly r hs) (hthread : run.thread = e :: ds) (hpark : e ≠ .thread r .park)
    (hd : e.stroke? b s r { run with thread := ds } = some done) :
    ∃ evs ns', done.sent = evs.map .event ∧
      Run.Told marks r script (sent ++ evs) ns'
        { done.run with thread := done.next ++ done.run.thread } := by
  have hplan := horder.thread
  rw [hthread] at hplan
  generalize decide (run.lock = some (.thread r)) = holds at hplan
  have hended (hterminated : run.terminated = true) : ∀ d ∈ ds, ∃ e, d = .run r (.emit e) :=
    fun d hmem => h.ended hterminated d (by simp [hthread, hmem])
  cases hplan with
  | emit e =>
    obtain rfl := Option.some.inj hd
    refine ⟨[e], ns, by simp [gated, hrun.live], ?_⟩
    refine h.of_run ?_ ?_ ?_ rfl rfl rfl rfl rfl rfl (.inr rfl)
      (fun hstop => hstop.of_run rfl rfl rfl rfl ?_) hended
    all_goals simp [hthread, eventsOf]
  | unlock =>
    obtain rfl := Option.some.inj hd
    refine ⟨[], ns, rfl, ?_⟩
    refine h.of_run ?_ ?_ ?_ rfl rfl rfl rfl rfl rfl (.inr rfl)
      (fun hstop => hstop.of_run rfl rfl rfl rfl ?_) hended
    all_goals simp [hthread, eventsOf]
  | finish =>
    simp only [Duty.stroke?, RunDuty.perform?] at hd
    split at hd <;> cases hd
    refine ⟨[], ns, rfl, ?_⟩
    refine h.of_run ?_ ?_ ?_ rfl rfl rfl rfl rfl rfl (.inr rfl)
      (fun hstop => hstop.of_run rfl rfl rfl rfl ?_) hended
    all_goals simp [hthread, eventsOf]
  | claim =>
    simp only [Duty.stroke?, RunDuty.perform?] at hd
    split at hd
    next hterminated =>
      obtain ⟨e, he⟩ := h.ended hterminated (.run r .claimTerminated) (by simp [hthread])
      cases he
    · cases hd
      refine ⟨[], ns, rfl, ?_⟩
      refine h.of_run ?_ ?_ ?_ rfl rfl rfl rfl rfl rfl (.inr rfl)
        (fun hstop => hstop.of_run rfl rfl rfl rfl ?_) (fun _ => by simp)
      all_goals simp [hthread, eventsOf]
  | stall since => exact (h.fits (d := .stall since) (by simp [hthread])).elim
  | capture e e' =>
    have hrest : run.rest ≠ [] := fun hnil => by
      cases horder.statement hnil .capture (by simp [hthread])
    obtain ⟨stmt, rest, hstmt, rfl⟩ := ThreadDuty.eq_of_capture hd hrest
    obtain ⟨reason, stmt', rest', hstmt', hlast, -⟩ :=
      h.stop (by simp [hthread, publication])
    obtain ⟨rfl, rfl⟩ := List.cons.inj (hstmt.symm.trans hstmt')
    refine ⟨[], ns, rfl, ?_⟩
    refine h.of_run ?_ ?_ ?_ rfl rfl rfl rfl rfl rfl (.inr rfl)
      (fun _ => ⟨reason, stmt, rest, hstmt, hlast, fun _ => rfl⟩) hended
    all_goals simp [hthread, eventsOf, publication]
  | markPaused e e' =>
    have hd : ThreadDuty.markPaused.perform? b s r _ = some done := hd
    rw [ThreadDuty.perform?_markPaused] at hd
    obtain rfl := Option.some.inj hd
    refine ⟨[], ns, rfl, ?_⟩
    refine h.of_run ?_ ?_ ?_ rfl rfl rfl rfl rfl rfl (.inr rfl)
      (fun hstop => hstop.of_run rfl rfl rfl rfl ?_) hended
    all_goals simp [hthread, eventsOf, publication]
  | @last _ d hlast =>
    have hd : d.perform? b s r { run with thread := [] } = some done := hd
    have hleaves := ThreadDuty.leaves_of_perform? hd
    obtain ⟨hkey, hpath, hterminated⟩ := hleaves.name
    have hrun' : Run.Undisturbed marks s.registry { run with thread := [] } :=
      ⟨hrun.live, hrun.opened, hrun.pausePending, hrun.overrides, hrun.lines, hrun.marks⟩
    have hfits : d.Fits { run with thread := [] } :=
      (h.fits (by simp [hthread])).congr rfl rfl (.inr rfl)
    obtain ⟨new, htells⟩ := ThreadDuty.tells hengine hrun' hfits hlast
      (fun heq => hpark (congrArg _ heq)) (fun hnil => horder.statement hnil d (by simp [hthread]))
      hd
    refine ⟨[], ns ++ new, ThreadDuty.sent_of_perform? hd, ?_⟩
    rw [List.append_nil, hleaves.kept.thread, List.append_nil]
    exact h.of_tells hthread htells hkey hpath hterminated

/-- A thread that is let go on after a stop does as it is told. -/
theorem of_park {rendezvous : Rendezvous} {c : Resumption} (h : run.Told marks r script sent ns)
    (hthread : run.thread = [.thread r .park]) (hc : c.steps = run.context.stepMode) :
    Run.Told marks r (fun cs => script (c :: cs)) sent ns { run with
      context := { run.context with rendezvous }
      thread := [.thread r .takeOverrides] } where
  events := by
    have hevents := h.events
    rw [hthread] at hevents
    exact hevents
  script cs := by
    obtain ⟨_, stmt, rest, hrest, -, -⟩ := h.stop (by simp [hthread])
    have hahead : run.ahead marks (c :: cs) = ThreadDuty.park.ahead marks run (c :: cs) := by
      rw [Run.ahead, hthread]
      rfl
    rw [h.script, hahead]
    simp only [ThreadDuty.ahead, hrest, hc]
    rfl
  held _ := h.held (by simp [hthread])
  fits hmem := by
    obtain rfl : _ = ThreadDuty.takeOverrides := by simpa using hmem
    trivial
  stop hmem := by simp at hmem
  ended hterminated := by
    obtain ⟨e, he⟩ := h.ended hterminated (.thread r .park) (by simp [hthread])
    cases he

end Run.Told

end DebugAdapter.Session
