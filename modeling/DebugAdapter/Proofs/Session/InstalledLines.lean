import DebugAdapter.Proofs.Breakpoints.Lookup
import DebugAdapter.Proofs.Session.Stable
/-!
# Installed lines

The lines with breakpoints are held twice : the registry has them under keys, and a run has those of
its script in its context since it was opened. The handler keeps the two together by passing new
lines on to the current run when `Replaced.matches` says that they are for it, so the two agree
between requests as long as `Replaced.matches` says so just when the script finds the new lines
(`State.JudgesRightly`). `installed_lines_exact` says that this is necessary too.

What the handler is about to pass on is on its agenda : `State.promised` are the lines of a run with
that counted in, and no step but one on the registry changes them.
-/

namespace DebugAdapter.Session

open Protocol (Request)
open SourceKey (normalize)

/-! ## Duties that concern lines -/

/-- Whether a duty passes lines on to a run. -/
def Duty.passes : Duty → Bool
  | session (.passOn _ _) | run _ (.setLines _) => true
  | _ => false

/-- Whether a duty neither passes lines on nor clears the registry. -/
def Duty.isCalm : Duty → Bool
  | session .clearRegistry => false
  | d => !d.passes

/-- Whether a duty replaces the breakpoints of a source. -/
def Duty.replaces : Duty → Bool
  | session (.replaceBreakpoints _ _) => true
  | _ => false

/-- Whether a duty changes the registry. -/
def Duty.rewrites : Duty → Bool
  | session .clearRegistry => true
  | d => d.replaces

/-- Whether run `r` is not live any more when an agenda clears the registry. -/
def Spares (r : RunId) : List Duty → Bool
  | [] => true
  | .session .clearRegistry :: _ => false
  | .run r' .closeGate :: ds => r' == r || Spares r ds
  | _ :: ds => Spares r ds

theorem Duty.passes_of_isCalm {d : Duty} (h : d.isCalm = true) : d.passes = false := by
  cases d with
  | session d => cases d <;> first | rfl | cases h
  | run r d => cases d <;> first | rfl | cases h
  | _ => rfl

theorem Duty.isCalm_of_isAside {d : Duty} (h : d.isAside = true) : d.isCalm = true := by
  unfold isAside at h
  split at h <;> first | rfl | cases h

theorem Duty.passes_of_isAside {d : Duty} (h : d.isAside = true) : d.passes = false :=
  passes_of_isCalm (isCalm_of_isAside h)

theorem spares_append {r : RunId} {next ds : List Duty} (h : ∀ d ∈ next, d.isCalm = true)
    (hds : Spares r ds = true) : Spares r (next ++ ds) = true := by
  induction next with
  | nil => exact hds
  | cons d next ih =>
    have ih := ih fun e he => h e (by simp [he])
    have hd := h d (by simp)
    simp only [List.cons_append]
    unfold Spares
    split
    · rfl
    next heq =>
      obtain ⟨rfl, -⟩ := List.cons.inj heq
      cases hd
    next heq =>
      obtain ⟨-, rfl⟩ := List.cons.inj heq
      simp [ih]
    next heq =>
      obtain ⟨-, rfl⟩ := List.cons.inj heq
      exact ih

theorem spares_tail {r : RunId} {d : Duty} {ds : List Duty} (h : Spares r (d :: ds) = true)
    (hd : d ≠ .run r .closeGate) : Spares r ds = true := by
  unfold Spares at h
  split at h
  next heq => cases heq
  · cases h
  next r' ds' heq =>
    obtain ⟨rfl, rfl⟩ := List.cons.inj heq
    have hne : r' ≠ r := fun heq => hd (by rw [heq])
    simpa [hne] using h
  next heq =>
    obtain ⟨-, rfl⟩ := List.cons.inj heq
    exact h

theorem passes_of_mem_abandonAny {r : Option RunId} : ∀ d ∈ abandonAny r, d.passes = false := by
  cases r <;> simp [abandonAny, abandon, Duty.passes]

theorem passes_of_mem_handle {s : State} {request : Request} {c : Protocol.Command} :
    ∀ d ∈ (s.handle request c).2, d.passes = false := by
  cases c <;>
    simp only [State.handle, State.relaunch, withArguments, State.forCurrent, refuse, answer,
      abandonAny, abandon, tearDown] <;>
    (repeat' split) <;> simp_all [Duty.passes]

/-- A request that clears the registry gives up the current run first. -/
theorem spares_handle {s : State} {request : Request} {c : Protocol.Command} {r : RunId}
    (hr : (s.handle request c).1.current = some r) : Spares r (s.handle request c).2 = true := by
  cases c <;> revert hr <;>
    simp only [State.handle, State.relaunch, withArguments, State.forCurrent, refuse, answer,
      abandonAny, abandon, tearDown] <;>
    (repeat' split) <;> simp_all [Spares]

theorem current_of_handle {s : State} {request : Request} {c : Protocol.Command} {r : RunId}
    (hr : (s.handle request c).1.current = some r) : s.current = some r := by
  cases c <;> revert hr <;> simp only [State.handle, State.relaunch] <;> (repeat' split) <;> simp

/-- What the handler has to do next for a run concerns no lines. -/
theorem isCalm_of_stroke {b : Backend} {s : State} {r : RunId} {run : Run} {d : Duty}
    {done : Done} (hown : d.BelongsTo .handler) (hd : d.stroke? b s r run = some done) :
    ∀ e ∈ done.next, e.isCalm = true := by
  cases d with
  | session d => cases hd
  | starter _ d | thread _ d => exact hown.elim
  | run r' d =>
    cases d <;> simp only [Duty.stroke?, RunDuty.perform?] at hd <;> (repeat' split at hd) <;>
      cases hd <;> simp [Duty.isCalm, Duty.passes]
  | request r' d =>
    cases RequestDuty.leads_of_perform? hd with
    | look _ hnext | assign _ _ hnext => exact fun e he => Duty.isCalm_of_isAside (hnext e he)
    | release _ how | skip _ how =>
      cases how <;> simp [Duty.isCalm, Duty.passes, answer, continuedDuties]
    | _ => simp [Duty.isCalm, Duty.passes, answer]

/-! ## What a run retains -/

/-- Whether a run still has the key and the lines that it had, and is not live if it was not. -/
structure Run.Retains (run run' : Run) : Prop where
  key : run'.key = run.key
  lines : run'.context.lines = run.context.lines
  live : run'.isLive = true → run.isLive = true

theorem Run.Retains.of_duty {r : RunId} {run run' : Run} {d : RunDuty} {done : Done}
    (h : run.Retains run') (hd : d.perform? r run' = some done)
    (hne : ∀ lines, d ≠ .setLines lines) : run.Retains done.run := by
  cases d <;> simp only [RunDuty.perform?] at hd <;> (repeat' split at hd) <;> cases hd
  case setLines lines => exact absurd rfl (hne lines)
  case closeGate => exact ⟨h.key, h.lines, (by simp)⟩
  all_goals exact ⟨h.key, h.lines, h.live⟩

theorem Run.Retains.of_leaves {r : RunId} {run run' run'' : Run} {d : ThreadDuty}
    (h : run.Retains run') (hd : d.Leaves r run' run'') : run.Retains run'' := by
  cases hd <;> exact ⟨h.key, h.lines, h.live⟩

theorem Run.Retains.of_givenUp {run run' run'' : Run} (h : run.Retains run')
    (hgive : run'.GivenUp run'') : run.Retains run'' := by
  cases hgive with
  | closeGate => exact ⟨h.key, h.lines, nofun⟩
  | _ => exact ⟨h.key, h.lines, h.live⟩

theorem Run.Retains.refl (run : Run) : run.Retains run :=
  ⟨rfl, rfl, id⟩

/-- A run retains its key and its lines, unless it is told other lines. -/
theorem Run.Retains.stable (b : Backend) (r : RunId) (run : Run) :
    Run.Stable b r (fun e => ∀ lines, (e.1.agenda e.2).head? ≠ some (.run r (.setLines lines)))
      run.Retains where
  starter ds h := ⟨h.key, h.lines, h.live⟩
  duty hA hhead _ hd h := h.of_duty hd fun lines heq => hA lines (by rw [hhead, heq])
  request hd h := by cases hd <;> exact ⟨h.key, h.lines, h.live⟩
  thread {s run' d ds done} hA hr horder hds hd h := by
    suffices hkept : run.Retains done.run from ⟨hkept.key, hkept.lines, hkept.live⟩
    have hds' : run.Retains { run' with thread := ds } := ⟨h.key, h.lines, h.live⟩
    obtain ⟨d, rfl⟩ | ⟨d, rfl⟩ := (hds ▸ horder.thread).head_cases
    · exact hds'.of_duty hd fun lines heq => hA lines (by simp [State.agenda, hr, hds, heq])
    · exact hds'.of_leaves (ThreadDuty.leaves_of_perform? hd)
  givenUp hgive h := h.of_givenUp hgive

/-! ## Promised lines -/

namespace State

/-- The lines that run `r` has once the handler did what it is about to. -/
def promised (s : State) (r : RunId) (run : Run) : List UInt32 :=
  match s.handler with
  | .session (.passOn replaced _) :: _ =>
    if replaced.matches run.key then replaced.lines else run.context.lines
  | .run r' (.setLines lines) :: _ => if r' = r then lines else run.context.lines
  | _ => run.context.lines

/-- Whether the handler only passes lines on right away, and gives up a run before it clears the
registry. -/
structure Tidy (s : State) : Prop where
  tail : ∀ d ∈ s.handler.tail, d.passes = false
  spares {r : RunId} {run : Run} : s.currentRun? = some (r, run) → run.isLive = true →
    Spares r s.handler = true

theorem promised_eq {s : State} (h : ∀ d ∈ s.handler.head?, d.passes = false) (r : RunId)
    (run : Run) : s.promised r run = run.context.lines := by
  unfold promised
  split
  next hs => cases h _ (by rw [hs]; rfl)
  next hs => cases h _ (by rw [hs]; rfl)
  · rfl

theorem promised_congr {s t : State} (h : t.handler = s.handler) (r : RunId) {run run' : Run}
    (hrun : run.Retains run') : t.promised r run' = s.promised r run := by
  simp only [promised, h, hrun.key, hrun.lines]

theorem currentRun?_eq_some {s : State} {r : RunId} {run : Run} :
    s.currentRun? = some (r, run) ↔ s.current = some r ∧ s.runs[r]? = some run := by
  unfold currentRun?
  cases s.current with
  | none => simp
  | some r' =>
    simp only [Option.bind_some, Option.map_eq_some_iff, Prod.mk.injEq, Option.some.injEq]
    constructor
    · rintro ⟨run', hrun, rfl, rfl⟩
      exact ⟨rfl, hrun⟩
    · rintro ⟨rfl, hrun⟩
      exact ⟨run, hrun, rfl, rfl⟩

/-- Only the handler tells a run of lines. -/
theorem Orderly.head_ne_setLines {s : State} (h : s.Orderly) {p : Party} (hp : p ≠ .handler)
    (r : RunId) (lines : List UInt32) : (s.agenda p).head? ≠ some (.run r (.setLines lines)) := by
  intro hhead
  obtain ⟨ds, hds⟩ := List.head?_eq_some_iff.1 hhead
  cases p with
  | handler => exact hp rfl
  | starter r' =>
    cases hr : s.runs[r']? with
    | none => simp [agenda, hr] at hds
    | some run =>
      have hplan := (h.runs hr).starter
      rw [show run.starter = _ by simpa [agenda, hr] using hds] at hplan
      cases hplan
  | thread r' =>
    cases hr : s.runs[r']? with
    | none => simp [agenda, hr] at hds
    | some run =>
      have hplan := (h.runs hr).thread
      rw [show run.thread = _ by simpa [agenda, hr] using hds] at hplan
      generalize decide (run.lock = some (.thread r')) = holds at hplan
      cases hplan

/-- Whether run `r`, as it is in `t`, was current and live in `s` and promised the same lines. -/
def Inherits (s t : State) (r : RunId) (run' : Run) : Prop :=
  ∃ run, s.currentRun? = some (r, run) ∧ run.isLive = true ∧ run'.key = run.key ∧
    t.promised r run' = s.promised r run

variable {b : Backend} {s t : State} {p : Party} {r : RunId} {run' : Run}

theorem Inherits.of_eq (hcurrent : s.current = some r) (hrun : s.runs[r]? = some run')
    (hlive : run'.isLive = true) (hlines : t.promised r run' = s.promised r run') :
    s.Inherits t r run' :=
  ⟨run', currentRun?_eq_some.2 ⟨hcurrent, hrun⟩, hlive, rfl, hlines⟩

theorem Inherits.comp {u : State} (h : t.Inherits u r run')
    (hs : ∀ {run : Run}, t.currentRun? = some (r, run) → run.isLive = true →
      t.registry = s.registry ∧ s.Inherits t r run) :
    t.registry = s.registry ∧ s.Inherits u r run' := by
  obtain ⟨run₁, hr₁, hlive₁, hkey₁, hlines₁⟩ := h
  obtain ⟨hregistry, run₂, hr₂, hlive₂, hkey₂, hlines₂⟩ := hs hr₁ hlive₁
  exact ⟨hregistry, run₂, hr₂, hlive₂, hkey₁.trans hkey₂, hlines₁.trans hlines₂⟩

theorem Inherits.of_retains {run : Run} (hcurrent : s.current = some r)
    (hrun : s.runs[r]? = some run) (hretains : run.Retains run') (hlive : run'.isLive = true)
    (hlines : t.promised r run' = s.promised r run) : s.Inherits t r run' :=
  ⟨run, currentRun?_eq_some.2 ⟨hcurrent, hrun⟩, hretains.live hlive, hretains.key, hlines⟩

theorem perform_replaceBreakpoints (b : Backend) (s : State) (request : Request)
    (args : Protocol.BreakpointArguments) :
    (SessionDuty.replaceBreakpoints request args).perform b s =
      ({ s with registry := (s.registry.replace args.source args.requested).2 },
        [.session (.passOn (s.registry.replace args.source args.requested).1
          (Protocol.Response.ok request (some (breakpointsBody
            (s.registry.replace args.source args.requested).1.breakpoints))))]) :=
  rfl

/-- A duty on the session, but for a change of breakpoints, leaves the promises or opens a run. -/
theorem inherits_of_session {d : SessionDuty} {ds next : List Duty} {u : State} (htidy : s.Tidy)
    (hplan : HandlerPlan (.session d :: ds)) (hs : s.handler = .session d :: ds)
    (hu : d.perform b { s with handler := ds } = (u, next))
    (hd : (Duty.session d).replaces = false)
    (hr : { u with handler := next ++ ds }.currentRun? = some (r, run'))
    (hlive : run'.isLive = true) : s.Inherits { u with handler := next ++ ds } r run' ∨
      s.runs[r]? = none ∧
        { u with handler := next ++ ds }.promised r run' = s.registry.lines run'.key := by
  obtain ⟨hcurrent, hrun⟩ := currentRun?_eq_some.1 hr
  have hsame (hcurrent : s.current = some r) (hrun : s.runs[r]? = some run')
      (hd : (Duty.session d).passes = false) (hnext : ∀ e ∈ next, e.passes = false) :
      s.Inherits { u with handler := next ++ ds } r run' := by
    refine .of_eq hcurrent hrun hlive ?_
    rw [promised_eq fun e he => ?_, promised_eq]
    · simpa [hs] using hd
    · rcases List.mem_append.1 (List.mem_of_mem_head? he) with he | he
      · exact hnext e he
      · exact htidy.tail e (by simpa [hs] using he)
  cases d with
  | handle request =>
    simp only [SessionDuty.perform] at hu
    split at hu
    next c hc =>
      obtain rfl : (handle { s with handler := ds } request c).1 = u := by rw [hu]
      obtain rfl : (handle { s with handler := ds } request c).2 = next := by rw [hu]
      have hbefore := current_of_handle
        (show (handle { s with handler := ds } request c).1.current = some r from hcurrent)
      rw [runs_handle] at hrun
      exact .inl (hsame hbefore hrun rfl passes_of_mem_handle)
    · cases hu
      exact .inl (hsame hcurrent hrun rfl fun e he =>
        Duty.passes_of_isAside (isAside_of_mem_refuse e he))
  | send m | clearRegistry =>
    cases hu
    exact .inl (hsame hcurrent hrun rfl (by simp))
  | reportTermination =>
    simp only [SessionDuty.perform] at hu
    split at hu <;> cases hu <;> exact .inl (hsame hcurrent hrun rfl (by simp))
  | openRun request args =>
    rcases prepare_cases b { s with handler := ds } request args with
      ⟨next, haside, heq⟩ | ⟨_, script, program, -, -, -, heq⟩
    · cases hu.symm.trans heq
      exact .inl (hsame hcurrent hrun rfl fun e he => Duty.passes_of_isAside (haside e he))
    · cases hu.symm.trans heq
      obtain rfl := Option.some.inj hcurrent
      obtain rfl : _ = run' := by simpa using hrun
      exact .inr ⟨by simp, rfl⟩
  | replaceBreakpoints request args => cases hd
  | passOn replaced m =>
    cases hu
    refine .inl (.of_eq hcurrent hrun hlive ?_)
    have hcurrentRun : currentRun? { s with handler := ds } = some (r, run') := hr
    simp only [promised, hs, passOn, hcurrentRun, hlive]
    cases replaced.matches run'.key <;> simp
  | shutdown =>
    cases hu
    cases hcurrent

/-- Only the handler has duties that are about no run. -/
theorem Orderly.subject_of_head (h : s.Orderly) (hp : p ≠ .handler) :
    ∀ d ∈ (s.agenda p).head?, d.subject? ≠ none := by
  intro d hd
  obtain ⟨ds, hds⟩ := List.head?_eq_some_iff.1 hd
  have hown := h.belongsTo hds
  cases d with
  | session d => cases p <;> first | exact absurd rfl hp | exact hown.elim
  | _ => simp [Duty.subject?]

theorem Stride.retains {run : Run} (hst : s.Stride b t p) (horder : s.Orderly)
    (hhead : ∀ lines, (s.agenda p).head? ≠ some (.run r (.setLines lines)))
    (hs : s.runs[r]? = some run) (ht : t.runs[r]? = some run') : run.Retains run' := by
  have hself : ∀ run₀, s.runs[r]? = some run₀ → run.Retains run₀ := fun run₀ h => by
    obtain rfl := Option.some.inj (hs.symm.trans h)
    exact .refl run
  rcases (Run.Retains.stable b r run).of_stride horder hst hhead hself ht with h | ⟨hnone, -⟩
  · exact h
  · cases hs.symm.trans hnone

/-- A step on a run leaves the promises. -/
theorem Stride.inherits (hst : s.Stride b t p) (horder : s.Orderly) (htidy : s.Tidy)
    (hp : ∀ d ∈ (s.agenda p).head?, d.subject? ≠ none)
    (hr : t.currentRun? = some (r, run')) (hlive : run'.isLive = true) :
    s.Inherits t r run' := by
  obtain ⟨hcurrent, hrun⟩ := currentRun?_eq_some.1 hr
  have hst' := hst
  cases hst' with
  | session hs => exact absurd rfl (hp _ (by simp [agenda, hs]; rfl))
  | @handler r₀ run₀ d ds done hs hsub hr₀ hd ht =>
    have hafter : t.promised r run' = run'.context.lines := by
      refine promised_eq (fun e he => ?_) r run'
      rw [ht] at he
      rcases List.mem_append.1 (List.mem_of_mem_head? he) with he | he
      · exact Duty.passes_of_isCalm (isCalm_of_stroke (horder.belongsTo hs) hd e he)
      · exact htidy.tail e (by simpa [hs] using he)
    have hcurrent' : s.current = some r := by
      rw [ht] at hcurrent
      exact hcurrent
    have hset : (s.setRun r₀ done.run).runs[r]? = some run' := by
      rw [ht] at hrun
      exact hrun
    cases hpasses : d.passes with
    | true =>
      obtain ⟨lines, rfl⟩ : ∃ lines, d = .run r₀ (.setLines lines) := by
        unfold Duty.passes at hpasses
        split at hpasses <;> simp_all [Duty.subject?]
      obtain rfl := Option.some.inj hd
      rcases getElem?_setRun hset with ⟨rfl, rfl⟩ | ⟨hne, hrun⟩
      · refine ⟨run₀, currentRun?_eq_some.2 ⟨hcurrent', hr₀⟩, hlive, rfl, ?_⟩
        exact hafter.trans (by simp [promised, hs])
      · refine .of_eq hcurrent' hrun hlive ?_
        exact hafter.trans (by simp [promised, hs, hne])
    | false =>
      obtain ⟨run, hr'⟩ := exists_of_setRun hset
      have hretains := hst.retains horder (fun lines hhead => ?_) hr' hrun
      · refine .of_retains hcurrent' hr' hretains hlive ?_
        rw [hafter, promised_eq, hretains.lines]
        simpa [hs] using hpasses
      · obtain rfl : d = .run r (.setLines lines) := by simpa [agenda, hs] using hhead
        cases hpasses
  | starter _ _ _ ht | thread _ _ _ ht =>
    subst ht
    obtain ⟨run, hr'⟩ := exists_of_setRun hrun
    have hretains := hst.retains horder (horder.head_ne_setLines (by simp) r) hr' hrun
    exact .of_retains hcurrent hr' hretains hlive (promised_congr rfl r hretains)

/-! ## The handler stays tidy -/

/-- The handler stays tidy by a duty on the session. -/
theorem Tidy.of_session {d : SessionDuty} {ds next : List Duty} {u : State} (h : s.Tidy)
    (hplan : HandlerPlan (.session d :: ds)) (hs : s.handler = .session d :: ds)
    (hu : d.perform b { s with handler := ds } = (u, next)) :
    State.Tidy { u with handler := next ++ ds } := by
  have hds : ∀ e ∈ ds, e.passes = false := by simpa [hs] using h.tail
  have hsame (hd : d ≠ .clearRegistry) (hcurrent : u.current = s.current) (hruns : u.runs = s.runs)
      (hnext : ∀ e ∈ next, e.isCalm = true) : State.Tidy { u with handler := next ++ ds } := by
    refine ⟨fun e he => ?_, fun {r run} hr hlive => ?_⟩
    · rcases List.mem_append.1 (List.mem_of_mem_tail he) with he | he
      · exact Duty.passes_of_isCalm (hnext e he)
      · exact hds e he
    · refine spares_append hnext ?_
      have hr' : s.currentRun? = some (r, run) := by simpa [currentRun?, hcurrent, hruns] using hr
      have hspares := h.spares hr' hlive
      rw [hs] at hspares
      exact spares_tail hspares (by simp)
  cases d with
  | handle request =>
    obtain rfl : ds = [] := hplan.1
    simp only [SessionDuty.perform] at hu
    split at hu
    next c hc =>
      obtain rfl : (handle { s with handler := [] } request c).1 = u := by rw [hu]
      obtain rfl : (handle { s with handler := [] } request c).2 = next := by rw [hu]
      simp only [List.append_nil]
      exact ⟨fun e he => passes_of_mem_handle e (List.mem_of_mem_tail he), fun hr _ =>
        spares_handle (currentRun?_eq_some.1 hr).1⟩
    · cases hu
      exact hsame (by simp) rfl rfl fun e he => Duty.isCalm_of_isAside (isAside_of_mem_refuse e he)
  | send m =>
    cases hu
    exact hsame (by simp) rfl rfl (by simp)
  | clearRegistry =>
    cases hu
    refine ⟨fun e he => hds e (List.mem_of_mem_tail he), fun {r run} hr hlive => ?_⟩
    have hspares := h.spares (r := r) (show s.currentRun? = some (r, run) from hr) hlive
    simp [hs, Spares] at hspares
  | reportTermination =>
    simp only [SessionDuty.perform] at hu
    split at hu <;> cases hu <;> exact hsame (by simp) rfl rfl (by simp)
  | openRun request args =>
    obtain rfl : ds = [] := hplan.1
    rcases prepare_cases b { s with handler := [] } request args with
      ⟨next, haside, heq⟩ | ⟨_, script, program, -, -, -, heq⟩
    · cases hu.symm.trans heq
      exact hsame (by simp) rfl rfl fun e he => Duty.isCalm_of_isAside (haside e he)
    · cases hu.symm.trans heq
      exact ⟨by simp [Duty.passes, answer], fun _ _ => by simp [Spares, answer]⟩
  | replaceBreakpoints request args =>
    obtain rfl : ds = [] := hplan.1
    rw [perform_replaceBreakpoints] at hu
    obtain ⟨rfl, rfl⟩ := Prod.mk.inj hu
    exact ⟨by simp, fun _ _ => by simp [Spares]⟩
  | passOn replaced m =>
    obtain rfl : ds = [] := hplan.1
    cases hu
    simp only [List.append_nil, passOn]
    repeat' split
    all_goals exact ⟨by simp [Duty.passes], fun _ _ => by simp [Spares]⟩
  | shutdown =>
    obtain rfl : ds = [] := hplan.1
    cases hu
    refine ⟨fun e he => ?_, fun hr _ => by cases (currentRun?_eq_some.1 hr).1⟩
    have he := List.mem_of_mem_tail he
    rw [List.append_nil] at he
    rcases List.mem_append.1 he with he | he
    · exact passes_of_mem_abandonAny e he
    · obtain rfl := List.mem_singleton.1 he
      rfl

theorem Tidy.of_stride (h : s.Tidy) (horder : s.Orderly) (hst : s.Stride b t p) : t.Tidy := by
  have hst' := hst
  cases hst' with
  | @session d ds hs ht =>
    subst ht
    have hplan := horder.handler
    rw [hs] at hplan
    exact h.of_session hplan hs rfl
  | @handler r₀ run₀ d ds done hs hsub hr₀ hd ht =>
    have hcalm := isCalm_of_stroke (horder.belongsTo hs) hd
    have hhandler : t.handler = done.next ++ ds := by rw [ht]
    refine ⟨fun e he => ?_, fun {r run'} hr hlive => ?_⟩
    · rw [hhandler] at he
      rcases List.mem_append.1 (List.mem_of_mem_tail he) with he | he
      · exact Duty.passes_of_isCalm (hcalm e he)
      · exact h.tail e (by simpa [hs] using he)
    · obtain ⟨run, hcurrent, hlive', -, -⟩ :=
        hst.inherits horder h (by simp [agenda, hs, hsub]) hr hlive
      have hspares := h.spares hcurrent hlive'
      rw [hs] at hspares
      rw [hhandler]
      refine spares_append hcalm (spares_tail hspares ?_)
      rintro rfl
      obtain rfl : r = r₀ := Option.some.inj hsub
      obtain rfl := Option.some.inj hd
      obtain ⟨-, hrun⟩ := currentRun?_eq_some.1 hr
      rw [ht] at hrun
      rcases getElem?_setRun hrun with ⟨-, rfl⟩ | ⟨hne, -⟩
      · cases hlive
      · exact hne rfl
  | starter hs hr₀ hd ht | thread hs hr₀ hd ht =>
    have hhandler : t.handler = s.handler := by
      rw [ht]
      rfl
    refine ⟨hhandler ▸ h.tail, fun hr hlive => ?_⟩
    obtain ⟨run, hcurrent, hlive', -, -⟩ :=
      hst.inherits horder h (horder.subject_of_head (by simp)) hr hlive
    exact hhandler ▸ h.spares hcurrent hlive'

theorem inherits_of_accept {i : Input} (hi : s.Admits i)
    (hr : (s.accept i).currentRun? = some (r, run')) (hlive : run'.isLive = true) :
    s.Inherits (s.accept i) r run' := by
  have hr' : s.currentRun? = some (r, run') := by cases i <;> exact hr
  refine ⟨run', hr', hlive, rfl, ?_⟩
  cases i with
  | request request | hangUp =>
    have hs : s.handler = [] := hi
    rw [promised_eq (by simp [accept, hs, Duty.passes]), promised_eq (by simp [hs])]
  | _ => rfl

theorem Tidy.of_accept {i : Input} (h : s.Tidy) (hi : s.Admits i) : (s.accept i).Tidy := by
  cases i with
  | request request | hangUp =>
    have hs : s.handler = [] := hi
    exact ⟨by simp [accept, hs], fun _ _ => by simp [accept, hs, Spares]⟩
  | _ => exact ⟨h.tail, h.spares⟩

theorem inherits_of_givenUp {r₀ : RunId} {run₀ run₁ : Run} (hr₀ : s.runs[r₀]? = some run₀)
    (hgive : run₀.GivenUp run₁) (hr : (s.setRun r₀ run₁).currentRun? = some (r, run'))
    (hlive : run'.isLive = true) : s.Inherits (s.setRun r₀ run₁) r run' := by
  obtain ⟨hcurrent, hrun⟩ := currentRun?_eq_some.1 hr
  rcases getElem?_setRun hrun with ⟨rfl, rfl⟩ | ⟨-, hrun⟩
  · have hretains := (Run.Retains.refl run₀).of_givenUp hgive
    exact .of_retains hcurrent hr₀ hretains hlive (promised_congr rfl r₀ hretains)
  · exact .of_eq hcurrent hrun hlive rfl

theorem Tidy.of_givenUp {r₀ : RunId} {run₀ run₁ : Run} (h : s.Tidy)
    (hr₀ : s.runs[r₀]? = some run₀) (hgive : run₀.GivenUp run₁) : (s.setRun r₀ run₁).Tidy where
  tail := h.tail
  spares hr hlive := by
    obtain ⟨run, hcurrent, hlive', -, -⟩ := inherits_of_givenUp hr₀ hgive hr hlive
    exact h.spares hcurrent hlive'

theorem Path.tidy {es : List (State × Party)} (h : Path b s es t) (horder : s.Orderly)
    (htidy : s.Tidy) : t.Tidy := by
  induction h with
  | refl => exact htidy
  | step hpath hp ih =>
    have horder := hpath.orderly horder
    exact ih.of_stride horder (horder.stride hp)
  | accept i _ hi ih => exact ih.of_accept hi
  | giveUp _ hr hgive ih => exact ih.of_givenUp hr hgive

theorem tidy_empty : ({} : State).Tidy where
  tail := by simp
  spares hr := by simp [currentRun?] at hr

/-! ## The registry and the promises -/

theorem registry_handle (s : State) (request : Request) (c : Protocol.Command) :
    (s.handle request c).1.registry = s.registry := by
  cases c with
  | launch | restart =>
    simp only [handle]
    split <;> rfl
  | _ => rfl

end State

/-- Only a duty that rewrites the registry changes it. -/
theorem SessionDuty.registry_of_perform {b : Backend} {s : State} {d : SessionDuty}
    (hd : (Duty.session d).rewrites = false) : (d.perform b s).1.registry = s.registry := by
  cases d with
  | handle request =>
    simp only [perform]
    split
    · exact s.registry_handle request _
    · rfl
  | reportTermination =>
    simp only [perform]
    split <;> rfl
  | openRun request args =>
    rcases s.prepare_cases b request args with ⟨_, -, heq⟩ | ⟨_, _, _, -, -, -, heq⟩ <;>
      simp only [perform, heq, State.openRun]
  | replaceBreakpoints | clearRegistry => cases hd
  | _ => rfl

namespace State

variable {b : Backend} {s t : State} {p : Party} {r : RunId} {run' : Run}

/-- A duty on the session leaves the registry as long as there is a live run, unless it is a change
of breakpoints. -/
theorem Tidy.registry_of_session {d : SessionDuty} {ds : List Duty} (h : s.Tidy)
    (hs : s.handler = .session d :: ds) (hd : (Duty.session d).replaces = false)
    (hr : (d.perform b { s with handler := ds }).1.currentRun? = some (r, run'))
    (hlive : run'.isLive = true) :
    (d.perform b { s with handler := ds }).1.registry = s.registry := by
  by_cases hclear : d = .clearRegistry
  · subst hclear
    have hspares := h.spares (show s.currentRun? = some (r, run') from hr) hlive
    simp [hs, Spares] at hspares
  · refine SessionDuty.registry_of_perform ?_
    cases d <;> first | exact absurd rfl hclear | exact hd

/-- A step, but for a change of breakpoints, leaves the registry and the promises as long as there
is a live run, or opens the run. -/
theorem Stride.inherits_or_opens (hst : s.Stride b t p) (horder : s.Orderly) (htidy : s.Tidy)
    (hp : ∀ d ∈ (s.agenda p).head?, d.replaces = false) (hr : t.currentRun? = some (r, run'))
    (hlive : run'.isLive = true) : t.registry = s.registry ∧ (s.Inherits t r run' ∨
      s.runs[r]? = none ∧ t.promised r run' = s.registry.lines run'.key) := by
  have hst' := hst
  cases hst' with
  | @session d ds hs ht =>
    subst ht
    have hplan := horder.handler
    rw [hs] at hplan
    have hd : (Duty.session d).replaces = false := hp _ (by simp [agenda, hs])
    exact ⟨htidy.registry_of_session hs hd hr hlive,
      inherits_of_session htidy hplan hs rfl hd hr hlive⟩
  | handler hs hsub _ _ ht =>
    refine ⟨by rw [ht]; rfl, .inl (hst.inherits horder htidy ?_ hr hlive)⟩
    simp [agenda, hs, hsub]
  | starter _ _ _ ht | thread _ _ _ ht =>
    refine ⟨by rw [ht]; rfl, .inl (hst.inherits horder htidy ?_ hr hlive)⟩
    exact horder.subject_of_head (by simp)

/-- A path without a change of breakpoints leaves the registry and the promises to a run that stays
current and live. -/
theorem Path.inherits {es : List (State × Party)} {run : Run} (h : Path b s es t)
    (horder : s.Orderly) (htidy : s.Tidy)
    (hes : ∀ e ∈ es, ∀ d ∈ (e.1.agenda e.2).head?, d.replaces = false)
    (hs : s.runs[r]? = some run) (hr : t.currentRun? = some (r, run'))
    (hlive : run'.isLive = true) : t.registry = s.registry ∧ s.Inherits t r run' := by
  induction h generalizing run' with
  | refl => exact ⟨rfl, run', hr, hlive, rfl, rfl⟩
  | @step es t u p hpath hp ih =>
    have horder' := hpath.orderly horder
    have hstep := (horder'.stride hp).inherits_or_opens horder' (hpath.tidy horder htidy)
      (hes (t, p) (by simp)) hr hlive
    obtain ⟨hregistry, hinherits | ⟨hnone, -⟩⟩ := hstep
    · obtain ⟨hregistry', h⟩ := hinherits.comp fun hr hlive =>
        ih (fun e he => hes e (by simp [he])) hr hlive
      exact ⟨hregistry.trans hregistry', h⟩
    · cases hs.symm.trans (hpath.runs_none horder hnone)
  | @accept es t i hpath hi ih =>
    have hregistry : (t.accept i).registry = t.registry := by cases i <;> rfl
    rw [hregistry]
    exact (inherits_of_accept hi hr hlive).comp fun hr hlive => ih hes hr hlive
  | giveUp _ hr₀ hgive ih =>
    exact (inherits_of_givenUp hr₀ hgive hr hlive).comp fun hr hlive => ih hes hr hlive

/-! ## Changes of breakpoints -/

/-- Whether the lines that the live run has or is promised are those of the registry for it. -/
def InStep (s : State) : Prop :=
  ∀ (r : RunId) (run : Run), s.currentRun? = some (r, run) → run.isLive = true →
    s.promised r run = s.registry.lines run.key

/-- Whether the handler, if it is to replace breakpoints now, passes their lines on just when the
live run finds them. -/
def JudgesRightly (s : State) : Prop :=
  ∀ {request : Request} {args : Protocol.BreakpointArguments} {ds : List Duty} {r : RunId}
    {run : Run}, s.handler = .session (.replaceBreakpoints request args) :: ds →
    s.currentRun? = some (r, run) → run.isLive = true →
    s.registry.judgesLines args.source args.requested run.key

/-- What a change of breakpoints promises. -/
theorem Stride.of_replaceBreakpoints {request : Request} {args : Protocol.BreakpointArguments}
    {ds : List Duty} (hst : s.Stride b t .handler)
    (hs : s.handler = .session (.replaceBreakpoints request args) :: ds) :
    t.currentRun? = s.currentRun? ∧
      t.registry = (s.registry.replace args.source args.requested).2 ∧
      ∀ r run, t.promised r run =
        if (s.registry.replace args.source args.requested).1.matches run.key then
          (s.registry.replace args.source args.requested).1.lines
        else run.context.lines := by
  cases hst with
  | session hs' ht =>
    obtain ⟨heq, rfl⟩ := List.cons.inj (hs'.symm.trans hs)
    cases heq
    rw [perform_replaceBreakpoints] at ht
    dsimp only at ht
    generalize s.registry.replace args.source args.requested = replaced at ht ⊢
    subst ht
    exact ⟨rfl, rfl, fun _ _ => rfl⟩
  | handler hs' hsub =>
    obtain ⟨rfl, rfl⟩ := List.cons.inj (hs'.symm.trans hs)
    cases hsub

theorem agrees_iff_judgesLines {registry : Registry} {source : Source}
    {requested : List SourceBreakpoint} {key : String} :
    ((if (registry.replace source requested).1.matches key then
        (registry.replace source requested).1.lines
      else registry.lines key) = (registry.replace source requested).2.lines key) ↔
      registry.judgesLines source requested key := by
  rw [Registry.lines_replace, Registry.judgesLines]
  by_cases hserves : registry.serves (normalize (source.path.getD "")) key <;>
    by_cases hmatches : (registry.replace source requested).1.matches key = true <;>
    simp [hserves, hmatches, eq_comm]

/-- Only the handler changes breakpoints, and it does so last. -/
theorem Orderly.of_replaces (h : s.Orderly) {d : Duty} (hd : d ∈ (s.agenda p).head?)
    (hreplaces : d.replaces = true) : p = .handler ∧
      ∃ request args, s.handler = [.session (.replaceBreakpoints request args)] := by
  obtain ⟨request, args, rfl⟩ :
      ∃ request args, d = .session (.replaceBreakpoints request args) := by
    unfold Duty.replaces at hreplaces
    split at hreplaces
    · exact ⟨_, _, rfl⟩
    · cases hreplaces
  cases p with
  | handler =>
    obtain ⟨ds, hs⟩ := List.head?_eq_some_iff.1 hd
    have hs : s.handler = _ := hs
    have hplan := h.handler
    rw [hs] at hplan
    obtain rfl : ds = [] := hplan.1
    exact ⟨rfl, request, args, hs⟩
  | _ => exact absurd rfl (h.subject_of_head (by simp) _ hd)

theorem InStep.of_stride (h : s.InStep) (horder : s.Orderly) (htidy : s.Tidy)
    (hst : s.Stride b t p) (hright : p = .handler → s.JudgesRightly) : t.InStep := by
  intro r run' hr hlive
  by_cases hreplaces : ∃ d ∈ (s.agenda p).head?, d.replaces = true
  · obtain ⟨d, hd, hreplaces⟩ := hreplaces
    obtain ⟨rfl, request, args, hs⟩ := horder.of_replaces hd hreplaces
    obtain ⟨hcurrent, hregistry, hpromised⟩ := hst.of_replaceBreakpoints hs
    rw [hcurrent] at hr
    have hbefore := h r run' hr hlive
    rw [promised_eq (by simp [hs, Duty.passes])] at hbefore
    rw [hregistry, hpromised, hbefore]
    exact agrees_iff_judgesLines.2 (hright rfl hs hr hlive)
  · have hp : ∀ d ∈ (s.agenda p).head?, d.replaces = false := by simpa using hreplaces
    obtain ⟨hregistry, hinherits | ⟨-, hopened⟩⟩ :=
      hst.inherits_or_opens horder htidy hp hr hlive
    · obtain ⟨run, hr', hlive', hkey, hlines⟩ := hinherits
      rw [hlines, hregistry, hkey]
      exact h r run hr' hlive'
    · rw [hopened, hregistry]

theorem InStep.of_inherits (h : s.InStep) (hregistry : t.registry = s.registry)
    (hinherits : ∀ {r : RunId} {run : Run}, t.currentRun? = some (r, run) → run.isLive = true →
      s.Inherits t r run) : t.InStep := by
  intro r run' hr hlive
  obtain ⟨run, hr', hlive', hkey, hlines⟩ := hinherits hr hlive
  rw [hlines, hregistry, hkey]
  exact h r run hr' hlive'

/-- The live run is in step as long as the handler judges rightly. -/
theorem Path.inStep {es : List (State × Party)} (h : Path b {} es s)
    (hright : ∀ e ∈ es, e.2 = .handler → e.1.JudgesRightly) : s.InStep := by
  induction h with
  | refl => exact fun r run hr => by simp [currentRun?] at hr
  | @step es s t p hpath hp ih =>
    have horder := hpath.orderly orderly_empty
    have hin := ih fun e he => hright e (by simp [he])
    exact hin.of_stride horder (hpath.tidy orderly_empty tidy_empty) (horder.stride hp)
      (hright (s, p) (by simp))
  | accept i _ hi ih => exact (ih hright).of_inherits (by cases i <;> rfl) (inherits_of_accept hi)
  | giveUp _ hr hgive ih => exact (ih hright).of_inherits rfl (inherits_of_givenUp hr hgive)

/-- After breakpoints were replaced, the live run that had the lines of the registry has them again
just when the handler judged rightly. -/
theorem Path.agrees_iff {es es' : List (State × Party)} {u : State} {request : Request}
    {args : Protocol.BreakpointArguments} {run : Run} (h : Path b {} es s)
    (hs : s.handler = [.session (.replaceBreakpoints request args)])
    (hr : s.currentRun? = some (r, run))
    (hagrees : run.context.lines = s.registry.lines run.key)
    (hstep : s.advance? b .handler = some t) (h' : Path b t es' u)
    (hes : ∀ e ∈ es', ∀ d ∈ (e.1.agenda e.2).head?, d.replaces = false)
    (hrest : u.handler = []) (hr' : u.currentRun? = some (r, run'))
    (hlive : run'.isLive = true) : run'.context.lines = u.registry.lines run'.key ↔
      s.registry.judgesLines args.source args.requested run.key := by
  have horder := h.orderly orderly_empty
  have hpath := h.step hstep
  obtain ⟨hcurrent, hregistry, hpromised⟩ := (horder.stride hstep).of_replaceBreakpoints hs
  rw [hr] at hcurrent
  obtain ⟨hregistry', run₁, hr₁, -, hkey, hlines⟩ := h'.inherits (hpath.orderly orderly_empty)
    (hpath.tidy orderly_empty tidy_empty) hes (currentRun?_eq_some.1 hcurrent).2 hr' hlive
  obtain ⟨-, rfl⟩ := Prod.mk.inj (Option.some.inj (hr₁.symm.trans hcurrent))
  rw [promised_eq (by simp [hrest]), hpromised, hagrees] at hlines
  rw [hlines, hregistry', hregistry, hkey]
  exact agrees_iff_judgesLines

end State

/-! ## The live run has its lines -/

/-- The registry tells rightly whether breakpoints are for a script just when the keys match if and
only if the script finds them, or the script found the same before. So the live run has the lines
that the registry has for it whenever the handler is at rest, whoever took which step, if every
change of breakpoints passed its lines on rightly; after one that did not, it has other lines. -/
theorem installed_lines_exact (registry : Registry) (source : Source)
    (requested : List SourceBreakpoint) (active : String) (b : Backend) :
    (registry.judges source requested active ↔
      (((registry.replace source requested).1.matches active = true ↔
          registry.serves (normalize (source.path.getD "")) active) ∨
        registry.lookup active = some (registry.requestedEntries requested))) ∧
    (∀ {es : List (State × Party)} {s : State} {r : RunId} {run : Run},
      State.Path b {} es s → (∀ e ∈ es, e.2 = .handler → e.1.JudgesRightly) → s.handler = [] →
      s.currentRun? = some (r, run) → run.isLive = true →
      run.context.lines = s.registry.lines run.key) ∧
    ∀ {es es' : List (State × Party)} {s t u : State} {r : RunId} {run run' : Run}
      {request : Request} {args : Protocol.BreakpointArguments},
      State.Path b {} es s → s.handler = [.session (.replaceBreakpoints request args)] →
      s.currentRun? = some (r, run) → run.context.lines = s.registry.lines run.key →
      s.advance? b .handler = some t → State.Path b t es' u →
      (∀ e ∈ es', ∀ d ∈ (e.1.agenda e.2).head?, d.replaces = false) → u.handler = [] →
      u.currentRun? = some (r, run') → run'.isLive = true →
      (run'.context.lines = u.registry.lines run'.key ↔
        s.registry.judgesLines args.source args.requested run.key) := by
  refine ⟨registry.judges_iff source requested active,
    fun {es s r run} h hright hrest hr hlive => ?_, State.Path.agrees_iff⟩
  have hin := h.inStep hright r run hr hlive
  rwa [State.promised_eq (by simp [hrest])] at hin

/-- A backend with one script, whose key has a resource type. -/
def nestedBackend : Backend where
  library := .table [("api/a", ⟨"return 1", "api/a", {}⟩)]
  crashText := ""

open State (asked taken) in
/-- A breakpoint is requested and the handler is about to put it in the registry. -/
def setLine (path : String) (line : Nat) : List State.Turn :=
  asked "setBreakpoints" (.object [("source", .object [("path", .string path)]),
    ("breakpoints", .array [.object [("line", Json.ofNat line)]])]) :: taken 1 .handler

open State (asked taken) in
/-- A script is launched that has a breakpoint on its first line. -/
def openNested : List State.Turn :=
  setLine "api/a.ms" 1 ++ taken 3 .handler ++
    asked "launch" (.object [("path", .string "api/a")]) :: taken 6 .handler

/-- Whether the handler is about to replace breakpoints rightly while run 0 is in step. -/
def State.replacesRightly (s : State) : Bool :=
  match s.handler, s.currentRun? with
  | [.session (.replaceBreakpoints _ args)], some (0, run) =>
    decide (run.context.lines = s.registry.lines run.key) &&
      decide (s.registry.judgesLines args.source args.requested run.key)
  | _, _ => false

theorem State.replacesRightly_iff {s : State} : s.replacesRightly = true ↔
    ∃ request args run, s.handler = [.session (.replaceBreakpoints request args)] ∧
      s.currentRun? = some (0, run) ∧ run.context.lines = s.registry.lines run.key ∧
      s.registry.judgesLines args.source args.requested run.key := by
  constructor
  · intro h
    unfold replacesRightly at h
    split at h
    next request args run hs hr =>
      simp only [Bool.and_eq_true, decide_eq_true_eq] at h
      exact ⟨request, args, run, hs, hr, h.1, h.2⟩
    · cases h
  · rintro ⟨request, args, run, hs, hr, hagrees, hright⟩
    simp [replacesRightly, hs, hr, hagrees, hright]

/-- A breakpoint that is requested under the key of the live run reaches it. -/
theorem installed_lines_exact_same_key : ∃ es s run, State.Path nestedBackend {} es s ∧
    s.handler = [] ∧ s.currentRun? = some (0, run) ∧ run.isLive = true ∧
    run.context.lines = [3] ∧ s.registry.lines run.key = [3] := by
  have hwalk : (({} : State).walk? nestedBackend (openNested ++ setLine "api/a.ms" 2)).any (fun w =>
      w.2.replacesRightly && (w.2.advance? nestedBackend .handler).any fun t =>
        (t.walk? nestedBackend (State.taken 9 .handler)).any fun w' =>
          w'.1.all (fun e => ((e.1.agenda e.2).head?).all fun d => !d.replaces) &&
            w'.2.handler.isEmpty &&
            w'.2.currentRun?.any fun c => c.1 == 0 && c.2.isLive && c.2.context.lines == [3]) =
      true := by decide +kernel
  obtain ⟨⟨es, s⟩, hw, hfacts⟩ := (Option.any_eq_true ..).1 hwalk
  rw [Bool.and_eq_true] at hfacts
  obtain ⟨request, args, run, hs, hr, hagrees, hright⟩ := State.replacesRightly_iff.1 hfacts.1
  obtain ⟨t, hstep, hfacts⟩ := (Option.any_eq_true ..).1 hfacts.2
  obtain ⟨⟨es', u⟩, hw', hfacts⟩ := (Option.any_eq_true ..).1 hfacts
  simp only [Bool.and_eq_true, List.isEmpty_iff] at hfacts
  obtain ⟨⟨hes, hrest⟩, hcurrent⟩ := hfacts
  obtain ⟨⟨r, run'⟩, hr', hfacts⟩ := (Option.any_eq_true ..).1 hcurrent
  simp only [Bool.and_eq_true, beq_iff_eq] at hfacts
  obtain ⟨⟨rfl, hlive⟩, hlines⟩ := hfacts
  have hpath : State.Path nestedBackend {} es s := State.Path.refl.walk hw
  have hpath' : State.Path nestedBackend t es' u := State.Path.refl.walk hw'
  have hes' : ∀ e ∈ es', ∀ d ∈ (e.1.agenda e.2).head?, d.replaces = false := by
    intro e he d hd
    have hall := (List.all_eq_true.1 hes) e he
    simpa [Option.mem_def.1 hd] using hall
  have hsame := ((installed_lines_exact {} {} [] "" nestedBackend).2.2 hpath hs hr hagrees hstep
    hpath' hes' hrest hr' hlive).2 hright
  exact ⟨_, u, run', (hpath.step hstep).trans hpath', hrest, hr', hlive, hlines,
    hsame.symm.trans hlines⟩

/-- A breakpoint that is requested under a key without the resource type reaches the live run, which
has an entry with the resource type in the registry. The registry tells wrongly, and the live run
gets lines that the registry does not have for it. -/
theorem installed_lines_apart :
    (¬∀ (registry : Registry) (source : Source) (requested : List SourceBreakpoint)
      (active : String), registry.judges source requested active) ∧
    ∃ es s run, State.Path nestedBackend {} es s ∧ s.handler = [] ∧
      s.currentRun? = some (0, run) ∧ run.isLive = true ∧ run.context.lines = [3] ∧
      s.registry.lines run.key = [2] := by
  refine ⟨fun h => ?_, ?_⟩
  · let first : Registry := (({} : Registry).replace { path := some "api/a.ms" } [{ line := 1 }]).2
    have hmatches : (first.replace { path := some "a.ms" } [{ line := 2 }]).1.matches "api/a.ms" =
        true := by decide +kernel
    have hlookup : (first.replace { path := some "a.ms" } [{ line := 2 }]).2.lookup "api/a.ms" ≠
        some (first.requestedEntries [{ line := 2 }]) := by decide +kernel
    exact hlookup ((h first { path := some "a.ms" } [{ line := 2 }] "api/a.ms").1 hmatches)
  · have hwalk : (({} : State).walk? nestedBackend
        (openNested ++ setLine "a.ms" 2 ++ State.taken 10 .handler)).any (fun w =>
          w.2.handler.isEmpty && w.2.currentRun?.any fun c => c.1 == 0 && c.2.isLive &&
            c.2.context.lines == [3] && w.2.registry.lines c.2.key == [2]) = true := by
      decide +kernel
    obtain ⟨⟨es, s⟩, hw, hfacts⟩ := (Option.any_eq_true ..).1 hwalk
    simp only [Bool.and_eq_true, List.isEmpty_iff] at hfacts
    obtain ⟨hrest, hcurrent⟩ := hfacts
    obtain ⟨⟨r, run⟩, hr, hfacts⟩ := (Option.any_eq_true ..).1 hcurrent
    simp only [Bool.and_eq_true, beq_iff_eq] at hfacts
    obtain ⟨⟨⟨rfl, hlive⟩, hlines⟩, hregistry⟩ := hfacts
    exact ⟨es, s, run, State.Path.refl.walk hw, hrest, hr, hlive, hlines, hregistry⟩

end DebugAdapter.Session
