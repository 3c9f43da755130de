import DebugAdapter.Proofs.Session.Course
/-!
# The debugger shows what it should

Breakpoints are requested for a script, and later a run of the script starts. `State.Path.promises`
says that the run has the lines of the breakpoints by then, whether it was opened before the request
or after. Main statement: `shows_reference`, on every course the run sends just what the reference
debugger shows for the text of the client.
-/

namespace DebugAdapter.Session

open Protocol (Outgoing Request Resumption)

/-! ## Lines that were requested before -/

namespace State

variable {b : Backend} {s t : State} {p : Party} {r : RunId} {run : Run} {key : String}

/-- Whether a live run with this key has the lines that the registry has for it, or is about to. -/
def Promises (key : String) (s : State) : Prop :=
  ∀ (r : RunId) (run : Run), s.currentRun? = some (r, run) → run.isLive = true → run.key = key →
    s.promised r run = s.registry.lines key

theorem Stride.registry (hst : s.Stride b t p)
    (hp : ∀ d ∈ (s.agenda p).head?, d.rewrites = false) : t.registry = s.registry := by
  cases hst with
  | session hs ht =>
    subst ht
    exact SessionDuty.registry_of_perform (hp _ (by simp [agenda, hs]))
  | handler _ _ _ _ ht | starter _ _ _ ht | thread _ _ _ ht =>
    rw [ht]
    rfl

/-- What was promised for a key stays promised as long as nothing changes the registry. -/
theorem Path.promises {es : List (State × Party)} (h : Path b s es t) (horder : s.Orderly)
    (htidy : s.Tidy) (hes : ∀ e ∈ es, ∀ d ∈ (e.1.agenda e.2).head?, d.rewrites = false)
    (hs : s.Promises key) : t.registry = s.registry ∧ t.Promises key := by
  induction h with
  | refl => exact ⟨rfl, hs⟩
  | @step es t u p hpath hp ih =>
    obtain ⟨hregistry, ht⟩ := ih fun e he => hes e (by simp [he])
    have horder' := hpath.orderly horder
    have hst := horder'.stride hp
    have hrewrites : ∀ d ∈ (t.agenda p).head?, d.rewrites = false := hes (t, p) (by simp)
    have hreplaces : ∀ d ∈ (t.agenda p).head?, d.replaces = false := fun d hd => by
      cases hd' : d.replaces with
      | false => rfl
      | true =>
        have hd := hrewrites d hd
        unfold Duty.rewrites at hd
        split at hd
        · cases hd
        · exact hd'.symm.trans hd
    have hregistry' := hst.registry hrewrites
    refine ⟨hregistry'.trans hregistry, fun r run hr hlive hkey => ?_⟩
    obtain ⟨-, hinherits | ⟨-, hopened⟩⟩ :=
      hst.inherits_or_opens horder' (hpath.tidy horder htidy) hreplaces hr hlive
    · obtain ⟨run₀, hr₀, hlive₀, hkey₀, hlines⟩ := hinherits
      rw [hlines, hregistry']
      exact ht r run₀ hr₀ hlive₀ (hkey₀.symm.trans hkey)
    · rw [hopened, hregistry', hkey]
  | accept i _ hi ih =>
    obtain ⟨hregistry, ht⟩ := ih hes
    refine ⟨by cases i <;> exact hregistry, fun r run hr hlive hkey => ?_⟩
    obtain ⟨run₀, hr₀, hlive₀, hkey₀, hlines⟩ := inherits_of_accept hi hr hlive
    rw [hlines, ht r run₀ hr₀ hlive₀ (hkey₀.symm.trans hkey)]
    cases i <;> rfl
  | giveUp _ hr₀ hgive ih =>
    obtain ⟨hregistry, ht⟩ := ih hes
    refine ⟨hregistry, fun r run hr hlive hkey => ?_⟩
    obtain ⟨run₀, hr₀, hlive₀, hkey₀, hlines⟩ := inherits_of_givenUp hr₀ hgive hr hlive
    rw [hlines, ht r run₀ hr₀ hlive₀ (hkey₀.symm.trans hkey)]
    rfl

/-- Breakpoints that are requested for a key are promised to the runs with this key. -/
theorem Stride.promises {request : Request} {args : Protocol.BreakpointArguments}
    {ds : List Duty} (hst : s.Stride b t .handler)
    (hs : s.handler = .session (.replaceBreakpoints request args) :: ds)
    (hreaches : s.registry.reaches (SourceKey.normalize (args.source.path.getD "")) key) :
    t.Promises key := by
  intro r run _ _ hkey
  obtain ⟨-, hregistry, hpromised⟩ := hst.of_replaceBreakpoints hs
  rw [hpromised, hkey, Registry.matches_of_reaches args.requested hreaches, if_pos rfl, hregistry,
    Registry.lines_replace, if_pos (Registry.serves_of_reaches hreaches)]

end State

/-! ## Runs that are about to start -/

/-- Whether run `r` is launched and nothing was done with it but what starts it. -/
structure State.Awaits (s : State) (r : RunId) (run : Run) : Prop where
  current : s.currentRun? = some (r, run)
  live : run.isLive = true
  opened : run.context.isClosed = false
  terminated : run.terminated = false
  started : run.started = false
  handler : ∀ d ∈ s.handler, d.isHarmless r = true

/-- What the lines of a run carry. -/
def State.marks (s : State) (run : Run) (line : UInt32) : Option Mark :=
  (s.registry.get? run.key line).map LineBreakpoint.logMessage

theorem Duty.passes_of_isHarmless {r : RunId} {d : Duty} (h : d.isHarmless r = true) :
    d.passes = false := by
  cases d with
  | session d => cases d <;> first | rfl | cases h
  | run r' d =>
    simp only [isHarmless, Bool.and_eq_true] at h
    cases d <;> first | rfl | cases h.2
  | _ => rfl

/-- A run that is about to start follows its script. -/
theorem State.Awaits.follows {b : Backend} {s : State} {r : RunId} {run : Run}
    {es : List (State × Party)} (h : s.Awaits r run) (hpath : Path b {} es s)
    (hlines : s.promised r run = s.registry.lines run.key) :
    s.Follows (s.marks run) r (fun cs => debug (s.marks run) run.rest false cs run.vars) [] []
      run := by
  obtain ⟨-, hr⟩ := State.currentRun?_eq_some.1 h.current
  have horder := (hpath.orderly orderly_empty).runs hr
  have hunstarted := hpath.unstarted
  obtain ⟨hfresh, -⟩ := hunstarted.fresh hr h.started
  have hpasses : ∀ d ∈ s.handler.head?, d.passes = false := fun d hd =>
    Duty.passes_of_isHarmless (h.handler d (List.mem_of_mem_head? hd))
  rw [promised_eq hpasses] at hlines
  have howed : owed r s.handler = 0 := by
    refine List.countP_eq_zero.2 fun d hd hsignals => ?_
    have hidle := hunstarted.idle hr h.started d hd
    unfold Duty.signals at hsignals
    split at hsignals
    · exact Bool.false_ne_true (hidle.symm.trans hsignals)
    · cases hsignals
  have hspawner (hstarted : run.started = true) :
      .run r .spawn ∈ s.handler ∨ .run r .spawn ∈ run.starter := by
    cases h.started.symm.trans hstarted
  exact ⟨h.current, ⟨h.live, h.opened, hfresh.pausePending, hfresh.overrides, hlines, fun _ => rfl⟩,
    .inl ⟨rfl, rfl, hfresh, (horder.unstarted h.started).1, h.terminated, h.handler, howed,
      hspawner, fun _ => rfl⟩⟩

/-! ## Threads that cannot go on -/

section Blocked

variable {b : Backend} {s : State} {r : RunId} {run : Run} {d : ThreadDuty}

theorem RunDuty.holder_of_perform? {d : RunDuty} {done : Done} (hd : d.perform? r run = some done) :
    ∀ p ∈ done.run.lock, p ∈ run.lock := by
  cases d <;> simp only [perform?] at hd <;> (repeat' split at hd) <;> cases hd <;> simp

theorem ThreadDuty.Leaves.holder {run' : Run} (h : d.Leaves r run run') :
    ∀ p ∈ run'.lock, p ∈ run.lock ∨ p = .thread r := by
  intro p hp
  cases h with
  | lock => exact .inr (Option.some.inj hp).symm
  | _ => exact .inl hp

theorem RequestDuty.Leads.holder {d : RequestDuty} {done : Done} (h : d.Leads r run done) :
    ∀ p ∈ done.run.lock, p ∈ run.lock ∨ p = .handler := by
  intro p hp
  cases h with
  | skip | pause => exact .inr (Option.some.inj hp).symm
  | _ => exact .inl hp

/-- Only the handler and the thread of a run hold its lock. -/
theorem Run.lock_stable (b : Backend) (r : RunId) : Run.Stable b r (fun _ => True)
    fun run => ∀ p ∈ run.lock, p = .handler ∨ p = .thread r where
  starter _ h := h
  duty _ _ _ hd h p hp := h p (RunDuty.holder_of_perform? hd p hp)
  request hd h p hp := (hd.holder p hp).elim (h p) .inl
  thread {s run d ds done} _ _ horder hds hd h p hp := by
    obtain ⟨d, rfl⟩ | ⟨d, rfl⟩ := (hds ▸ horder.thread).head_cases
    · have hd : d.perform? r { run with thread := ds } = some done := hd
      exact h p (RunDuty.holder_of_perform? hd p hp)
    · exact ((ThreadDuty.leaves_of_perform? hd).holder p hp).elim (h p) .inr
  givenUp hgive h := by cases hgive <;> exact h

theorem State.Path.isFree {es : List (State × Party)} (h : Path b {} es s)
    (hr : s.runs[r]? = some run) (hhandler : .run r .unlock ∉ s.handler)
    (hthread : run.lock ≠ some (.thread r)) : run.isFree = true := by
  have hlock := (Run.lock_stable b r).of_path h orderly_empty (fun _ _ => trivial)
    (fun _ _ _ hopens => by cases hopens; simp) (by simp) hr
  cases hcase : run.lock with
  | none => simp [Run.isFree, hcase]
  | some p =>
    rcases hlock p (by simp [hcase]) with rfl | rfl
    · exact absurd ((((h.orderly orderly_empty).runs hr).lock).1 hcase) hhandler
    · exact absurd hcase hthread

theorem Rendezvous.permits_of_wait?_none {x : Rendezvous} (h : x.wait? = none) : x.permits = 0 := by
  unfold Rendezvous.wait? at h
  split at h
  · cases h
  · split at h
    · cases h
    · omega

/-- A thread waits for the lock, for a signal, or while it stalls. -/
theorem ThreadDuty.cases_of_blocked (hd : d.perform? b s r run = none) :
    d = .lock ∧ run.isFree = false ∨ d = .park ∧ run.context.rendezvous.wait? = none ∨
      ∃ since, d = .stall since := by
  unfold perform? at hd
  split at hd <;> cases d <;> simp only [performAt?, performIdle?] at hd <;>
    (repeat' split at hd) <;> first | contradiction | simp_all

theorem State.stroke?_of_advance?_none {e : Duty} {ds : List Duty} (horder : s.Orderly)
    (hr : s.runs[r]? = some run) (hthread : run.thread = e :: ds)
    (hnone : s.advance? b (.thread r) = none) :
    e.stroke? b s r { run with thread := ds } = none := by
  have hagenda : s.agenda (.thread r) = e :: ds := by simp [agenda, hr, hthread]
  have hsub := Duty.subject_of_belongsTo (.inr (horder.belongsTo hagenda))
  have hset : s.setAgenda (.thread r) ds = s.setRun r { run with thread := ds } := by
    simp [setAgenda, setRun, modify_eq_set _ hr]
  simp only [advance?, hagenda, Option.map_eq_none_iff] at hnone
  rw [Duty.perform?_of_subject b _ hsub, hset, onRun_set_self hr, Option.map_eq_none_iff] at hnone
  cases e <;> exact hnone

/-- A thread that cannot go on while the handler is not about to release the lock is over, parked or
stalled. -/
theorem State.Path.cases_of_blocked {es : List (State × Party)} (h : Path b {} es s)
    (hr : s.runs[r]? = some run) (hhandler : .run r .unlock ∉ s.handler)
    (hnone : s.advance? b (.thread r) = none) :
    run.thread = [] ∨ run.thread = [.thread r .park] ∧ run.context.rendezvous.wait? = none ∨
      ∃ since, .thread r (.stall since) ∈ run.thread := by
  have horder := h.orderly orderly_empty
  have hplan := (horder.runs hr).thread
  cases hthread : run.thread with
  | nil => exact .inl rfl
  | cons e ds =>
    have hstroke := stroke?_of_advance?_none horder hr hthread hnone
    have hfree (hholds : run.lock ≠ some (.thread r)) := h.isFree hr hhandler hholds
    rw [hthread] at hplan
    generalize hholds : decide (run.lock = some (.thread r)) = holds at hplan
    obtain ⟨d, rfl⟩ | ⟨d, rfl⟩ := hplan.head_cases
    · cases d <;> simp only [Duty.stroke?, RunDuty.perform?] at hstroke
      case setPhase =>
        cases hplan
        have hfree : run.isFree = true := hfree (by simpa using hholds)
        exact absurd (hstroke.symm.trans (if_pos hfree)) (by simp)
      all_goals
        (repeat' split at hstroke) <;> cases hstroke
    · rcases ThreadDuty.cases_of_blocked hstroke with ⟨rfl, hbusy⟩ | ⟨rfl, hwait⟩ | ⟨since, rfl⟩
      · cases hplan with
        | last _ hlocked =>
          rw [hlocked] at hholds
          have hfree : run.isFree = true := hfree (by simpa [ThreadDuty.isLocked] using hholds)
          cases hbusy.symm.trans hfree
      · cases hplan
        exact .inr (.inl ⟨rfl, hwait⟩)
      · exact .inr (.inr ⟨since, by simp⟩)

/-- A thread that cannot go on while the handler is at rest is over or parked. -/
theorem State.Path.parked_of_blocked {es : List (State × Party)} (h : Path b {} es s)
    (hr : s.runs[r]? = some run) (hrest : s.handler = [])
    (hfits : ∀ d, .thread r d ∈ run.thread → d.Fits run)
    (hnone : s.advance? b (.thread r) = none) :
    run.thread = [] ∨ run.thread = [.thread r .park] ∧ run.context.rendezvous.wait? = none := by
  rcases h.cases_of_blocked hr (by simp [hrest]) hnone with hnil | hpark | ⟨since, hstall⟩
  · exact .inl hnil
  · exact .inr hpark
  · exact (hfits (.stall since) hstall).elim

end Blocked

/-! ## What the client is shown -/

/-- A script only stops at its statements. -/
theorem mem_of_stop_mem_debug {marks : UInt32 → Option Mark} {reason : StopReason}
    {stmt : Script.Statement} {vars vars' : Json.Fields} {p : Script.Program} {stepping : Bool}
    {cs : List Resumption}
    (h : .stop reason stmt vars' ∈ debug marks p stepping cs vars) : stmt ∈ p := by
  induction p generalizing stepping cs vars with
  | nil => simp [debug] at h
  | cons stmt' p ih =>
    have hgo {stepping : Bool} {cs : List Resumption}
        (h : .stop reason stmt vars' ∈ performed (debug marks p stepping cs) stmt' vars) :
        stmt ∈ p := by
      unfold performed at h
      split at h
      · exact ih h
      · exact ih (by simpa using h)
      · simp at h
    simp only [debug] at h
    cases hboundary : boundary (marks stmt'.line) stepping vars with
    | pass =>
      rw [hboundary] at h
      exact .tail _ (hgo h)
    | log text =>
      rw [hboundary] at h
      exact .tail _ (hgo (by simpa using h))
    | stop reason' =>
      rw [hboundary] at h
      rcases List.mem_cons.1 h with heq | h
      · cases heq
        exact .head _
      · cases cs with
        | nil => cases h
        | cons c cs => exact .tail _ (hgo h)

/-- The messages for what the script of a run shows from its start on. -/
def Run.messages (run : Run) (ns : List Notice) : List Outgoing :=
  (startNote run.clientPath run.key ::
    transcript run.clientPath (fun _ => []) (ns.map Notice.instrumented)).map .event

/-- A run keeps its names, whatever anyone does. -/
theorem Run.name_stable (b : Backend) (r : RunId) (run : Run) : Run.Stable b r (fun _ => True)
    fun run' => run'.key = run.key ∧ run'.clientPath = run.clientPath := by
  refine .of_steps (fun _ _ h => h) (fun {run' d done} hd h => ?_) (fun hd h => ?_)
    (fun hleaves h => ⟨hleaves.name.1.trans h.1, hleaves.name.2.1.trans h.2⟩) (fun hgive h => ?_)
  · cases d <;> simp only [RunDuty.perform?] at hd <;> (repeat' split at hd) <;> cases hd <;>
      exact h
  · cases hd <;> exact h
  · cases hgive <;> exact h

/-- A compiled script shows what its text shows, one line further down. -/
theorem debug_of_compile {e : Engine} (hengine : e = {}) {text : String}
    {program rest : Script.Program} (hparse : Script.Program.parse text = .ok program)
    (hlines : (Text.lines text).length < 0xFFFFFFFE) (hcompile : e.compile text = some (.ok rest))
    {marks marks' : UInt32 → Option Mark} (hmarks : ∀ line : UInt32, line.toNat < 0xFFFFFFFE →
      marks' (Script.toInstrumentedLine line) = marks line)
    (cs : List Resumption) (vars : Json.Fields) :
    debug marks' rest false cs vars =
      (debug marks program false cs vars).map Notice.instrumented := by
  obtain ⟨hinstrumented, hlt⟩ := Script.parse_instrument hparse hlines
  have hrest : rest = program.map Script.Statement.instrumented := by
    subst hengine
    simp only [Engine.compile, hinstrumented] at hcompile
    exact (Except.ok.inj (Option.some.inj hcompile)).symm
  rw [hrest]
  exact debug_instrumented program (fun stmt hmem => hmarks _ (hlt stmt hmem)) false cs vars

/-- After a request for breakpoints, the lines of a run that it was for carry them. -/
theorem State.marks_of_replace {s : State} {run : Run} {registry : Registry} {source : Source}
    {requested : List SourceBreakpoint}
    (hregistry : s.registry = (registry.replace source requested).2)
    (hreaches : registry.reaches (SourceKey.normalize (source.path.getD "")) run.key)
    {line : UInt32} (hline : line.toNat < 0xFFFFFFFE) :
    s.marks run (Script.toInstrumentedLine line) = Registry.mark? requested line := by
  rw [marks, hregistry, Registry.get?, Registry.lookup_replace,
    if_pos (Registry.serves_of_reaches hreaches)]
  exact Registry.mark_entries registry.nextId requested hline

/-- A run that stopped stopped before a statement of the text, and shows its line. -/
theorem Run.ShowsStop.of_instrumented {r : RunId} {run : Run} {shown ns : List Notice}
    (h : run.ShowsStop r ns) (hcapture : .thread r .capture ∉ run.thread)
    (hns : ns <+: shown.map Notice.instrumented) :
    ∃ told reason stmt vars, told ++ [.stop reason stmt vars] <+: shown ∧
      ns = (told ++ [.stop reason stmt vars]).map Notice.instrumented ∧
      run.snapshot.frames = [frameAt run.clientPath stmt.instrumented.span] := by
  obtain ⟨reason, stmt, -, -, hlast, hframes⟩ := h
  obtain ⟨rest, hrest⟩ := hns
  obtain ⟨told, rest, rfl, rfl, -⟩ := List.map_eq_append_iff.1 hrest.symm
  rw [List.getLast?_map, Option.map_eq_some_iff] at hlast
  obtain ⟨n, hn, hstop⟩ := hlast
  obtain ⟨told, rfl⟩ := List.getLast?_eq_some_iff.1 hn
  cases n with
  | stop _ stmt =>
    cases hstop
    exact ⟨told, _, stmt, _, List.prefix_append _ _, rfl, hframes hcapture⟩
  | _ => cases hstop

/-- A run that follows a script that shows `shown` sent a part of it, all of it once it cannot go
on, and at a stop all up to there. -/
theorem State.Follows.sent {b : Backend} {s : State} {r : RunId} {run : Run}
    {marks : UInt32 → Option Mark} {script : List Resumption → List Notice} {cs : List Resumption}
    {sent : List Protocol.Event} {es : List (State × Party)} {shown : List Notice}
    (h : s.Follows marks r script cs sent run) (hpath : Path b {} es s)
    (hshown : script cs = shown.map Notice.instrumented) :
    sent.map .event <+: run.messages shown ∧
    (run.Begun r s.handler → s.handler = [] → s.advance? b (.thread r) = none →
      sent.map .event = run.messages shown) ∧
    (run.phase = .paused → run.thread = [.thread r .park] →
      ∃ told reason stmt vars, told ++ [.stop reason stmt vars] <+: shown ∧
        sent.map .event = run.messages (told ++ [.stop reason stmt vars]) ∧
        run.snapshot.frames = [frameAt run.clientPath stmt.instrumented.span]) := by
  obtain ⟨-, hr⟩ := currentRun?_eq_some.1 h.current
  rcases h.course.stage with ⟨rfl, rfl, hwaits⟩ | ⟨hbegun, taken, coming, ns, rfl, htold, herrand⟩
  · refine ⟨List.nil_prefix, fun hbegun => ?_, fun hphase => absurd hphase hwaits.fresh.phase⟩
    rcases hwaits.spawner hbegun.started with hmem | hmem
    · exact absurd hmem hbegun.handler
    · exact absurd hmem hbegun.starter
  have hahead : shown.map Notice.instrumented = ns ++ run.ahead marks coming :=
    hshown.symm.trans (htold.script coming)
  have hevents := htold.events
  have hall (ds : List Notice) : startNote run.clientPath run.key ::
      transcript run.clientPath (fun _ => []) (ns ++ ds) = sent ++ eventsOf run.thread ++
        transcript run.clientPath (holdsAfter (fun _ => []) ns) ds := by
    rw [transcript_append, hevents]
    rfl
  refine ⟨?_, fun _ hrest hnone => ?_, fun hphase hthread => ?_⟩
  · rw [Run.messages, hahead, hall, List.append_assoc, List.map_append]
    exact List.prefix_append _ _
  · have hend : eventsOf run.thread = [] ∧ run.ahead marks coming = [] := by
      rcases hpath.parked_of_blocked hr hrest (fun d hmem => htold.fits hmem) hnone with
        hthread | ⟨hthread, hwait⟩
      · simp [Run.ahead, hthread, eventsOf, lastOwn?]
      · rw [hrest] at herrand
        cases herrand with
        | free _ hcount =>
          rw [Rendezvous.permits_of_wait?_none hwait] at hcount
          obtain rfl : coming = [] := List.length_eq_zero_iff.1 (by simpa using hcount.symm)
          simp only [Run.ahead, hthread, eventsOf_thread, lastOwn?_thread]
          exact ⟨rfl, by cases hrest : run.rest <;> simp [lastOwn?, ThreadDuty.ahead, hrest]⟩
    rw [Run.messages, hahead, hend.2, List.append_nil, ← hevents, hend.1, List.append_nil]
  · have hns : ns <+: shown.map Notice.instrumented := ⟨_, hahead.symm⟩
    obtain ⟨told, reason, stmt, vars, hupto, rfl, hframes⟩ :=
      (htold.stop (by simp [hthread])).of_instrumented (by simp [hthread]) hns
    refine ⟨told, reason, stmt, vars, hupto, ?_, hframes⟩
    rw [Run.messages, ← hevents, hthread]
    simp [eventsOf]

/-- Breakpoints are requested for a source, and a run of its script starts after that, which was
compiled from `text`. A line carries the last breakpoint that was requested for it. From then on
only requests to let it go on come, each at a stop. Whoever takes which step, the run sends the
messages for what the reference debugger shows for the text, its breakpoints and these commands, in
this order : it never sends anything else, it has sent all of them once it cannot go on, and when it
waits at a stop it has sent all up to this stop and shows the line that its statement has in the
text. -/
theorem shows_reference {b : Backend} {es₀ es₁ es : List (State × Party)} {s₀ t₀ s t : State}
    {r : RunId} {run : Run} {cs : List Resumption} {request : Request}
    {args : Protocol.BreakpointArguments} {text : String} {program : Script.Program}
    (hengine : b.engine = {}) (h₀ : State.Path b {} es₀ s₀)
    (hs₀ : s₀.handler = [.session (.replaceBreakpoints request args)])
    (hstep : s₀.advance? b .handler = some t₀) (h₁ : State.Path b t₀ es₁ s)
    (hes : ∀ e ∈ es₁, ∀ d ∈ (e.1.agenda e.2).head?, d.rewrites = false)
    (hawaits : s.Awaits r run)
    (hreaches : s₀.registry.reaches (SourceKey.normalize (args.source.path.getD "")) run.key)
    (hparse : Script.Program.parse text = .ok program)
    (hlines : (Text.lines text).length < 0xFFFFFFFE)
    (hcompile : b.engine.compile text = some (.ok run.rest)) (h : s.Course b r cs es t) :
    ∃ run', t.runs[r]? = some run' ∧
      let shown := debug (Registry.mark? args.requested) program false cs run.vars
      sentBy b r es <+: run.messages shown ∧
      (run'.Begun r t.handler → t.handler = [] → t.advance? b (.thread r) = none →
        sentBy b r es = run.messages shown) ∧
      (run'.phase = .paused → run'.thread = [.thread r .park] → ∃ told reason stmt vars,
        told ++ [.stop reason stmt vars] <+: shown ∧
        sentBy b r es = run.messages (told ++ [.stop reason stmt vars]) ∧
        run'.snapshot.frames.map StackFrame.line = [stmt.line]) := by
  have horder₀ := h₀.orderly State.orderly_empty
  have hpath₀ := h₀.step hstep
  have hpath := hpath₀.trans h₁
  have hst := horder₀.stride hstep
  obtain ⟨hregistry, hpromises⟩ := h₁.promises (hpath₀.orderly State.orderly_empty)
    (hpath₀.tidy State.orderly_empty State.tidy_empty) hes (hst.promises hs₀ hreaches)
  obtain ⟨-, hregistry₀, -⟩ := hst.of_replaceBreakpoints hs₀
  have hfollows := hawaits.follows hpath (hpromises r run hawaits.current hawaits.live rfl)
  obtain ⟨run', evs, hfollows', hsent⟩ := h.follows hengine hpath hfollows
  have hshown := debug_of_compile hengine hparse hlines hcompile
    (fun line hline => State.marks_of_replace (hregistry.trans hregistry₀) hreaches hline) cs
    run.vars
  have hresult := hfollows'.sent (h.path hpath) hshown
  have hr := (State.currentRun?_eq_some.1 hawaits.current).2
  have hr' := (State.currentRun?_eq_some.1 hfollows'.current).2
  have hname := (Run.name_stable b r run).of_path (h.path .refl)
    (hpath.orderly State.orderly_empty) (fun _ _ => trivial)
    (fun hnone => by cases hr.symm.trans hnone)
    (fun run₀ hr₀ => by cases hr.symm.trans hr₀; exact ⟨rfl, rfl⟩) hr'
  have hmessages : run'.messages = run.messages := by
    funext ns
    rw [Run.messages, Run.messages, hname.1, hname.2]
  rw [hmessages, ← hsent] at hresult
  obtain ⟨hpart, hall, hstop⟩ := hresult
  refine ⟨run', hr', hpart, hall, fun hphase hthread => ?_⟩
  obtain ⟨told, reason, stmt, vars, hupto, htold, hframes⟩ := hstop hphase hthread
  refine ⟨told, reason, stmt, vars, hupto, htold, ?_⟩
  have hmem : stmt ∈ program := mem_of_stop_mem_debug
    (hupto.subset (List.mem_append_right told (List.mem_singleton.2 rfl)))
  have hlt := (Script.parse_instrument hparse hlines).2 stmt hmem
  have hline := Script.toClientLine_toInstrumentedLine (Nat.lt_succ_of_lt hlt)
  rw [hframes]
  exact congrArg (fun line => [line]) hline

/-- A backend with one script, whose only statement is on its second line. -/
def secondLineBackend : Backend where
  library := .table [("a", ⟨"\nreturn path", "a", {}⟩)]
  crashText := ""

/-- The statement of this script, on a line. -/
def returnPath (line : UInt32) : Script.Statement :=
  ⟨line, 11, .finish ⟨.path "path" [], []⟩⟩

/-- Whether a program is this statement. -/
def isReturnPath (line : UInt32) : Script.Program → Bool
  | [⟨l, w, .finish ⟨.path name [], []⟩⟩] => l == line && w == 11 && name == "path"
  | _ => false

theorem eq_of_isReturnPath {line : UInt32} {p : Script.Program} (h : isReturnPath line p = true) :
    p = [returnPath line] := by
  unfold isReturnPath at h
  split at h
  · simp only [Bool.and_eq_true, beq_iff_eq] at h
    obtain ⟨⟨rfl, rfl⟩, rfl⟩ := h
    rfl
  · cases h

/-- The request for breakpoints that the handler is about to put in the registry. -/
def State.requested? (s : State) : Option (Request × Protocol.BreakpointArguments) :=
  match s.handler with
  | [.session (.replaceBreakpoints request args)] => some (request, args)
  | _ => none

theorem State.handler_of_requested? {s : State} {request : Request}
    {args : Protocol.BreakpointArguments} (h : s.requested? = some (request, args)) :
    s.handler = [.session (.replaceBreakpoints request args)] := by
  unfold requested? at h
  split at h
  · cases h
    assumption
  · cases h

theorem State.Course.walk {b : Backend} {r : RunId} {s t u : State} {cs : List Resumption}
    {es es' : List (State × Party)} {ps : List Party} (h : s.Course b r cs es t)
    (hw : t.walk? b (ps.map .step) = some (es', u)) : s.Course b r cs (es ++ es') u := by
  induction ps generalizing es t es' with
  | nil =>
    cases hw
    simpa using h
  | cons p ps ih =>
    obtain ⟨t', hp, hw⟩ := Option.bind_eq_some_iff.1 hw
    obtain ⟨w, hrest, heq⟩ := Option.map_eq_some_iff.1 hw
    obtain ⟨rfl, rfl⟩ := Prod.mk.inj heq
    simpa using ih (h.step hp) hrest

/-- The current run, if it is run 0, is about to start and executes the statement of the script. -/
def State.ready? (s : State) : Option Run :=
  match s.currentRun? with
  | some (0, run) =>
    if run.isLive && !run.context.isClosed && !run.terminated && !run.started &&
      s.handler.isEmpty && isReturnPath 3 run.rest then some run else none
  | _ => none

theorem State.awaits_of_ready? {s : State} {run : Run} (h : s.ready? = some run) :
    s.Awaits 0 run ∧ run.rest = [returnPath 3] := by
  unfold ready? at h
  split at h
  next run' hcurrent =>
    split at h <;> cases h
    next hready =>
      simp only [Bool.and_eq_true, Bool.not_eq_true', List.isEmpty_iff] at hready
      obtain ⟨⟨⟨⟨⟨hlive, hopened⟩, hterminated⟩, hstarted⟩, hhandler⟩, hrest⟩ := hready
      exact ⟨⟨hcurrent, hlive, hopened, hterminated, hstarted, by simp [hhandler]⟩,
        eq_of_isReturnPath hrest⟩
  · cases h

open State (asked taken) in
/-- The script is launched after its breakpoints came. -/
def openSecondLine : List State.Turn :=
  taken 2 .handler ++ asked "launch" (.object [("path", .string "a")]) :: taken 6 .handler

/-- Who takes steps until the script stops. -/
def toStop : List Party :=
  List.replicate 8 (.starter 0) ++ List.replicate 18 (.thread 0)

/-- Who takes steps from a request to go on until the script is over. -/
def toEnd : List Party :=
  List.replicate 6 .handler ++ List.replicate 8 (.thread 0)

/-- A request to stop at the next statement. -/
def stepRequest : Request :=
  ⟨1, "request", "next", .null⟩

/-- Whether run 0 has begun and cannot go on. -/
def State.isOver (s : State) : Bool :=
  s.handler.isEmpty && (s.advance? secondLineBackend (.thread 0)).isNone &&
    s.runs[0]?.any fun run => run.started && run.starter.isEmpty

/-- A script that has a breakpoint on its second line stops there, and is told to go on to the next
statement. -/
theorem shows_reference_stepOnce : ∃ (s t : State) (run : Run) (es : List (State × Party)),
    s.Awaits 0 run ∧ s.Course secondLineBackend 0 [.stepOver] es t ∧
      (sentBy secondLineBackend 0 es).length = 5 ∧
      sentBy secondLineBackend 0 es = run.messages
        (debug (Registry.mark? [{ line := 2 }]) [returnPath 2] false [.stepOver] run.vars) := by
  have hwalk : (({} : State).walk? secondLineBackend (setLine "a.ms" 2)).any (fun w =>
      w.2.requested?.any fun q => q.2.requested == [{ line := 2 }] &&
        SourceKey.normalize (q.2.source.path.getD "") == "a.ms" &&
        (w.2.advance? secondLineBackend .handler).any fun t =>
          (t.walk? secondLineBackend openSecondLine).any fun w =>
            w.1.all (fun e => ((e.1.agenda e.2).head?).all fun d => !d.rewrites) &&
              (w.2.ready?.any fun run => run.key == "a.ms") &&
              (w.2.walk? secondLineBackend (toStop.map .step)).any fun w₁ =>
                w₁.2.handler.isEmpty &&
                  (w₁.2.currentRun?.any fun c => c.1 == 0 && c.2.phase == .paused) &&
                  ((w₁.2.accept (.request stepRequest)).walk? secondLineBackend
                    (toEnd.map .step)).any fun w₂ =>
                      w₂.2.isOver && (sentBy secondLineBackend 0 (w₁.1 ++ w₂.1)).length == 5) =
      true := by
    decide +kernel
  obtain ⟨⟨es₀, s₀⟩, hw₀, hfacts⟩ := (Option.any_eq_true ..).1 hwalk
  obtain ⟨⟨request, args⟩, hrequested, hfacts⟩ := (Option.any_eq_true ..).1 hfacts
  simp only [Bool.and_eq_true, beq_iff_eq] at hfacts
  obtain ⟨⟨hlines, hpath⟩, hfacts⟩ := hfacts
  obtain ⟨t₀, hstep, hfacts⟩ := (Option.any_eq_true ..).1 hfacts
  obtain ⟨⟨es₁, s⟩, hw₁, hfacts⟩ := (Option.any_eq_true ..).1 hfacts
  simp only [Bool.and_eq_true] at hfacts
  obtain ⟨⟨hes, hready⟩, hfacts⟩ := hfacts
  obtain ⟨run, hready, hkey⟩ := (Option.any_eq_true ..).1 hready
  obtain ⟨⟨es₂, t⟩, hw₂, hfacts⟩ := (Option.any_eq_true ..).1 hfacts
  simp only [Bool.and_eq_true, List.isEmpty_iff] at hfacts
  obtain ⟨⟨hrest, hpaused⟩, hfacts⟩ := hfacts
  obtain ⟨⟨r, run₂⟩, hr₂, hpaused⟩ := (Option.any_eq_true ..).1 hpaused
  simp only [Bool.and_eq_true, beq_iff_eq] at hpaused
  obtain ⟨rfl, hpaused⟩ := hpaused
  obtain ⟨⟨es₃, u⟩, hw₃, hfacts⟩ := (Option.any_eq_true ..).1 hfacts
  simp only [State.isOver, Bool.and_eq_true, beq_iff_eq, List.isEmpty_iff,
    Option.isNone_iff_eq_none] at hfacts
  obtain ⟨⟨⟨hend, hblocked⟩, hbegun⟩, hlength⟩ := hfacts
  obtain ⟨hawaits, hprogram⟩ := State.awaits_of_ready? hready
  have hes' : ∀ e ∈ es₁, ∀ d ∈ (e.1.agenda e.2).head?, d.rewrites = false := by
    intro e he d hd
    have hall := (List.all_eq_true.1 hes) e he
    simpa [Option.mem_def.1 hd] using hall
  have hparse : Script.Program.parse "\nreturn path" = .ok [returnPath 2] := by
    have h : (Script.Program.parse "\nreturn path").toOption.any (isReturnPath 2) = true := by
      decide +kernel
    cases hp : Script.Program.parse "\nreturn path" with
    | error e => simp [hp, Except.toOption] at h
    | ok p =>
      have h : isReturnPath 2 p = true := by simpa [hp, Except.toOption] using h
      rw [eq_of_isReturnPath h]
  have hcompile : secondLineBackend.engine.compile "\nreturn path" = some (.ok run.rest) := by
    have hinstrumented := (Script.parse_instrument hparse (by decide)).1
    simp only [secondLineBackend, Engine.compile, hinstrumented, hprogram]
    rfl
  obtain ⟨args', hargs⟩ : ∃ args', Protocol.decodeArguments stepRequest.command
      Protocol.ThreadArguments.shape.decode stepRequest.arguments = .ok args' := ⟨_, rfl⟩
  have hname : Protocol.Command.ofName? stepRequest.command = some (.resume .stepOver) := by decide
  have hcourse := ((State.Course.refl.walk hw₂).resume hrest hr₂ hpaused hname hargs).walk hw₃
  obtain ⟨run', hr', -, hall, -⟩ := shows_reference rfl (State.Path.refl.walk hw₀)
    (State.handler_of_requested? hrequested) hstep (State.Path.refl.walk hw₁) hes' hawaits
    (.inl ((beq_iff_eq.1 hkey).trans hpath.symm)) hparse (by decide) hcompile hcourse
  rw [hr'] at hbegun
  have hbegun : run'.Begun 0 u.handler := by
    simp only [Option.any_some, Bool.and_eq_true, List.isEmpty_iff] at hbegun
    exact ⟨hbegun.1, by simp [hend], by simp [hbegun.2]⟩
  have hshown := hall hbegun hend hblocked
  rw [hlines] at hshown
  exact ⟨s, u, run, _, hawaits, hcourse, by simpa using hlength, by simpa using hshown⟩

end DebugAdapter.Session
