import DebugAdapter.Proofs.Breakpoints.Apart
import DebugAdapter.Proofs.Session.Debugger
import DebugAdapter.Proofs.Session.Refused
/-!
# Breakpoints of one script and runs of another

A request for breakpoints changes the registry and is passed on to the current run if it is for its
script. A step after that asks for one key at most (`State.keyFor?`), so what happens while only
keys are asked for where nothing of the source is kept would have happened as well if the handler
had only answered (`State.onlyAnswered`). The two sessions stay alike, `State.AlikeBut`, and only
the step that passes the request on has no counterpart. Main statement :
`requests_leave_others_alone`.
-/

namespace DebugAdapter.Session

open Protocol (BreakpointArguments LaunchArguments Outgoing Request Response)
open Registry (AgreeBut Apart KeptUnder LeavesAlone)
open SourceKey (normalize)

/-! ## Keys that are asked for -/

/-- The key of the script that a launch is for, if there is such a script. -/
def Backend.launchKey? (b : Backend) (args : LaunchArguments) : Option String :=
  match args.scriptId?.map b.library.resolve with
  | some (.ok (some script)) => some (normalize (script.name ++ Script.scriptExtension))
  | _ => none

namespace State

/-- The key that a duty asks the registry for, or compares with the key of a request. -/
def keyFor? (b : Backend) (s : State) : Duty → Option String
  | .session (.openRun _ args) => b.launchKey? args
  | .session (.passOn _ _) => s.currentRun?.map fun c => c.2.key
  | .starter r (.lookEntry _) | .thread r .readTemplate => (s.runs[r]?).map Run.key
  | _ => none

/-- The session with another registry, whose handler has other things to do. -/
def recast (s : State) (registry : Registry) (handler : List Duty) : State :=
  { s with registry, handler }

/-- The session once the handler only answers a request for breakpoints. Nothing is put in the
registry, but the ids are counted. -/
def onlyAnswered (s : State) (request : Request) (args : BreakpointArguments) (ds : List Duty) :
    State :=
  s.recast { s.registry with nextId := s.registry.nextId + args.requested.length }
    (.session (.send (Response.ok request (some (breakpointsBody
      (s.registry.replace args.source args.requested).1.breakpoints)))) :: ds)

/-- Whether two sessions are the same, except for what the registry keeps for a source, and for a
request that the first has still to pass on, where the other has only to send the answer : no script
that is kept apart from the source is meant by it. -/
inductive AlikeBut (source : Source) (s : State) : State → Prop where
  | agree {registry : Registry} (h : AgreeBut source s.registry registry) :
      AlikeBut source s (s.recast registry s.handler)
  | answering {registry : Registry} {replaced : Replaced} {m : Outgoing} {ds : List Duty}
      (h : AgreeBut source s.registry registry)
      (hs : s.handler = .session (.passOn replaced m) :: ds)
      (hreplaced : ∀ key, Apart source key → replaced.matches key = false) :
      AlikeBut source s (s.recast registry (.session (.send m) :: ds))

end State

/-! ## Duties that find the same -/

section Duties

variable {b : Backend} {s u : State} {source : Source} {registry : Registry} {hs next : List Duty}

/-- A step on a run does the same to sessions that are alike, if it depends on the run alone. -/
theorem State.onRun_recast (h : AgreeBut source s.registry registry) {r : RunId}
    {step step' : Run → Option Done} (hd : s.onRun r step = some (u, next))
    (hstep : ∀ run, s.runs[r]? = some run → step' run = step run) :
    ∃ registry', AgreeBut source u.registry registry' ∧
      (s.recast registry hs).onRun r step' = some (u.recast registry' hs, next) := by
  obtain ⟨run, done, hr, hdone, heq⟩ := exists_of_onRun hd
  obtain ⟨rfl, rfl⟩ := Prod.mk.inj heq
  refine ⟨registry, h, ?_⟩
  rw [← hstep run hr] at hdone
  simp [onRun, recast, setRun, send, hr, hdone]

theorem StarterDuty.perform?_recast (h : AgreeBut source s.registry registry) {r : RunId}
    {run : Run} {d : StarterDuty} (hr : s.runs[r]? = some run)
    (hkey : ∀ key ∈ s.keyFor? b (.starter r d), Apart source key) :
    d.perform? b (s.recast registry hs) r run = d.perform? b s r run := by
  cases d with
  | lookEntry deadline =>
    have hlookup := h.lookup_eq (hkey run.key (by simp [State.keyFor?, hr]))
    simp only [perform?, State.recast, Registry.hasEntry, hlookup]
    rfl
  | _ => rfl

theorem ThreadDuty.perform?_recast (h : AgreeBut source s.registry registry) {r : RunId}
    {run : Run} {d : ThreadDuty} (hr : s.runs[r]? = some run)
    (hkey : ∀ key ∈ s.keyFor? b (.thread r d), Apart source key) :
    d.perform? b (s.recast registry hs) r run = d.perform? b s r run := by
  unfold perform?
  cases d with
  | readTemplate =>
    have hlookup := h.lookup_eq (hkey run.key (by simp [State.keyFor?, hr]))
    simp only [performAt?, State.recast, Registry.get?, hlookup]
    rfl
  | _ => rfl

theorem State.prepare_recast (h : AgreeBut source s.registry registry) (request : Request)
    {args : LaunchArguments} (hkey : ∀ key ∈ b.launchKey? args, Apart source key) :
    (s.recast registry hs).prepare b request args =
      ((s.prepare b request args).1.recast registry hs, (s.prepare b request args).2) := by
  unfold prepare
  split
  · rfl
  next id hid =>
    split
    · rfl
    · rfl
    next script hscript =>
      split
      · rfl
      · rfl
      · have hlookup := h.lookup_eq (hkey _ (by simp [Backend.launchKey?, hid, hscript]; rfl))
        simp only [openRun, recast, Registry.lines, hlookup]

theorem State.handle_recast (s : State) (registry : Registry) (hs : List Duty) (request : Request)
    (c : Protocol.Command) : (s.recast registry hs).handle request c =
      ((s.handle request c).1.recast registry hs, (s.handle request c).2) := by
  cases c with
  | launch | restart =>
    simp only [handle, recast]
    split <;> rfl
  | _ => rfl

variable (hs) in
/-- A duty on the session does the same to sessions that are alike. -/
theorem SessionDuty.perform_recast (h : AgreeBut source s.registry registry) (d : SessionDuty)
    (hkey : ∀ key ∈ s.keyFor? b (.session d), Apart source key) :
    ∃ registry', AgreeBut source (d.perform b s).1.registry registry' ∧
      d.perform b (s.recast registry hs) =
        ((d.perform b s).1.recast registry' hs, (d.perform b s).2) := by
  have hsame (hd : (Duty.session d).rewrites = false)
      (heq : d.perform b (s.recast registry hs) =
        ((d.perform b s).1.recast registry hs, (d.perform b s).2)) :
      ∃ registry', AgreeBut source (d.perform b s).1.registry registry' ∧
        d.perform b (s.recast registry hs) =
          ((d.perform b s).1.recast registry' hs, (d.perform b s).2) :=
    ⟨registry, by rwa [registry_of_perform hd], heq⟩
  cases d with
  | handle request =>
    refine hsame rfl ?_
    simp only [perform]
    split
    · exact s.handle_recast registry hs request _
    · rfl
  | reportTermination =>
    refine hsame rfl ?_
    cases hsaid : s.terminatedWithoutRun <;> simp [perform, State.recast, State.send, hsaid]
  | openRun request args => exact hsame rfl (State.prepare_recast h request hkey)
  | replaceBreakpoints request args =>
    refine ⟨_, h.replace args.source args.requested, ?_⟩
    simp only [State.perform_replaceBreakpoints, h.replaced_eq]
    rfl
  | clearRegistry => exact ⟨_, h.clear, rfl⟩
  | send | passOn | shutdown => exact hsame rfl rfl

variable (hs) in
/-- A duty does the same to sessions that are alike, as long as it asks for no key under which they
may differ. -/
theorem Duty.perform?_recast (h : AgreeBut source s.registry registry) {d : Duty}
    (hkey : ∀ key ∈ s.keyFor? b d, Apart source key) (hd : d.perform? b s = some (u, next)) :
    ∃ registry', AgreeBut source u.registry registry' ∧
      d.perform? b (s.recast registry hs) = some (u.recast registry' hs, next) := by
  cases d with
  | session d =>
    obtain ⟨registry', hagree, heq⟩ := d.perform_recast hs h hkey
    obtain rfl : (d.perform b s).1 = u := congrArg Prod.fst (Option.some.inj hd)
    obtain rfl : (d.perform b s).2 = next := congrArg Prod.snd (Option.some.inj hd)
    exact ⟨registry', hagree, congrArg some heq⟩
  | run | request => exact State.onRun_recast h hd fun _ _ => rfl
  | starter r d => exact State.onRun_recast h hd fun _ hr => d.perform?_recast h hr hkey
  | thread r d => exact State.onRun_recast h hd fun _ hr => d.perform?_recast h hr hkey

/-- No duty waits for the registry or the handler. -/
theorem Duty.perform?_eq_none_recast (b : Backend) (s : State) (registry : Registry)
    (hs : List Duty) (d : Duty) :
    d.perform? b (s.recast registry hs) = none ↔ d.perform? b s = none := by
  have honRun {r : RunId} {step step' : Run → Option Done}
      (hstep : ∀ run, step' run = none ↔ step run = none) :
      (s.recast registry hs).onRun r step' = none ↔ s.onRun r step = none := by
    have hruns : (s.recast registry hs).runs = s.runs := rfl
    unfold State.onRun
    rw [hruns]
    cases s.runs[r]? with
    | none => simp
    | some run => simp [hstep]
  cases d with
  | session d => simp [perform?]
  | run r d | request r d => exact honRun fun _ => Iff.rfl
  | starter r d =>
    refine honRun fun run => ?_
    cases d with
    | lookEntry deadline => simp [StarterDuty.perform?]
    | _ => exact Iff.rfl
  | thread r d =>
    refine honRun fun run => ?_
    unfold ThreadDuty.perform?
    cases d with
    | readTemplate =>
      cases run.rest with
      | nil => exact Iff.rfl
      | cons stmt rest => simp [ThreadDuty.performAt?]
    | _ => exact Iff.rfl

end Duties

/-! ## Sessions that stay alike -/

namespace State

variable {b : Backend} {s t : State} {source : Source} {registry : Registry} {p : Party}

theorem map_key_setAgenda (s : State) (p : Party) (ds : List Duty) (r : RunId) :
    ((s.setAgenda p ds).runs[r]?).map Run.key = (s.runs[r]?).map Run.key := by
  cases p with
  | handler => rfl
  | starter r' | thread r' =>
    simp only [setAgenda, List.getElem?_modify]
    cases s.runs[r]? with
    | none => rfl
    | some run =>
      by_cases heq : r' = r
      · subst heq
        simp
      · simp [heq]

theorem keyFor?_setAgenda (b : Backend) (s : State) (p : Party) (ds : List Duty) (d : Duty) :
    (s.setAgenda p ds).keyFor? b d = s.keyFor? b d := by
  have hcurrent : ((s.setAgenda p ds).currentRun?).map (fun c => c.2.key) =
      s.currentRun?.map fun c => c.2.key := by
    have heq : (s.setAgenda p ds).current = s.current := by cases p <;> rfl
    cases hr : s.current with
    | none => simp [currentRun?, heq, hr]
    | some r => simpa [currentRun?, heq, hr, Function.comp_def] using s.map_key_setAgenda p ds r
  cases d with
  | session d => cases d <;> first | exact hcurrent | rfl
  | starter r d => cases d <;> first | exact s.map_key_setAgenda p ds r | rfl
  | thread r d => cases d <;> first | exact s.map_key_setAgenda p ds r | rfl
  | _ => rfl

/-- The handler takes the same step in sessions that are alike. -/
theorem advance?_handler_recast (h : AgreeBut source s.registry registry)
    (hkey : ∀ d ∈ s.handler.head?, ∀ key ∈ s.keyFor? b d, Apart source key)
    (hp : s.advance? b .handler = some t) : ∃ registry', AgreeBut source t.registry registry' ∧
      (s.recast registry s.handler).advance? b .handler = some (t.recast registry' t.handler) := by
  obtain ⟨d, ds, u, next, hs, hd, rfl⟩ := exists_of_handler_step hp
  have hkey := hkey d (by simp [hs])
  rw [← keyFor?_setAgenda b s .handler ds] at hkey
  obtain ⟨registry', hagree, heq⟩ := Duty.perform?_recast ds
    (show AgreeBut source (s.setAgenda .handler ds).registry registry from h) hkey hd
  refine ⟨registry', hagree, ?_⟩
  have hset : (s.recast registry s.handler).setAgenda .handler ds =
      (s.setAgenda .handler ds).recast registry ds := rfl
  have hagenda : (s.recast registry s.handler).agenda .handler = d :: ds := hs
  simp only [advance?, hagenda, hset, heq, Option.map_some]
  rfl

/-- Another party takes the same step in sessions that are alike, whatever their handlers do. -/
theorem advance?_recast (h : AgreeBut source s.registry registry) (hne : p ≠ .handler)
    (hkey : ∀ d ∈ (s.agenda p).head?, ∀ key ∈ s.keyFor? b d, Apart source key)
    (hp : s.advance? b p = some t) (hs : List Duty) :
    ∃ registry', AgreeBut source t.registry registry' ∧
      (s.recast registry hs).advance? b p = some (t.recast registry' hs) := by
  unfold advance? at hp
  split at hp
  · cases hp
  next d ds hagenda =>
  obtain ⟨⟨u, next⟩, hd, rfl⟩ := Option.map_eq_some_iff.1 hp
  have hkey := hkey d (by simp [hagenda])
  rw [← keyFor?_setAgenda b s p ds] at hkey
  have hregistry : (s.setAgenda p ds).registry = s.registry := by cases p <;> rfl
  obtain ⟨registry', hagree, heq⟩ := Duty.perform?_recast hs (hregistry ▸ h) hkey hd
  have hagenda' : (s.recast registry hs).agenda p = d :: ds := by
    cases p <;> first | exact absurd rfl hne | exact hagenda
  have hset : (s.recast registry hs).setAgenda p ds =
      (s.setAgenda p ds).recast registry hs := by
    cases p <;> first | exact absurd rfl hne | rfl
  refine ⟨registry', ?_, ?_⟩
  · cases p <;> exact hagree
  · simp only [advance?, hagenda', hset, heq, Option.map_some]
    cases p <;> first | exact absurd rfl hne | rfl

/-- Only the handler changes what it has to do. -/
theorem handler_of_advance? (hne : p ≠ .handler) (hp : s.advance? b p = some t) :
    t.handler = s.handler := by
  unfold advance? at hp
  split at hp
  · cases hp
  obtain ⟨⟨u, next⟩, hd, rfl⟩ := Option.map_eq_some_iff.1 hp
  have hu := Duty.handler_perform? hd
  cases p <;> first | exact absurd rfl hne | exact hu

/-- What no current run is for is not passed on. -/
theorem passOn_eq_send {replaced : Replaced} (m : Outgoing)
    (h : ∀ c ∈ s.currentRun?, replaced.matches c.2.key = false) :
    s.passOn replaced m = [.session (.send m)] := by
  unfold passOn
  split
  next r run hr => simp [h (r, run) hr]
  · rfl

/-- Sessions that are alike stay so by a step of any party, or by the step that passes a request on,
which only one of them takes. -/
theorem AlikeBut.step {s' : State} (h : s.AlikeBut source s')
    (hkey : ∀ d ∈ (s.agenda p).head?, ∀ key ∈ s.keyFor? b d, Apart source key)
    (hp : s.advance? b p = some t) :
    (∃ t', s'.advance? b p = some t' ∧ t.AlikeBut source t') ∨
      p = .handler ∧ t.AlikeBut source s' := by
  cases h with
  | @agree registry h =>
    refine .inl ?_
    by_cases hhandler : p = .handler
    · subst hhandler
      obtain ⟨registry', hagree, heq⟩ := advance?_handler_recast h hkey hp
      exact ⟨_, heq, .agree hagree⟩
    · obtain ⟨registry', hagree, heq⟩ := advance?_recast h hhandler hkey hp s.handler
      refine ⟨_, heq, ?_⟩
      rw [← handler_of_advance? hhandler hp]
      exact .agree hagree
  | @answering registry replaced m ds h hs hreplaced =>
    by_cases hhandler : p = .handler
    · subst hhandler
      obtain ⟨d, ds', u, next, hs', hd, rfl⟩ := exists_of_handler_step hp
      obtain ⟨rfl, rfl⟩ := List.cons.inj (hs.symm.trans hs')
      obtain ⟨rfl, rfl⟩ := Prod.mk.inj (Option.some.inj hd)
      have hkey := hkey (.session (.passOn replaced m)) (by simp [agenda, hs])
      have hsend : State.passOn { s with handler := ds } replaced m = [.session (.send m)] :=
        passOn_eq_send m fun c hc =>
          hreplaced c.2.key (hkey c.2.key (Option.mem_map_of_mem (fun c => c.2.key) hc))
      refine .inr ⟨rfl, ?_⟩
      rw [hsend]
      exact .agree h
    · refine .inl ?_
      obtain ⟨registry', hagree, heq⟩ := advance?_recast h hhandler hkey hp _
      refine ⟨_, heq, .answering hagree ?_ hreplaced⟩
      rw [handler_of_advance? hhandler hp, hs]

theorem AlikeBut.accept {s' : State} (h : s.AlikeBut source s') {i : Input} (hi : s.Admits i) :
    s'.Admits i ∧ (s.accept i).AlikeBut source (s'.accept i) := by
  cases h with
  | agree h => cases i <;> exact ⟨hi, .agree h⟩
  | answering h hs hreplaced =>
    cases i with
    | request | hangUp =>
      have hnil : s.handler = [] := hi
      cases hnil.symm.trans hs
    | _ => exact ⟨trivial, .answering h hs hreplaced⟩

theorem AlikeBut.setRun {s' : State} (h : s.AlikeBut source s') (r : RunId) (run : Run) :
    (s.setRun r run).AlikeBut source (s'.setRun r run) := by
  cases h with
  | agree h => exact .agree h
  | answering h hs hreplaced => exact .answering h hs hreplaced

theorem advance?_eq_none_iff : s.advance? b p = none ↔
    ∀ d ds, s.agenda p = d :: ds → d.perform? b (s.setAgenda p ds) = none := by
  unfold advance?
  cases s.agenda p <;> simp

theorem advance?_eq_none_recast {hs : List Duty}
    (hagenda : (s.recast registry hs).agenda p = s.agenda p) :
    (s.recast registry hs).advance? b p = none ↔ s.advance? b p = none := by
  simp only [advance?_eq_none_iff, hagenda]
  refine forall_congr' fun d => forall_congr' fun ds => imp_congr_right fun _ => ?_
  obtain ⟨hs', hset⟩ : ∃ hs', (s.recast registry hs).setAgenda p ds =
      (s.setAgenda p ds).recast registry hs' := by
    cases p <;> exact ⟨_, rfl⟩
  rw [hset]
  exact Duty.perform?_eq_none_recast ..

/-- The same parties can take a step in sessions that are alike. -/
theorem AlikeBut.blocked_iff {s' : State} (h : s.AlikeBut source s') (b : Backend) (p : Party) :
    s'.advance? b p = none ↔ s.advance? b p = none := by
  cases h with
  | agree => exact advance?_eq_none_recast (by cases p <;> rfl)
  | answering h hs =>
    cases p with
    | handler => simp [advance?, agenda, recast, hs, Duty.perform?]
    | _ => exact advance?_eq_none_recast rfl

theorem AlikeBut.runs_eq {s' : State} (h : s.AlikeBut source s') : s'.runs = s.runs := by
  cases h <;> rfl

/-- The starters and threads that took the steps of a path. -/
def workers (es : List (State × Party)) : List Party :=
  (es.map Prod.snd).filter (· ≠ .handler)

theorem workers_append (es es' : List (State × Party)) :
    workers (es ++ es') = workers es ++ workers es' := by
  simp [workers]

/-- Sessions that are alike go on alike, as long as no step asks for a key under which they may
differ : all parties but the handler take the same steps. -/
theorem Path.alike {s' : State} {es : List (State × Party)} (h : Path b s es t)
    (hs : s.AlikeBut source s')
    (hes : ∀ e ∈ es, ∀ d ∈ (e.1.agenda e.2).head?, ∀ key ∈ e.1.keyFor? b d, Apart source key) :
    ∃ es' t', Path b s' es' t' ∧ t.AlikeBut source t' ∧ workers es' = workers es := by
  induction h with
  | refl => exact ⟨[], s', .refl, hs, rfl⟩
  | @step es t u p _ hp ih =>
    obtain ⟨es', t', hpath, ht, hworkers⟩ := ih fun e he => hes e (by simp [he])
    rcases ht.step (hes (t, p) (by simp)) hp with ⟨u', hp', hu⟩ | ⟨rfl, hu⟩
    · refine ⟨_, u', hpath.step hp', hu, ?_⟩
      rw [workers_append, workers_append, hworkers]
      rfl
    · refine ⟨es', t', hpath, hu, ?_⟩
      rw [workers_append, hworkers]
      exact (List.append_nil _).symm
  | accept i _ hi ih =>
    obtain ⟨es', t', hpath, ht, hworkers⟩ := ih hes
    obtain ⟨hi', halike⟩ := ht.accept hi
    exact ⟨es', _, hpath.accept i hi', halike, hworkers⟩
  | giveUp _ hr hgive ih =>
    obtain ⟨es', t', hpath, ht, hworkers⟩ := ih hes
    exact ⟨es', _, hpath.giveUp (ht.runs_eq ▸ hr) hgive, ht.setRun _ _, hworkers⟩

/-- A session that puts breakpoints in the registry is like one that only answers. -/
theorem alikeBut_onlyAnswered {request : Request} {args : BreakpointArguments} {ds : List Duty}
    (hs : s.handler = .session (.replaceBreakpoints request args) :: ds)
    (hp : s.advance? b .handler = some t) :
    t.AlikeBut args.source (s.onlyAnswered request args ds) := by
  obtain ⟨d, ds', u, next, hs', hd, rfl⟩ := exists_of_handler_step hp
  obtain ⟨rfl, rfl⟩ := List.cons.inj (hs.symm.trans hs')
  have hd : (SessionDuty.replaceBreakpoints request args).perform b { s with handler := ds } =
      (u, next) := Option.some.inj hd
  rw [perform_replaceBreakpoints] at hd
  obtain ⟨rfl, rfl⟩ := Prod.mk.inj hd
  have hagree := Registry.agreeBut_replace s.registry args.source args.requested
  have hmatches (key : String) (hkey : Apart args.source key) :=
    (Registry.leavesAlone_of_apart hkey s.registry args.requested).matches_eq
  unfold onlyAnswered
  generalize s.registry.replace args.source args.requested = x at hagree hmatches ⊢
  exact .answering hagree rfl hmatches

end State

/-! ## Requests for other scripts -/

/-- A request for a source leaves alone what concerns the key of a source that is kept under no
common key : it does not count as one for that, and nothing else is found for that than before.
Whatever happens after the request while no step asks for a key where something of the source is
kept, it can happen as well when the handler has only answered : the threads and the starters take
the same steps, the runs are the same and the same is sent, and the same parties can go on. -/
theorem requests_leave_others_alone (source : Source) :
    (∀ other : Source, (∀ key, KeptUnder source key → ¬KeptUnder other key) →
      ∀ registry requested,
        LeavesAlone registry source requested (normalize (other.path.getD ""))) ∧
    ∀ {b : Backend} {s t u : State} {request : Request} {args : BreakpointArguments}
      {ds : List Duty} {es : List (State × Party)}, args.source = source →
      s.handler = .session (.replaceBreakpoints request args) :: ds →
      s.advance? b .handler = some t → State.Path b t es u →
      (∀ e ∈ es, ∀ d ∈ (e.1.agenda e.2).head?, ∀ key ∈ e.1.keyFor? b d, Apart source key) →
      ∃ es' u', State.Path b (s.onlyAnswered request args ds) es' u' ∧ u.AlikeBut source u' ∧
        State.workers es' = State.workers es ∧
        ∀ p, u'.advance? b p = none ↔ u.advance? b p = none := by
  refine ⟨fun other h => ?_, fun hsource hs hp hpath hes => ?_⟩
  · exact Registry.leavesAlone_of_apart ((Registry.apart_normalize_iff source other).2 h)
  · subst hsource
    obtain ⟨es', u', hpath', halike, hworkers⟩ :=
      hpath.alike (State.alikeBut_onlyAnswered hs hp) hes
    exact ⟨es', u', hpath', halike, hworkers, halike.blocked_iff _⟩

/-- Whether no step of a path asks for a key where something of a source is kept. -/
def asksApart (b : Backend) (source : Source) (es : List (State × Party)) : Bool :=
  es.all fun e => (e.1.agenda e.2).head?.all fun d =>
    (e.1.keyFor? b d).all fun key => decide (Apart source key)

theorem apart_of_asksApart {b : Backend} {source : Source} {es : List (State × Party)}
    (h : asksApart b source es = true) :
    ∀ e ∈ es, ∀ d ∈ (e.1.agenda e.2).head?, ∀ key ∈ e.1.keyFor? b d, Apart source key := by
  intro e he d hd key hkey
  have hall := List.all_eq_true.1 h e he
  rw [Option.mem_def.1 hd, Option.all_some, Option.mem_def.1 hkey, Option.all_some] at hall
  exact of_decide_eq_true hall

/-- A script stops at its breakpoint after breakpoints were requested for another one. It stops
there as well when that request is only answered. -/
theorem requests_leave_others_alone_stopped :
    LeavesAlone {} { path := some "function/b.ms" } [{ line := 1 }] "api/a.ms" ∧
    ∃ (s : State) (request : Request) (args : BreakpointArguments) (es : List (State × Party))
      (u : State), args.source.path = some "function/b.ms" ∧
      State.Path nestedBackend (s.onlyAnswered request args []) es u ∧
      (State.workers es).length = 26 ∧ u.runs.map Run.phase = [.paused] := by
  have hkey : normalize "api/a.ms" = "api/a.ms" := by decide +kernel
  have hapart : Apart { path := some "function/b.ms" } "api/a.ms" := by decide +kernel
  refine ⟨?_, ?_⟩
  · have halone := (requests_leave_others_alone { path := some "function/b.ms" }).1
      { path := some "api/a.ms" } ((Registry.apart_normalize_iff _ _).1 (hkey.symm ▸ hapart)) {}
      [{ line := 1 }]
    exact hkey ▸ halone
  have hwalk : (({} : State).walk? nestedBackend
      (openNested ++ setLine "function/b.ms" 1)).any (fun w =>
        w.2.requested?.any fun q => q.2.source.path == some "function/b.ms" &&
          (w.2.advance? nestedBackend .handler).any fun t =>
            (t.walk? nestedBackend (State.taken 2 .handler ++ toStop.map .step)).any fun w' =>
              asksApart nestedBackend q.2.source w'.1 && (State.workers w'.1).length == 26 &&
                w'.2.runs.map Run.phase == [.paused]) = true := by
    decide +kernel
  obtain ⟨⟨es₀, s⟩, -, hfacts⟩ := (Option.any_eq_true ..).1 hwalk
  obtain ⟨⟨request, args⟩, hrequested, hfacts⟩ := (Option.any_eq_true ..).1 hfacts
  rw [Bool.and_eq_true, beq_iff_eq] at hfacts
  obtain ⟨hpath, hfacts⟩ := hfacts
  obtain ⟨t, hstep, hfacts⟩ := (Option.any_eq_true ..).1 hfacts
  obtain ⟨⟨es, u⟩, hw, hfacts⟩ := (Option.any_eq_true ..).1 hfacts
  simp only [Bool.and_eq_true, beq_iff_eq] at hfacts
  obtain ⟨⟨hasks, hlength⟩, hphase⟩ := hfacts
  obtain ⟨es', u', hpath', halike, hworkers, -⟩ := (requests_leave_others_alone args.source).2 rfl
    (State.handler_of_requested? hrequested) hstep (State.Path.refl.walk hw)
    (apart_of_asksApart hasks)
  exact ⟨s, request, args, es', u', hpath, hpath', hworkers ▸ hlength,
    halike.runs_eq ▸ hphase⟩

end DebugAdapter.Session
