import DebugAdapter.Proofs.Session.Abandoned
import DebugAdapter.Proofs.Session.Gates
import DebugAdapter.Proofs.Session.Unstarted
/-!
# Agendas and phases

What is to be done on the way of a run to its thread is `Run.Readied`, and how the agendas of all
parties fit the phase of a run is `Run.Staged`. They fit in every state that a session can get into
(`State.Reachable.staged`). This is not so on every path: whoever gives up a run may do so with its
gate open, and a thread that finds its run live would then mark it as paused after it was over.
-/

namespace DebugAdapter.Session

variable {b : Backend} {s t : State} {p : Party} {r : RunId} {run run' : Run} {done : Done}
  {hs hs' ds : List Duty}

/-! ## On the way to the thread -/

/-- Whether the thread of a run in this phase may be at work. -/
def Phase.isUnderWay : Phase → Bool
  | launching | awaitingBreakpoints => false
  | running | paused | terminated => true

/-- Whether a duty readies run `r` for its thread. -/
def Duty.readies (r : RunId) : Duty → Bool
  | .run r' (.setPhase .awaitingBreakpoints) | .run r' (.setPhase .running) | .run r' .claimStart
  | .run r' .spawn => r' == r
  | _ => false

/-- What the handler has to do when it readies run `r` for its thread, and what phase the run is in
meanwhile. -/
inductive Run.Readied (r : RunId) (run : Run) : List Duty → Prop where
  | opened (e : Protocol.Event) (d : SessionDuty) (hphase : run.phase = .launching) :
      Readied r run [.run r (.emit e), .run r (.setPhase .awaitingBreakpoints), .run r .schedule,
        .session d]
  | awaiting (d : SessionDuty) (hphase : run.phase = .launching) :
      Readied r run [.run r (.setPhase .awaitingBreakpoints), .run r .schedule, .session d]
  | claim (hphase : run.phase ≠ .launching) (hlive : run.isLive = true) :
      Readied r run [.run r .claimStart]
  | cancel (hphase : run.phase = .awaitingBreakpoints) :
      Readied r run [.run r .cancel, .run r (.setPhase .running), .run r .spawn]
  | running (hphase : run.phase = .awaitingBreakpoints) :
      Readied r run [.run r (.setPhase .running), .run r .spawn]
  | spawn (hphase : run.phase.isUnderWay = true) : Readied r run [.run r .spawn]
  | other {hs : List Duty} (hphase : run.phase ≠ .launching)
      (hother : ∀ d ∈ hs, d.readies r = false) : Readied r run hs

/-- Whether the agendas fit the phase of run `r`. -/
structure Run.Staged (r : RunId) (hs : List Duty) (run : Run) : Prop where
  readied : run.Readied r hs
  starter : .run r (.setPhase .running) ∈ run.starter →
    run.phase = .awaitingBreakpoints ∨ run.phase = .terminated
  spawning : run.starter = [.run r .spawn] → run.phase.isUnderWay = true
  working : run.thread ≠ [] → run.phase.isUnderWay = true
  /-- A thread that found its run live under the lock is not over. -/
  locked : ∀ d, .thread r d ∈ run.thread → d.isLocked = true → d ≠ .checkLive →
    run.phase ≠ .terminated
  /-- A run that is over was abandoned, or its thread is done. -/
  ended : run.phase = .terminated →
    run.Abandoned ∨ run.Begun r hs ∧ ∀ d, .thread r d ∉ run.thread
  gate : GateFirst r run.isLive hs

theorem Phase.ne_launching {phase : Phase} (h : phase.isUnderWay = true) : phase ≠ .launching := by
  rintro rfl
  cases h

theorem Duty.readies_of_subject {d : Duty} (h : d.subject? ≠ some r) : d.readies r = false := by
  cases d with
  | run r' d =>
    have hne : r' ≠ r := fun heq => h (by rw [heq]; rfl)
    cases d with
    | setPhase phase => cases phase <;> simp [readies, hne]
    | _ => simp [readies, hne]
  | _ => rfl

theorem Duty.readies_of_isAside {d : Duty} (h : d.isAside = true) : d.readies r = false := by
  cases d with
  | run r' d => cases h
  | _ => rfl

theorem Duty.Assigned.readies {n : Nat} {d : Duty} (h : d.Assigned n r) (hold : r < n) :
    d.readies r = false := by
  cases h with
  | opening hnew => exact absurd hnew (Nat.ne_of_lt hold)
  | giveUp hd =>
    simp only [abandon, List.mem_cons, List.not_mem_nil, or_false] at hd
    rcases hd with rfl | rfl | rfl | rfl <;> rfl
  | _ => rfl

/-- A handler that has something else to do first readies no run. -/
theorem Run.Readied.of_head {d : Duty} (h : run.Readied r (d :: ds))
    (hd : ∀ d', d ≠ .run r d') :
    run.phase ≠ .launching ∧ ∀ e ∈ ds, e.readies r = false := by
  cases h with
  | other hphase hother => exact ⟨hphase, fun e he => hother e (by simp [he])⟩
  | _ => exact absurd rfl (hd _)

theorem Run.Readied.of_eq (h : run.Readied r hs) (hphase : run'.phase = run.phase)
    (hlive : run'.isLive = run.isLive) : run'.Readied r hs := by
  cases h with
  | opened e d h => exact .opened e d (hphase.trans h)
  | awaiting d h => exact .awaiting d (hphase.trans h)
  | claim h h' => exact .claim (hphase ▸ h) (hlive.trans h')
  | cancel h => exact .cancel (hphase.trans h)
  | running h => exact .running (hphase.trans h)
  | spawn h => exact .spawn (hphase ▸ h)
  | other h hother => exact .other (hphase ▸ h) hother

/-- The phase may change among those in which the thread may be at work. -/
theorem Run.Readied.of_isUnderWay (h : run.Readied r hs) (hphase : run.phase.isUnderWay = true)
    (hphase' : run'.phase.isUnderWay = true) (hlive : run'.isLive = run.isLive) :
    run'.Readied r hs := by
  cases h with
  | opened _ _ heq | awaiting _ heq | cancel heq | running heq =>
    rw [heq] at hphase
    cases hphase
  | claim _ h => exact .claim (Phase.ne_launching hphase') (hlive.trans h)
  | spawn => exact .spawn hphase'
  | other _ hother => exact .other (Phase.ne_launching hphase') hother

theorem Run.Readied.ne_launching (h : run.Readied r hs)
    (hother : ∀ e ∈ hs, e.readies r = false) : run.phase ≠ .launching := by
  cases h with
  | opened | awaiting => simp [Duty.readies] at hother
  | claim hphase | other hphase => exact hphase
  | cancel heq | running heq => simp [heq]
  | spawn hphase => exact Phase.ne_launching hphase

/-- A run is launching only until its starter is set to work. -/
theorem Run.Readied.ne_launching_of_schedule (h : run.Readied r hs)
    (hbusy : .run r .schedule ∉ hs) : run.phase ≠ .launching := by
  cases h with
  | opened | awaiting => simp at hbusy
  | claim hphase | other hphase => exact hphase
  | cancel heq | running heq => simp [heq]
  | spawn hphase => exact Phase.ne_launching hphase

/-- While the starter readies a run, the handler does not. -/
theorem Run.Readied.of_starter (h : run.Readied r hs) (hbusy : .run r .schedule ∉ hs)
    (hspawn : .run r .spawn ∉ hs) (hphase : run'.phase ≠ .launching)
    (hlive : run'.isLive = run.isLive) : run'.Readied r hs := by
  cases h with
  | opened | awaiting => simp at hbusy
  | claim _ h => exact .claim hphase (hlive.trans h)
  | cancel | running | spawn => simp at hspawn
  | other _ hother => exact .other hphase hother

theorem StarterPlan.spawn_mem (h : StarterPlan r ds) (hm : .run r (.setPhase .running) ∈ ds) :
    .run r .spawn ∈ ds := by
  cases h <;> simp_all

/-- A thread that has a duty to do under the lock holds the lock. -/
theorem ThreadPlan.holds_of_isLocked {holds : Bool} {d : ThreadDuty} (h : ThreadPlan r holds ds)
    (hm : .thread r d ∈ ds) (hd : d.isLocked = true) : holds = true := by
  induction h with
  | emit _ _ ih => exact ih (by simpa using hm)
  | unlock | capture | markPaused => rfl
  | @stall since d' hafter =>
    have hm : d = .stall since ∨ d = d' := by simpa using hm
    rcases hafter with rfl | rfl <;> rcases hm with rfl | rfl <;> cases hd
  | last _ hholds =>
    obtain rfl : d = _ := by simpa using hm
    exact hholds.trans hd
  | _ => simp at hm

/-- A thread does what it does under the lock after it found its run live. -/
theorem ThreadDuty.locks_of_mem_next {d d' : ThreadDuty} (hd : d.perform? b s r run = some done)
    (hm : .thread r d' ∈ done.next) (hlocked : d'.isLocked = true) (hne : d' ≠ .checkLive) :
    d = .checkLive ∧ run.isLive = true ∨ d.isLocked = true ∧ d ≠ .checkLive := by
  have hend (ending : Ending) := not_thread_mem_endDuties r run ending d'
  -- What a thread does outside of the lock is something else.
  have hout {e : ThreadDuty} (he : e.isLocked = false) : d' ≠ e := by
    rintro rfl
    cases hlocked.symm.trans he
  unfold perform? at hd
  split at hd
  · cases d <;> simp only [performIdle?] at hd <;> (repeat' split at hd) <;> cases hd <;>
      simp_all [isLocked]
  · cases d
    case reach =>
      cases hd
      exact absurd hm (not_mem_stallThen (hout rfl) fun _ => hout rfl)
    case checkClosed | checkStep | checkLine =>
      cases hd
      exact absurd hm (not_mem_afterCheck (hout rfl) (hout rfl) fun _ => hout rfl)
    all_goals
      simp only [performAt?, performIdle?] at hd
      (repeat' split at hd) <;> cases hd <;> simp_all [isLocked, stopDuties]

namespace Run.Staged

theorem of_opens (hopens : s.Opens b run) (e : Protocol.Event) (d : SessionDuty) :
    run.Staged r [.run r (.emit e), .run r (.setPhase .awaitingBreakpoints), .run r .schedule,
      .session d] := by
  cases hopens
  refine ⟨.opened e d rfl, by simp, by simp, by simp, by simp, by simp, ?_⟩
  exact gateFirst_of_not_ends (by simp [Duty.ends])

/-- The agendas still fit a run that stays in its phase when the handler has something else to
do. -/
theorem of_run (h : run.Staged r hs) (hphase : run'.phase = run.phase)
    (hstarter : run'.starter = run.starter) (hthread : run'.thread = run.thread)
    (hstarted : run'.started = run.started) (habandoned : run.Abandoned → run'.Abandoned)
    (hreadied : run'.Readied r hs') (hspawn : .run r .spawn ∈ hs' → .run r .spawn ∈ hs)
    (hgate : GateFirst r run'.isLive hs') : run'.Staged r hs' where
  readied := hreadied
  starter := by
    rw [hphase, hstarter]
    exact h.starter
  spawning := by
    rw [hphase, hstarter]
    exact h.spawning
  working := by
    rw [hphase, hthread]
    exact h.working
  locked := by
    rw [hphase, hthread]
    exact h.locked
  ended hover := by
    rcases h.ended (hphase ▸ hover) with hdone | ⟨hbegun, hnone⟩
    · exact .inl (habandoned hdone)
    · refine .inr ⟨⟨hstarted.trans hbegun.started, fun hm => hbegun.handler (hspawn hm), ?_⟩, ?_⟩
      · rw [hstarter]
        exact hbegun.starter
      · rw [hthread]
        exact hnone
  gate := hgate

/-- The agendas still fit a run when what the handler did left its phase and its gate alone. -/
theorem of_besides {d : Duty} {next : List Duty} (h : run.Staged r (d :: ds))
    (hlaunched : run.phase ≠ .launching) (hds : ∀ e ∈ ds, e.readies r = false)
    (hopen : d.closesGate r = false) (hphase : run'.phase = run.phase)
    (hlive : run'.isLive = run.isLive) (hstarter : run'.starter = run.starter)
    (hthread : run'.thread = run.thread) (hstarted : run'.started = run.started)
    (hcontext : run.context.isClosed = true → run'.context.isClosed = true)
    (hnext : ∀ e ∈ next, e.readies r = false) (hgate : GateFirst r run.isLive next) :
    run'.Staged r (next ++ ds) := by
  have hnone : ∀ e ∈ next ++ ds, e.readies r = false := fun e he =>
    (List.mem_append.1 he).elim (hnext e) (hds e)
  refine h.of_run hphase hstarter hthread hstarted
    (fun ha => ⟨hlive.trans ha.silent, hcontext ha.closed⟩) (.other (hphase ▸ hlaunched) hnone)
    (fun hm => ?_) ?_
  · simpa [Duty.readies] using hnone _ hm
  · rw [hlive]
    exact hgate.append (by simpa [hopen] using h.gate.2)

/-- The agendas still fit a run when the handler did something about the session or about another
run. -/
theorem of_other {d : Duty} {next : List Duty} (h : run.Staged r (d :: ds))
    (hd : ∀ d', d ≠ .run r d') (hnext : ∀ e ∈ next, e.readies r = false)
    (hgate : GateFirst r run.isLive next) : run.Staged r (next ++ ds) := by
  obtain ⟨hlaunched, hds⟩ := h.readied.of_head hd
  refine h.of_besides hlaunched hds ?_ rfl rfl rfl rfl rfl id hnext hgate
  cases d with
  | run r' d =>
    have hne : r' ≠ r := fun heq => hd d (by rw [heq])
    cases d <;> simp [Duty.closesGate, hne]
  | _ => rfl

/-- The agendas fit when the handler is given something to handle. -/
theorem of_idle (h : run.Staged r []) (d : SessionDuty) : run.Staged r [.session d] := by
  have hphase := h.readied.ne_launching (by simp)
  exact h.of_run rfl rfl rfl rfl id (.other hphase (by simp [Duty.readies])) (by simp)
    (gateFirst_session r _ d)

/-! ## Steps of the handler -/

/-- The handler readies a run for its thread. -/
theorem of_readies {d : RunDuty} (h : run.Staged r (.run r d :: ds))
    (horder : run.Orderly r (.run r d :: ds)) (hfresh : run.started = false → run.Fresh ∧
      run.phase ≠ .running) (hd : d.perform? r run = some done)
    (hnot : ¬∀ e ∈ .run r d :: ds, e.readies r = false) : done.run.Staged r (done.next ++ ds) := by
  have hthread (hm : .run r .spawn ∈ .run r d :: ds) : run.thread = [] := horder.spawned (.inl hm)
  have hstarter (hm : .run r .spawn ∈ .run r d :: ds) :
      .run r (.setPhase .running) ∉ run.starter := fun hrunning =>
    horder.spawner hm (horder.starter.spawn_mem hrunning)
  have hgate {live : Bool} (hs : List Duty) (hhs : ∀ e ∈ hs, e.ends r = false) :
      GateFirst r live hs := gateFirst_of_not_ends hhs
  cases h.readied with
  | opened e d' hphase =>
    obtain rfl := Option.some.inj hd
    exact h.of_run rfl rfl rfl rfl id (.awaiting d' hphase) (by simp)
      (hgate _ (by simp [Duty.ends]))
  | awaiting d' hphase =>
    simp only [RunDuty.perform?] at hd
    split at hd <;> cases hd
    obtain ⟨hstarted, hidle⟩ := horder.scheduled (by simp)
    have hnone := (horder.unstarted hstarted).1
    refine ⟨.other (by simp) (by simp [Duty.readies]), by simp [hidle], by simp [hidle],
      by simp [hnone], by simp [hnone], by simp, hgate _ (by simp [Duty.ends])⟩
  | claim hphase hlive =>
    simp only [RunDuty.perform?] at hd
    split at hd <;> cases hd
    · exact h.of_run rfl rfl rfl rfl id (.other hphase (by simp)) (by simp) trivial
    next hstarted =>
      obtain ⟨hfresh, hrunning⟩ := hfresh (by simpa using hstarted)
      obtain ⟨hnone, -, hspawn⟩ := horder.unstarted (by simpa using hstarted)
      have hlater : run.phase ≠ .terminated := fun hover => by
        rcases h.ended hover with hdone | ⟨hbegun, -⟩
        · cases hlive.symm.trans hdone.silent
        · exact hstarted hbegun.started
      have hawaits : run.phase = .awaitingBreakpoints := by
        have hpaused := hfresh.phase
        cases hp : run.phase <;> simp_all
      refine ⟨.cancel hawaits, h.starter, ?_, by simp [hnone], by simp [hnone],
        fun hover => absurd hover hlater, hgate _ (by simp [Duty.ends])⟩
      intro hs
      exact absurd (by simp [show run.starter = _ from hs]) hspawn
  | cancel hphase =>
    obtain rfl := Option.some.inj hd
    exact h.of_run rfl rfl rfl rfl (fun ha => ⟨ha.silent, ha.closed⟩) (.running hphase) (by simp)
      (hgate _ (by simp [Duty.ends]))
  | running hphase =>
    simp only [RunDuty.perform?] at hd
    split at hd <;> cases hd
    have hnone := hthread (by simp)
    exact ⟨.spawn rfl, fun hm => absurd hm (hstarter (by simp)), fun _ => rfl, fun _ => rfl,
      by simp [hnone], by simp, hgate _ (by simp [Duty.ends])⟩
  | spawn hphase =>
    obtain rfl := Option.some.inj hd
    refine ⟨.other (Phase.ne_launching hphase) (by simp), h.starter, h.spawning, fun _ => hphase,
      by simp [ThreadDuty.isLocked], fun hover => ?_, trivial⟩
    rcases h.ended hover with hdone | ⟨hbegun, -⟩
    · exact .inl ⟨hdone.silent, hdone.closed⟩
    · exact absurd (by simp) hbegun.handler
  | other _ hother => exact absurd hother hnot

/-- The handler does something else to a run. -/
theorem of_not_readies {d : RunDuty} (h : run.Staged r (.run r d :: ds))
    (horder : run.Orderly r (.run r d :: ds)) (hplan : (Duty.run r d).Precedes ds)
    (hd : d.perform? r run = some done) (hother : ∀ e ∈ .run r d :: ds, e.readies r = false) :
    done.run.Staged r (done.next ++ ds) := by
  have hlaunched := h.readied.ne_launching hother
  have hds : ∀ e ∈ ds, e.readies r = false := fun e he => hother e (by simp [he])
  have hduty := hother (.run r d) (by simp)
  have hapt := horder.apt_of_handler hplan
  have hsame (hopen : (Duty.run r d).closesGate r = false) (hphase : done.run.phase = run.phase)
      (hlive : done.run.isLive = run.isLive) (hstarter : done.run.starter = run.starter)
      (hthread : done.run.thread = run.thread) (hstarted : done.run.started = run.started)
      (hcontext : run.context.isClosed = true → done.run.context.isClosed = true)
      (hnext : ∀ e ∈ done.next, e.readies r = false ∧ e.ends r = false) :
      done.run.Staged r (done.next ++ ds) :=
    h.of_besides hlaunched hds hopen hphase hlive hstarter hthread hstarted hcontext
      (fun e he => (hnext e he).1) (gateFirst_of_not_ends fun e he => (hnext e he).2)
  cases d with
  | startIfLive =>
    obtain rfl := Option.some.inj hd
    obtain rfl : ds = [] := hplan
    cases hlive : run.isLive with
    | false => simpa [hlive] using hsame rfl rfl rfl rfl rfl rfl id (by simp [hlive])
    | true =>
      refine h.of_run rfl rfl rfl rfl id ?_ ?_ (gateFirst_of_not_ends ?_)
      · simpa [hlive] using .claim hlaunched hlive
      · simp
      · simp [Duty.ends]
  | claimStart | spawn => simp [Duty.readies] at hduty
  | closeGate =>
    obtain rfl := Option.some.inj hd
    exact h.of_run rfl rfl rfl rfl (fun ha => ⟨rfl, ha.closed⟩) (.other hlaunched hds)
      (List.mem_cons_of_mem _) (gateFirst_false r ds)
  | schedule =>
    obtain rfl := Option.some.inj hd
    have hstarted := (horder.scheduled (by simp)).1
    refine ⟨.other hlaunched hds, by simp, by simp, h.working, h.locked, fun hover => ?_,
      by simpa [Duty.closesGate] using h.gate.2⟩
    rcases h.ended hover with hdone | ⟨hbegun, -⟩
    · exact .inl ⟨hdone.silent, hdone.closed⟩
    · cases hstarted.symm.trans hbegun.started
  | setPhase phase =>
    simp only [RunDuty.perform?] at hd
    split at hd <;> cases hd
    next hfree =>
    cases phase with
    | launching | paused => exact hplan.elim
    | awaitingBreakpoints | running => simp [Duty.readies] at hduty
    | terminated =>
      have hsilent : run.isLive = false := h.gate.1 (by simp [Duty.ends])
      refine ⟨.other (by simp) hds, fun _ => .inr rfl, fun _ => rfl, fun _ => rfl,
        fun d hm hlocked _ => ?_, fun _ => .inl ⟨hsilent, hapt⟩, ?_⟩
      case refine_2 => simpa [Duty.closesGate] using h.gate.2
      have hholds := horder.thread.holds_of_isLocked hm hlocked
      simp_all [Run.isFree]
  | claimTerminated =>
    simp only [RunDuty.perform?] at hd
    split at hd <;> cases hd <;>
      exact hsame rfl rfl rfl rfl rfl rfl id (by simp [Duty.readies, Duty.ends])
  | signal =>
    obtain rfl := Option.some.inj hd
    exact hsame rfl rfl rfl rfl rfl rfl (Context.isClosed_signal _).trans (by simp)
  | closeContext =>
    obtain rfl := Option.some.inj hd
    exact hsame rfl rfl rfl rfl rfl rfl (fun _ => rfl) (by simp)
  | _ =>
    obtain rfl := Option.some.inj hd
    exact hsame rfl rfl rfl rfl rfl rfl id (by simp)

/-- The handler does something to a run for a request. -/
theorem of_request {d : RequestDuty} (h : run.Staged r [.request r d]) (hd : d.Leads r run done) :
    done.run.Staged r done.next := by
  obtain ⟨hlaunched, hds⟩ := h.readied.of_head (by simp)
  have hsame (hphase : done.run.phase = run.phase) (hlive : done.run.isLive = run.isLive)
      (hstarter : done.run.starter = run.starter) (hthread : done.run.thread = run.thread)
      (hstarted : done.run.started = run.started) (hcontext : done.run.context = run.context)
      (hnext : ∀ e ∈ done.next, e.readies r = false ∧ e.ends r = false) :
      done.run.Staged r done.next := by
    have hnone := h.of_besides hlaunched hds rfl hphase hlive hstarter hthread hstarted
      (fun hclosed => hcontext ▸ hclosed) (fun e he => (hnext e he).1)
      (gateFirst_of_not_ends fun e he => (hnext e he).2)
    simpa using hnone
  have haside (hnext : ∀ e ∈ done.next, e.isAside = true) (e : Duty) (he : e ∈ done.next) :
      e.readies r = false ∧ e.ends r = false :=
    ⟨Duty.readies_of_isAside (hnext e he), Duty.ends_of_isAside (hnext e he)⟩
  cases hd with
  | look _ hnext | assign _ _ hnext => exact hsame rfl rfl rfl rfl rfl rfl (haside hnext)
  | start => exact hsame rfl rfl rfl rfl rfl rfl (by simp [Duty.readies, Duty.ends])
  | skip | pause =>
    refine hsame rfl rfl rfl rfl rfl rfl ?_
    simp +contextual [Duty.readies, Duty.ends, answer, or_imp]
  | release request how hfree hpaused =>
    have hnext : ∀ e ∈ [.run r (.setStepMode how.steps), .run r .invalidate,
        answer request (resumeBody how)] ++ continuedDuties r how ++ [.run r .signal],
        e.readies r = false ∧ e.ends r = false := by
      simp +contextual [Duty.readies, Duty.ends, answer, or_imp]
    refine ⟨.other (by simp) fun e he => (hnext e he).1, fun hm => ?_, fun _ => rfl, fun _ => rfl,
      fun _ _ _ _ => by simp, by simp, gateFirst_of_not_ends fun e he => (hnext e he).2⟩
    rcases h.starter hm with hawaits | hover
    · cases hpaused.symm.trans hawaits
    · cases hpaused.symm.trans hover

/-! ## Steps of the starter -/

/-- The agendas still fit a run that stays in its phase when the starter has something else to
do. -/
theorem of_waiting (h : run.Staged r hs) (hphase : run'.phase = run.phase)
    (hlive : run'.isLive = run.isLive) (hthread : run'.thread = run.thread)
    (hcontext : run'.context = run.context)
    (hrunning : .run r (.setPhase .running) ∈ run'.starter →
      run.phase = .awaitingBreakpoints ∨ run.phase = .terminated)
    (hspawning : run'.starter = [.run r .spawn] → run.phase.isUnderWay = true)
    (hbegun : run.Begun r hs → run'.started = true ∧ .run r .spawn ∉ run'.starter) :
    run'.Staged r hs where
  readied := h.readied.of_eq hphase hlive
  starter := by
    rw [hphase]
    exact hrunning
  spawning := by
    rw [hphase]
    exact hspawning
  working := by
    rw [hphase, hthread]
    exact h.working
  locked := by
    rw [hphase, hthread]
    exact h.locked
  ended hover := by
    rcases h.ended (hphase ▸ hover) with hdone | ⟨hold, hnone⟩
    · exact .inl ⟨hlive.trans hdone.silent, hcontext ▸ hdone.closed⟩
    · refine .inr ⟨⟨(hbegun hold).1, hold.handler, (hbegun hold).2⟩, ?_⟩
      rw [hthread]
      exact hnone
  gate := by
    rw [hlive]
    exact h.gate

theorem of_starter {d : Duty} (h : run.Staged r hs) (horder : run.Orderly r hs)
    (hfresh : run.started = false → run.Fresh ∧ run.phase ≠ .running)
    (hds : run.starter = d :: ds) (hd : d.stroke? b s r { run with starter := ds } = some done) :
    Run.Staged r hs { done.run with starter := done.next ++ done.run.starter } := by
  have hbusy : .run r .schedule ∉ hs := fun hm => by simp [(horder.scheduled hm).2] at hds
  -- Only `claim`, `running` and `spawn` do more than to look or to send.
  have hquiet {starter : List Duty} (hrunning : .run r (.setPhase .running) ∉ starter)
      (hspawn : .run r .spawn ∉ starter) : Run.Staged r hs { run with starter } := by
    refine h.of_waiting rfl rfl rfl rfl (fun hm => absurd hm hrunning) ?_
      fun hbegun => ⟨hbegun.started, hspawn⟩
    intro hstarter
    exact absurd (by simp [show starter = _ from hstarter]) hspawn
  have hplan := horder.starter
  rw [hds] at hplan
  cases hplan with
  | look d =>
    obtain ⟨hrun, hplan, hspawn⟩ := StarterDuty.plan_of_perform? hd
    rw [hrun]
    simp only [List.append_nil]
    exact hquiet (fun hm => hspawn (hplan.spawn_mem hm)) hspawn
  | late e =>
    obtain rfl := Option.some.inj hd
    exact hquiet (by simp) (by simp)
  | startIfLive =>
    obtain rfl := Option.some.inj hd
    refine hquiet ?_ ?_ <;> dsimp only <;> split <;> simp
  | claim =>
    simp only [Duty.stroke?, RunDuty.perform?] at hd
    split at hd <;> cases hd
    · exact hquiet (by simp) (by simp)
    next hstarted =>
      obtain ⟨hfresh, hrunning⟩ := hfresh (by simpa using hstarted)
      refine h.of_waiting rfl rfl rfl rfl (fun _ => ?_) (by simp) fun hbegun =>
        absurd hbegun.started hstarted
      have hlaunched := h.readied.ne_launching_of_schedule hbusy
      have hpaused := hfresh.phase
      cases hp : run.phase <;> simp_all
  | cancel =>
    obtain rfl := Option.some.inj hd
    have hspawn : .run r .spawn ∈ run.starter := by simp [hds]
    exact h.of_waiting rfl rfl rfl rfl (fun _ => h.starter (by simp [hds])) (by simp)
      fun hbegun => absurd hspawn hbegun.starter
  | running =>
    simp only [Duty.stroke?, RunDuty.perform?] at hd
    split at hd <;> cases hd
    have hspawn : .run r .spawn ∈ run.starter := by simp [hds]
    have hnone : run.thread = [] := horder.spawned (.inr hspawn)
    have hnot : .run r .spawn ∉ hs := fun hm => horder.spawner hm hspawn
    exact ⟨h.readied.of_starter hbusy hnot (by simp) rfl, by simp, fun _ => rfl, fun _ => rfl,
      by simp [hnone], by simp, h.gate⟩
  | spawn =>
    obtain rfl := Option.some.inj hd
    have hspawn : .run r .spawn ∈ run.starter := by simp [hds]
    have hunder := h.spawning hds
    refine ⟨h.readied.of_eq rfl rfl, by simp, by simp, fun _ => hunder,
      by simp [ThreadDuty.isLocked], fun hover => ?_, h.gate⟩
    rcases h.ended hover with hdone | ⟨hbegun, -⟩
    · exact .inl ⟨hdone.silent, hdone.closed⟩
    · exact absurd hspawn hbegun.starter

/-! ## Steps of the thread -/

/-- The agendas still fit a run that stays in its phase when its thread has something else to
do. -/
theorem of_thread_moves (h : run.Staged r hs) (hphase : run'.phase = run.phase)
    (hlive : run'.isLive = run.isLive) (hstarter : run'.starter = run.starter)
    (hclosed : run'.context.isClosed = run.context.isClosed) (hstarted : run'.started = run.started)
    (hwork : run.thread ≠ [])
    (hlocked : ∀ d, .thread r d ∈ run'.thread → d.isLocked = true → d ≠ .checkLive →
      run.phase ≠ .terminated)
    (hover : (∀ d, .thread r d ∉ run.thread) → ∀ d, .thread r d ∉ run'.thread) :
    run'.Staged r hs where
  readied := h.readied.of_eq hphase hlive
  starter := by
    rw [hphase, hstarter]
    exact h.starter
  spawning := by
    rw [hphase, hstarter]
    exact h.spawning
  working _ := by
    rw [hphase]
    exact h.working hwork
  locked := by
    rw [hphase]
    exact hlocked
  ended hterminated := by
    rcases h.ended (hphase ▸ hterminated) with hdone | ⟨hbegun, hnone⟩
    · exact .inl ⟨hlive.trans hdone.silent, hclosed.trans hdone.closed⟩
    · refine .inr ⟨⟨hstarted.trans hbegun.started, hbegun.handler, ?_⟩, hover hnone⟩
      rw [hstarter]
      exact hbegun.starter
  gate := by
    rw [hlive]
    exact h.gate

theorem of_thread {d : Duty} (h : run.Staged r hs) (horder : run.Orderly r hs)
    (hds : run.thread = d :: ds) (hd : d.stroke? b s r { run with thread := ds } = some done) :
    Run.Staged r hs { done.run with thread := done.next ++ done.run.thread } := by
  have hwork : run.thread ≠ [] := by simp [hds]
  have hunder := h.working hwork
  have hbegun := horder.begun hwork
  -- What the thread sends and releases leaves the rest of its agenda.
  have hpass {run' : Run} (hphase : run'.phase = run.phase) (hlive : run'.isLive = run.isLive)
      (hstarter : run'.starter = run.starter)
      (hclosed : run'.context.isClosed = run.context.isClosed)
      (hstarted : run'.started = run.started)
      (hsub : ∀ d, .thread r d ∈ run'.thread → .thread r d ∈ ds) : run'.Staged r hs :=
    h.of_thread_moves hphase hlive hstarter hclosed hstarted hwork
      (fun d hm => h.locked d (by simp [hds, hsub d hm]))
      fun hnone d hm => hnone d (by simp [hds, hsub d hm])
  have hplan := horder.thread
  rw [hds] at hplan
  generalize hholds : decide (run.lock = some (.thread r)) = holds at hplan
  cases hplan with
  | emit | unlock =>
    obtain rfl := Option.some.inj hd
    exact hpass rfl rfl rfl rfl rfl (by simp)
  | finish =>
    simp only [Duty.stroke?, RunDuty.perform?] at hd
    split at hd <;> cases hd
    exact ⟨h.readied.of_isUnderWay hunder rfl rfl, fun _ => .inr rfl, fun _ => rfl, fun _ => rfl,
      by simp, fun _ => .inr ⟨⟨hbegun.started, hbegun.handler, hbegun.starter⟩, by simp⟩, h.gate⟩
  | claim =>
    simp only [Duty.stroke?, RunDuty.perform?] at hd
    split at hd <;> cases hd <;> exact hpass rfl rfl rfl rfl rfl (by simp)
  | stall since hafter =>
    obtain rfl := ThreadDuty.eq_of_stall hd
    exact hpass rfl rfl rfl rfl rfl (by simp)
  | capture e e' =>
    have hrest : run.rest ≠ [] := fun hnil => by
      cases horder.statement hnil .capture (by simp [hds])
    obtain ⟨stmt, rest, -, rfl⟩ := ThreadDuty.eq_of_capture hd hrest
    exact hpass rfl rfl rfl rfl rfl (by simp)
  | markPaused e e' =>
    have hd : ThreadDuty.markPaused.perform? b s r _ = some done := hd
    rw [ThreadDuty.perform?_markPaused] at hd
    obtain rfl := Option.some.inj hd
    refine ⟨h.readied.of_isUnderWay hunder rfl rfl, fun hm => ?_, fun _ => rfl, fun _ => rfl,
      by simp [publication, ThreadDuty.isLocked], by simp, h.gate⟩
    exact absurd (horder.starter.spawn_mem hm) hbegun.starter
  | @last _ d hlast hholds' =>
    have hd : d.perform? b s r { run with thread := [] } = some done := hd
    have hleaves := ThreadDuty.leaves_of_perform? hd
    have hkept := hleaves.kept
    have hmark : d ≠ .markPaused := by
      rintro rfl
      cases hlast
    refine h.of_thread_moves (hleaves.phase hmark) hleaves.isLive hkept.starter hkept.closed
      hkept.started hwork ?_ ?_
    · intro d' hm hlocked hne hover
      have hm : .thread r d' ∈ done.next := by simpa [hkept.thread] using hm
      rcases ThreadDuty.locks_of_mem_next hd hm hlocked hne with ⟨rfl, hlive⟩ | ⟨hlocked, hne⟩
      · rcases h.ended hover with hdone | ⟨-, hnone⟩
        · cases hdone.silent.symm.trans hlive
        · exact hnone .checkLive (by simp [hds])
      · exact h.locked d (by simp [hds]) hlocked hne hover
    · intro hnone
      exact absurd (by simp [hds]) (hnone d)

end Run.Staged

namespace State

/-- The agendas fit a run that a step opens. -/
theorem Stride.staged_of_new (hst : s.Stride b t p) (horder : s.Orderly) (hnone : s.runs[r]? = none)
    (hr : t.runs[r]? = some run) : run.Staged r t.handler := by
  obtain ⟨-, request, args, ds, hs, ht⟩ := hst.openRun_of_new hnone hr
  have hplan := horder.handler
  rw [hs] at hplan
  obtain rfl : ds = [] := hplan.1
  subst ht
  rcases prepare_cases b { s with handler := [] } request args with
    ⟨ds, -, heq⟩ | ⟨id, script, program, -, -, hcompile, heq⟩
  · simp only [SessionDuty.perform, heq] at hr
    cases hnone.symm.trans hr
  · simp only [SessionDuty.perform, heq, openRun, List.append_nil] at hr ⊢
    rw [List.getElem?_append] at hr
    split at hr
    · cases hnone.symm.trans hr
    next hge =>
      have hlast : r - s.runs.length < 1 := (List.getElem?_eq_some_iff.1 hr).1
      obtain rfl : r = s.runs.length := Nat.le_antisymm
        (Nat.sub_eq_zero_iff_le.1 (Nat.lt_one_iff.1 hlast)) (Nat.le_of_not_lt hge)
      simp only [Nat.sub_self, List.getElem?_cons_zero] at hr
      obtain rfl := Option.some.inj hr
      exact .of_opens (.opened (b := b) (s := s) script program hcompile _) _ _

/-- A step of anybody leaves agendas that fit the phases. -/
theorem Stride.staged (hst : s.Stride b t p) (horder : s.Orderly) (hunstarted : s.Unstarted)
    (h : ∀ {r : RunId} {run : Run}, s.runs[r]? = some run → run.Staged r s.handler)
    (hr : t.runs[r]? = some run) : run.Staged r t.handler := by
  by_cases hnone : s.runs[r]? = none
  case pos => exact hst.staged_of_new horder hnone hr
  have hlt : r < s.runs.length := by simpa using hnone
  cases hst with
  | @session d ds hs ht =>
    subst ht
    have hr : s.runs[r]? = some run := by
      rcases d.runs_cases b { s with handler := ds } with hruns | ⟨_, -, hruns⟩
      · simpa [hruns] using hr
      · simpa [hruns, List.getElem?_append_left hlt] using hr
    refine (hs ▸ h hr).of_other (by simp) (fun e he => ?_) (d.gateFirst b _ r _)
    by_cases hsub : e.subject? = some r
    · exact (SessionDuty.assigned_of_mem_perform he hsub).readies hlt
    · exact Duty.readies_of_subject hsub
  | @handler r₀ run₀ d ds done hs hsub hr₀ hd ht =>
    subst ht
    have hown : d.BelongsTo .handler := horder.belongsTo hs
    have hplan := horder.handler
    have hrun := horder.runs hr₀
    rw [hs] at hplan hrun
    rcases getElem?_setRun hr with ⟨rfl, rfl⟩ | ⟨hne, hr⟩
    · have hstaged := hs ▸ h hr₀
      cases d with
      | session d => cases hd
      | starter _ d | thread _ d => exact hown.elim
      | run _ d =>
        cases hsub
        by_cases hother : ∀ e ∈ .run r₀ d :: ds, e.readies r₀ = false
        · exact hstaged.of_not_readies hrun hplan.1 hd hother
        · exact hstaged.of_readies hrun (hunstarted.fresh hr₀) hd hother
      | request _ d =>
        cases hsub
        obtain rfl : ds = [] := hplan.1
        simpa using hstaged.of_request (RequestDuty.leads_of_perform? hd)
    · have hnext : ∀ e ∈ done.next, e.subject? ≠ some r := fun e he =>
        Duty.subject_ne_of_mem_next hown hd hne he
      refine (hs ▸ h hr).of_other ?_ (fun e he => Duty.readies_of_subject (hnext e he))
        (gateFirst_of_not_ends fun e he => Duty.ends_of_subject (hnext e he))
      rintro d' rfl
      exact hne (Option.some.inj hsub).symm
  | @starter r₀ run₀ d ds done hs hr₀ hd ht =>
    subst ht
    rcases getElem?_setRun hr with ⟨rfl, rfl⟩ | ⟨-, hr⟩
    · exact (h hr₀).of_starter (horder.runs hr₀) (hunstarted.fresh hr₀) hs hd
    · exact h hr
  | @thread r₀ run₀ d ds done hs hr₀ hd ht =>
    subst ht
    rcases getElem?_setRun hr with ⟨rfl, rfl⟩ | ⟨-, hr⟩
    · exact (h hr₀).of_thread (horder.runs hr₀) hs hd
    · exact h hr

/-- The agendas fit the phases in every state that a session can get into. -/
theorem Reachable.staged (h : Reachable b s) (hr : s.runs[r]? = some run) :
    run.Staged r s.handler := by
  induction h generalizing r run with
  | initial => simp at hr
  | @step s t hreach hstep ih =>
    obtain ⟨p, hp⟩ := hstep
    obtain ⟨es, hpath⟩ := hreach.exists_path
    have horder := hpath.orderly orderly_empty
    exact (horder.stride hp).staged horder hpath.unstarted ih hr
  | @accept s i _ hi ih =>
    have hr : s.runs[r]? = some run := by cases i <;> exact hr
    have hstaged := ih hr
    cases i with
    | request | hangUp =>
      have hnil : s.handler = [] := hi
      rw [hnil] at hstaged
      show run.Staged r (s.handler ++ [_])
      rw [hnil]
      exact hstaged.of_idle _
    | elapse | release => exact hstaged

end State

end DebugAdapter.Session
