import DebugAdapter.Proofs.Session.Stable
/-!
# Signals

A paused script goes on when it is signaled. The handler takes the client's request to go on in one
step, and owes the signal until a later one; the thread may announce a stop, park, wake up and be
abandoned in between. `Run.Balanced` says how the requests accepted so far, the signals owed, the
permits at the rendezvous and the parks left by a signal fit together. Main statement:
`resumes_balance`, on every path no request to go on is lost and no stop is passed by a signal that
was left over.
-/

namespace DebugAdapter.Session

/-! ## What is counted -/

/-- Whether a duty is the signal for the thread of run `r`. -/
def Duty.signals (r : RunId) : Duty → Bool
  | run r' .signal => r' == r
  | _ => false

/-- How many signals an agenda owes run `r`. -/
def owed (r : RunId) (ds : List Duty) : Nat :=
  ds.countP (Duty.signals r)

/-- Whether a step accepts a request to let run `r` go on while it is paused. -/
def acceptsResume (r : RunId) : State × Party → Bool
  | (s, .handler) =>
    match s.handler, s.runs[r]? with
    | .request r' (.resume _ _) :: _, some run => r' == r && run.phase == .paused
    | _, _ => false
  | _ => false

/-- Whether in a step the thread of run `r` leaves its park because of a signal. -/
def leavesPark (r : RunId) : State × Party → Bool
  | (s, .thread r') =>
    match s.runs[r]? with
    | some run =>
      match run.thread, run.context.rendezvous.wait? with
      | .thread _ .park :: _, some (.signaled, _) => r' == r
      | _, _ => false
    | none => false
  | _ => false

/-- How many requests to let run `r` go on were accepted while it was paused. -/
def acceptedResumes (r : RunId) (es : List (State × Party)) : Nat :=
  es.countP (acceptsResume r)

/-- How many parks the thread of run `r` left because of a signal. -/
def leftParks (r : RunId) (es : List (State × Party)) : Nat :=
  es.countP (leavesPark r)

/-! ## The balance of a run -/

/-- Whether the thread of run `r` marked its run as paused and did not wake up since. -/
def Run.AtStop (r : RunId) (run : Run) : Prop :=
  .thread r .park ∈ run.thread ∧ .thread r .markPaused ∉ run.thread

/-- Whether the signals of run `r` are accounted for, when so many are owed, so many requests were
accepted and so many parks were left. Only a run that is stopped and no longer paused has a signal
under way. -/
structure Run.Balanced (r : RunId) (owed accepted left : Nat) (run : Run) : Prop where
  left_le : left ≤ accepted
  closed : run.context.isClosed = true → run.context.rendezvous.permits = 0
  balance : run.context.isClosed = false →
    accepted = left + (run.context.rendezvous.permits + owed)
  paused : run.context.isClosed = false → run.phase = .paused → run.AtStop r
  one : run.context.isClosed = false → run.AtStop r → run.phase ≠ .paused →
    run.context.rendezvous.permits + owed = 1
  none : run.context.isClosed = false → (run.AtStop r → run.phase = .paused) →
    run.context.rendezvous.permits + owed = 0

namespace Run.Balanced

variable {r : RunId} {o a l : Nat} {run : Run}

/-- A run stays balanced when all that its balance depends on stays. -/
theorem of_run {run' : Run} (h : run.Balanced r o a l)
    (hrendezvous : run'.context.rendezvous = run.context.rendezvous)
    (hphase : run'.phase = run.phase) (hstop : run'.AtStop r ↔ run.AtStop r) :
    run'.Balanced r o a l where
  left_le := h.left_le
  closed := by
    rw [Context.isClosed, hrendezvous]
    exact h.closed
  balance := by
    rw [Context.isClosed, hrendezvous]
    exact h.balance
  paused := by
    rw [Context.isClosed, hrendezvous, hphase, hstop]
    exact h.paused
  one := by
    rw [Context.isClosed, hrendezvous, hphase, hstop]
    exact h.one
  none := by
    rw [Context.isClosed, hrendezvous, hphase, hstop]
    exact h.none

/-- A run stays balanced when its context is closed. -/
theorem of_close {o' : Nat} (h : run.Balanced r o a l) :
    Run.Balanced r o' a l { run with context := run.context.close } where
  left_le := h.left_le
  closed _ := rfl
  balance hopen := by cases hopen
  paused hopen := by cases hopen
  one hopen := by cases hopen
  none hopen := by cases hopen

/-- A run whose context is closed may change as it likes. -/
theorem of_closed {run' : Run} {o' : Nat} (h : run.Balanced r o a l)
    (hclosed : run.context.isClosed = true)
    (hcontext : run'.context.rendezvous = run.context.rendezvous) :
    run'.Balanced r o' a l := by
  have hclosed' : run'.context.isClosed = true := by
    rw [Context.isClosed, hcontext]
    exact hclosed
  refine ⟨h.left_le, fun _ => hcontext ▸ h.closed hclosed, ?_, ?_, ?_, ?_⟩
  all_goals
    intro hopen
    cases hclosed'.symm.trans hopen

/-- A run that is not stopped may change its phase, but not to be paused. -/
theorem of_not_atStop {run' : Run} (h : run.Balanced r o a l) (hstop : ¬run.AtStop r)
    (hstop' : ¬run'.AtStop r) (hrendezvous : run'.context.rendezvous = run.context.rendezvous)
    (hphase : run'.phase = .paused → run.phase = .paused) : run'.Balanced r o a l where
  left_le := h.left_le
  closed := by
    rw [Context.isClosed, hrendezvous]
    exact h.closed
  balance := by
    rw [Context.isClosed, hrendezvous]
    exact h.balance
  paused hopen hp := by
    rw [Context.isClosed, hrendezvous] at hopen
    exact absurd (h.paused hopen (hphase hp)) hstop
  one _ hs := absurd hs hstop'
  none hopen _ := by
    rw [Context.isClosed, hrendezvous] at hopen
    rw [hrendezvous]
    exact h.none hopen fun hs => absurd hs hstop

end Run.Balanced

/-! ## Steps -/

@[simp] theorem owed_nil (r : RunId) : owed r [] = 0 := rfl

@[simp] theorem owed_cons (r : RunId) (d : Duty) (ds : List Duty) :
    owed r (d :: ds) = owed r ds + if d.signals r then 1 else 0 :=
  List.countP_cons

@[simp] theorem owed_append (r : RunId) (ds ds' : List Duty) :
    owed r (ds ++ ds') = owed r ds + owed r ds' :=
  List.countP_append

theorem Duty.eq_of_signals {r : RunId} {d : Duty} (h : d.signals r = true) :
    d = .run r .signal := by
  unfold signals at h
  split at h
  next r' => rw [beq_iff_eq.1 h]
  · cases h

theorem owed_eq_zero {r : RunId} {ds : List Duty} (h : ∀ d ∈ ds, d.isPlain = true) :
    owed r ds = 0 := by
  refine List.countP_eq_zero.2 fun d hd hsignals => ?_
  cases Duty.eq_of_signals hsignals ▸ h d hd

theorem not_atStop_of_nil {r : RunId} {run : Run} (h : run.thread = []) : ¬run.AtStop r := by
  rintro ⟨hpark, -⟩
  simp [h] at hpark

/-- What anybody does to a run owes no signal. -/
theorem owed_next {r r' : RunId} {run : Run} {d : RunDuty} {done : Done}
    (hd : d.perform? r run = some done) : owed r' done.next = 0 := by
  cases d <;> simp only [RunDuty.perform?] at hd <;> (repeat' split at hd) <;> cases hd <;>
    simp [Duty.signals]

theorem Context.isClosed_signal (c : Context) : c.signal.isClosed = c.isClosed := by
  simp only [Context.isClosed, Context.signal, Rendezvous.signal]
  split <;> rfl

theorem Context.permits_signal {c : Context} (hopen : c.isClosed = false)
    (hle : c.rendezvous.permits ≤ 1) :
    c.signal.rendezvous.permits = c.rendezvous.permits + 1 := by
  have hopen : c.rendezvous.closed = false := hopen
  simp only [Context.signal, Rendezvous.signal, hopen, Rendezvous.maxPermits, Bool.false_eq_true,
    if_false]
  omega

namespace Run.Balanced

variable {r : RunId} {o a l : Nat} {run : Run}

theorem pending_le (h : run.Balanced r o a l) (hopen : run.context.isClosed = false) :
    run.context.rendezvous.permits + o ≤ 1 := by
  by_cases hstop : run.AtStop r
  · by_cases hphase : run.phase = .paused
    · rw [h.none hopen fun _ => hphase]
      exact Nat.zero_le 1
    · exact Nat.le_of_eq (h.one hopen hstop hphase)
  · rw [h.none hopen fun hs => absurd hs hstop]
    exact Nat.zero_le 1

/-- A run that has a signal under way is at a stop. -/
theorem atStop (h : run.Balanced r o a l) (hopen : run.context.isClosed = false)
    (hpending : run.context.rendezvous.permits + o ≠ 0) : run.AtStop r ∧ run.phase ≠ .paused := by
  by_cases hstop : run.AtStop r
  · exact ⟨hstop, fun hphase => hpending (h.none hopen fun _ => hphase)⟩
  · exact absurd (h.none hopen fun hs => absurd hs hstop) hpending

/-- A signal that was owed becomes a permit. -/
theorem of_signal (h : run.Balanced r (o + 1) a l) :
    Run.Balanced r o a l { run with context := run.context.signal } := by
  cases hclosed : run.context.isClosed with
  | true =>
    refine h.of_closed hclosed ?_
    have hclosed : run.context.rendezvous.closed = true := hclosed
    simp [Context.signal, Rendezvous.signal, hclosed]
  | false =>
    have hle := h.pending_le hclosed
    have hpermits := Context.permits_signal hclosed (by omega)
    have hsum : run.context.signal.rendezvous.permits + o =
        run.context.rendezvous.permits + (o + 1) := by omega
    refine ⟨h.left_le, ?_, fun _ => ?_, fun _ => h.paused hclosed, fun _ hstop hphase => ?_,
      fun _ hidle => ?_⟩
    · intro hclosed'
      cases (hclosed.symm.trans (Context.isClosed_signal _).symm).trans hclosed'
    · simp only
      rw [hsum]
      exact h.balance hclosed
    · simp only
      rw [hsum]
      exact h.one hclosed hstop hphase
    · simp only
      rw [hsum]
      exact h.none hclosed hidle

/-- The handler accepts a request to let the script go on, and owes it a signal. -/
theorem of_release (h : run.Balanced r 0 a l) (hpaused : run.phase = .paused) :
    Run.Balanced r 1 (a + 1) l { run with phase := .running } where
  left_le := Nat.le_succ_of_le h.left_le
  closed := h.closed
  balance hopen := by
    have hbalance := h.balance hopen
    simp only
    omega
  paused _ hphase := by cases hphase
  one hopen _ _ := by
    have hnone := h.none hopen fun _ => hpaused
    simp only
    omega
  none hopen hidle := by cases hidle (h.paused hopen hpaused)

/-- What the handler and the starter do to a run leaves it balanced. -/
theorem of_duty {d : RunDuty} {done : Done}
    (h : run.Balanced r (o + if (Duty.run r d).signals r then 1 else 0) a l) (hapt : d.Apt run)
    (hd : d.perform? r run = some done) : done.run.Balanced r o a l := by
  cases d with
  | setPhase phase =>
    simp only [RunDuty.perform?] at hd
    split at hd
    case isFalse => cases hd
    obtain rfl := Option.some.inj hd
    have hidle (hnil : run.thread = []) (hphase : phase ≠ .paused) :
        Run.Balanced r o a l { run with phase } :=
      Run.Balanced.of_not_atStop h (not_atStop_of_nil hnil) (not_atStop_of_nil hnil) rfl
        fun hp => absurd hp hphase
    cases phase with
    | launching | paused => exact hapt.elim
    | awaitingBreakpoints | running => exact hidle hapt (by simp)
    | terminated => exact h.of_closed hapt rfl
  | spawn =>
    obtain rfl := Option.some.inj hd
    refine Run.Balanced.of_not_atStop h (not_atStop_of_nil hapt) ?_ rfl id
    rintro ⟨hpark, -⟩
    simp at hpark
  | signal =>
    obtain rfl := Option.some.inj hd
    refine of_signal ?_
    simpa [Duty.signals] using h
  | closeContext =>
    obtain rfl := Option.some.inj hd
    exact h.of_close
  | claimTerminated | claimStart =>
    simp only [RunDuty.perform?] at hd
    split at hd <;> obtain rfl := Option.some.inj hd <;> exact h.of_run rfl rfl .rfl
  | _ =>
    obtain rfl := Option.some.inj hd
    exact Run.Balanced.of_run h rfl rfl .rfl

theorem of_requestDuty {b : Backend} {s : State} {d : RequestDuty} {done : Done}
    (h : run.Balanced r (owed r [.request r d]) a l) (hs : s.handler = [.request r d])
    (hr : s.runs[r]? = some run) (hd : d.perform? b r run = some done) :
    done.run.Balanced r (owed r done.next)
      (a + if acceptsResume r (s, .handler) then 1 else 0) l := by
  have howed : owed r [.request r d] = 0 := by simp [Duty.signals]
  rw [howed] at h
  cases RequestDuty.leads_of_perform? hd with
  | look _ hnext hresume =>
    have hcount : acceptsResume r (s, .handler) = false := by
      cases d <;> simp [acceptsResume, hs, hr]
      exact hresume _ _ rfl
    rw [owed_eq_zero (mild_of_isAside hnext).plain, hcount]
    exact h.of_run rfl rfl .rfl
  | assign _ _ hnext =>
    have hcount : acceptsResume r (s, .handler) = false := by simp [acceptsResume, hs]
    rw [owed_eq_zero (mild_of_isAside hnext).plain, hcount]
    exact h.of_run rfl rfl .rfl
  | start =>
    have hcount : acceptsResume r (s, .handler) = false := by simp [acceptsResume, hs]
    simpa [Duty.signals, hcount] using h
  | release request how hfree hpaused =>
    have hcount : acceptsResume r (s, .handler) = true := by simp [acceptsResume, hs, hr, hpaused]
    have howed : owed r (continuedDuties r how) = 0 := by
      unfold continuedDuties
      split <;> simp [Duty.signals]
    simpa [Duty.signals, hcount, howed, answer] using h.of_release hpaused
  | skip request how hfree hrunning =>
    have hcount : acceptsResume r (s, .handler) = false := by
      simp [acceptsResume, hs, hr, hrunning]
    have howed : owed r (continuedDuties r how) = 0 := by
      unfold continuedDuties
      split <;> simp [Duty.signals]
    refine Run.Balanced.of_run (?_ : run.Balanced r _ _ l) rfl rfl .rfl
    simpa [Duty.signals, hcount, howed, answer] using h
  | pause request hfree =>
    have hcount : acceptsResume r (s, .handler) = false := by simp [acceptsResume, hs]
    refine Run.Balanced.of_run (?_ : run.Balanced r _ _ l) rfl rfl .rfl
    simpa [Duty.signals, hcount, answer] using h

/-- What the handler does to the run its next duty is about leaves that run balanced. -/
theorem of_handler {b : Backend} {s : State} {d : Duty} {ds : List Duty} {done : Done}
    (h : run.Balanced r (owed r s.handler) a l) (horder : s.Orderly) (hs : s.handler = d :: ds)
    (hsub : d.subject? = some r) (hr : s.runs[r]? = some run)
    (hd : d.stroke? b s r run = some done) :
    done.run.Balanced r (owed r (done.next ++ ds))
      (a + if acceptsResume r (s, .handler) then 1 else 0) l := by
  have hown : d.BelongsTo .handler := horder.belongsTo hs
  have hrun := horder.runs hr
  have hplan := horder.handler
  rw [hs] at h hrun hplan
  cases d with
  | session d => cases hd
  | starter _ d | thread _ d => exact hown.elim
  | run r' d =>
    cases hsub
    have haccepts : acceptsResume r (s, .handler) = false := by simp [acceptsResume, hs]
    rw [haccepts, owed_append, owed_next hd, Nat.zero_add]
    rw [owed_cons] at h
    exact h.of_duty (hrun.apt_of_handler hplan.1) hd
  | request r' d =>
    cases hsub
    obtain rfl : ds = [] := hplan.1
    simpa using h.of_requestDuty hs hr hd

theorem of_starter {b : Backend} {s : State} {hs : List Duty} {d : Duty} {ds : List Duty}
    {done : Done} (h : run.Balanced r o a l) (horder : run.Orderly r hs)
    (hstarter : run.starter = d :: ds)
    (hd : d.stroke? b s r { run with starter := ds } = some done) :
    Run.Balanced r o a l { done.run with starter := done.next ++ done.run.starter } := by
  have hrun : Run.Balanced r o a l { run with starter := ds } := h.of_run rfl rfl .rfl
  have hplan := horder.starter
  rw [hstarter] at hplan
  suffices hdone : done.run.Balanced r o a l from hdone.of_run rfl rfl .rfl
  cases hplan with
  | look d =>
    obtain ⟨hdone, -, -⟩ := StarterDuty.plan_of_perform? hd
    rw [hdone]
    exact hrun
  | _ =>
    simp only [Duty.stroke?] at hd
    refine of_duty ?_ ?_ hd
    · exact hrun
    · exact horder.apt_of_starter hstarter

/-- A run that is marked as paused was not stopped before. -/
theorem of_markPaused {run' : Run} (h : run.Balanced r o a l) (hstop : ¬run.AtStop r)
    (hstop' : run'.AtStop r) (hcontext : run'.context = run.context)
    (hphase : run'.phase = .paused) : run'.Balanced r o a l := by
  have hnone (hopen : run.context.isClosed = false) := h.none hopen fun hs => absurd hs hstop
  refine ⟨h.left_le, ?_, ?_, fun _ _ => hstop', fun _ _ hp => absurd hphase hp, ?_⟩
  · rw [hcontext]
    exact h.closed
  · rw [hcontext]
    exact h.balance
  · rw [hcontext]
    exact fun hopen _ => hnone hopen

/-- A thread that leaves its park takes the only signal under way. -/
theorem of_signaled {run' : Run} {rendezvous : Rendezvous} (h : run.Balanced r o a l)
    (hwait : run.context.rendezvous.wait? = some (.signaled, rendezvous))
    (hstop : ¬run'.AtStop r) (hcontext : run'.context.rendezvous = rendezvous)
    (hphase : run'.phase = run.phase) : run'.Balanced r o a (l + 1) := by
  obtain ⟨hopen, hpermits, rfl⟩ := Rendezvous.eq_of_signaled hwait
  have hopen : run.context.isClosed = false := hopen
  have hle := h.pending_le hopen
  have hbalance := h.balance hopen
  have hnone : run'.context.rendezvous.permits + o = 0 := by
    rw [hcontext]
    simp only
    omega
  refine ⟨by omega, fun hclosed => ?_, fun _ => by omega, fun _ hp => ?_,
    fun _ hs => absurd hs hstop, fun _ _ => hnone⟩
  · exact Nat.eq_zero_of_add_eq_zero_right hnone
  · have hzero := h.none hopen fun _ => hphase.symm.trans hp
    omega

/-- A parked thread wakes up by a signal, which it takes, or because its run is abandoned. -/
theorem of_park {b : Backend} {s : State} {ds : List Duty} {done : Done}
    (h : run.Balanced r o a l) (hr : s.runs[r]? = some run)
    (hthread : run.thread = .thread r .park :: ds)
    (hd : ThreadDuty.park.perform? b s r { run with thread := [] } = some done) :
    Run.Balanced r o a (l + if leavesPark r (s, .thread r) then 1 else 0)
      { done.run with thread := done.next ++ done.run.thread } := by
  rcases ThreadDuty.cases_of_park hd with ⟨rendezvous, hwait, rfl⟩ | ⟨hclosed, rfl⟩
  · have hleft : leavesPark r (s, .thread r) = true := by
      have hwait : run.context.rendezvous.wait? = _ := hwait
      simp [leavesPark, hr, hthread, hwait]
    rw [hleft]
    exact h.of_signaled hwait (by simp [AtStop]) rfl rfl
  · have hleft : leavesPark r (s, .thread r) = false := by
      have hclosed : run.context.rendezvous.closed = true := hclosed
      simp [leavesPark, hr, hthread, Rendezvous.wait?, hclosed]
    rw [hleft]
    exact h.of_closed hclosed rfl

/-- What a thread does outside of a stop, but to begin one. -/
theorem of_leaves {run' : Run} {d : ThreadDuty} {ds next : List Duty} (h : run.Balanced r o a l)
    (hleaves : d.Leaves r { run with thread := ds } run') (hpark : d ≠ .park)
    (hmark : d ≠ .markPaused) (hstop : ¬run.AtStop r)
    (hstop' : ¬Run.AtStop r { run' with thread := next ++ run'.thread }) :
    Run.Balanced r o a l { run' with thread := next ++ run'.thread } :=
  h.of_not_atStop hstop hstop' (congrArg _ (hleaves.context hpark)) (by simp [hleaves.phase hmark])

theorem of_thread {b : Backend} {s : State} {hs : List Duty} {d : Duty} {ds : List Duty}
    {done : Done} (h : run.Balanced r o a l) (horder : run.Orderly r hs)
    (hr : s.runs[r]? = some run) (hthread : run.thread = d :: ds)
    (hd : d.stroke? b s r { run with thread := ds } = some done) :
    Run.Balanced r o a (l + if leavesPark r (s, .thread r) then 1 else 0)
      { done.run with thread := done.next ++ done.run.thread } := by
  have hcount (hne : ∀ r', d ≠ .thread r' .park) : leavesPark r (s, .thread r) = false := by
    simp only [leavesPark, hr, hthread]
    split
    next heq _ => exact absurd (List.cons.inj heq).1 (hne _)
    · rfl
  have hrest (d' : ThreadDuty) (hd' : d = .thread r d') (hend : d'.mayEnd = false) :
      run.rest ≠ [] := by
    intro hnil
    have hmay := horder.statement hnil d' (by simp [hthread, hd'])
    simp [hend] at hmay
  have hplan := horder.thread
  rw [hthread] at hplan
  generalize decide (run.lock = some (.thread r)) = holds at hplan
  cases hplan with
  | emit e hplan | unlock hplan =>
    obtain rfl := Option.some.inj hd
    rw [hcount (by simp)]
    exact h.of_run rfl rfl (by simp [AtStop, hthread])
  | finish =>
    rw [hcount (by simp)]
    simp only [Duty.stroke?, RunDuty.perform?] at hd
    split at hd
    · obtain rfl := Option.some.inj hd
      exact h.of_not_atStop (by simp [AtStop, hthread]) (by simp [AtStop]) rfl (by simp)
    · cases hd
  | claim =>
    rw [hcount (by simp)]
    simp only [Duty.stroke?, RunDuty.perform?] at hd
    split at hd <;> obtain rfl := Option.some.inj hd <;>
      exact h.of_run rfl rfl (by simp [AtStop, hthread])
  | @stall since d' hafter =>
    rw [hcount (by simp)]
    have hnext := (ThreadDuty.next_of_not_isLast rfl (by exact hrest _ rfl rfl) hd).1
    have hleaves := ThreadDuty.leaves_of_perform? hd
    refine h.of_leaves hleaves (by simp) (by simp) ?_ ?_
    · rcases hafter with rfl | rfl <;> simp [AtStop, hthread]
    · rw [hnext, hleaves.kept.thread]
      rcases hafter with rfl | rfl <;> simp [AtStop]
  | capture e e' =>
    rw [hcount (by simp)]
    have hnext := (ThreadDuty.next_of_not_isLast rfl (by exact hrest _ rfl rfl) hd).1
    have hleaves := ThreadDuty.leaves_of_perform? hd
    refine h.of_leaves hleaves (by simp) (by simp) ?_ ?_
    · simp [AtStop, hthread]
    · rw [hnext, hleaves.kept.thread]
      simp [AtStop]
  | markPaused e e' =>
    rw [hcount (by simp)]
    have hd : ThreadDuty.markPaused.perform? b s r _ = some done := hd
    rw [ThreadDuty.perform?_markPaused] at hd
    obtain rfl := Option.some.inj hd
    refine h.of_markPaused ?_ ?_ rfl rfl
    · simp [AtStop, hthread]
    · simp [AtStop, publication]
  | @last _ d hlast =>
    by_cases hpark : d = .park
    · subst hpark
      exact h.of_park hr hthread hd
    · rw [hcount (by simpa using hpark)]
      have hleaves := ThreadDuty.leaves_of_perform? hd
      have hmark : d ≠ .markPaused := by
        rintro rfl
        cases hlast
      refine h.of_leaves hleaves hpark hmark ?_ ?_
      · simp [AtStop, hthread, Ne.symm hpark]
      · rw [hleaves.kept.thread]
        rintro ⟨hmem, hnot⟩
        simp only [List.append_nil] at hmem hnot
        exact hnot (ThreadDuty.stop_mem_next hd hmem).2

end Run.Balanced

/-! ## Paths -/

/-- Whether the signals of all runs are accounted for after the steps `es`. -/
structure State.Balanced (es : List (State × Party)) (s : State) : Prop where
  runs {r : RunId} {run : Run} (hr : s.runs[r]? = some run) :
    run.Balanced r (owed r s.handler) (acceptedResumes r es) (leftParks r es)
  none {r : RunId} (hr : s.runs[r]? = none) :
    owed r s.handler = 0 ∧ acceptedResumes r es = 0 ∧ leftParks r es = 0

theorem acceptedResumes_concat (r : RunId) (es : List (State × Party)) (e : State × Party) :
    acceptedResumes r (es ++ [e]) = acceptedResumes r es + if acceptsResume r e then 1 else 0 := by
  simp [acceptedResumes]

theorem leftParks_concat (r : RunId) (es : List (State × Party)) (e : State × Party) :
    leftParks r (es ++ [e]) = leftParks r es + if leavesPark r e then 1 else 0 := by
  simp [leftParks]

/-- What the handler does on the session owes no signal. -/
theorem owed_perform (b : Backend) (s : State) (d : SessionDuty) (r : RunId) :
    owed r (d.perform b s).2 = 0 := by
  refine List.countP_eq_zero.2 fun e he hsignals => ?_
  obtain rfl := Duty.eq_of_signals hsignals
  cases SessionDuty.assigned_of_mem_perform he rfl with
  | opening _ hd => simp at hd
  | giveUp hd => simp [abandon] at hd

/-- What the handler does on a run owes no signal to another one. -/
theorem owed_of_stroke {b : Backend} {s : State} {r r' : RunId} {run : Run} {d : Duty}
    {done : Done} (hown : d.BelongsTo .handler) (hd : d.stroke? b s r run = some done)
    (hne : r ≠ r') : owed r' done.next = 0 := by
  refine List.countP_eq_zero.2 fun e he hsignals => ?_
  obtain rfl := Duty.eq_of_signals hsignals
  exact Duty.subject_ne_of_mem_next hown hd hne he rfl

theorem Run.Balanced.of_opens {b : Backend} {s : State} {run : Run} (h : s.Opens b run)
    (r : RunId) : run.Balanced r 0 0 0 := by
  cases h with
  | opened =>
    refine ⟨Nat.le_refl 0, fun _ => rfl, fun _ => rfl, nofun, ?_, fun _ _ => rfl⟩
    exact fun _ hs => absurd hs (not_atStop_of_nil rfl)

namespace State.Balanced

variable {b : Backend} {es : List (State × Party)} {s t : State}

/-- What the handler does on the session keeps the runs balanced, and so is one it opens. -/
theorem of_session {d : SessionDuty} {ds : List Duty} (h : s.Balanced es)
    (hs : s.handler = .session d :: ds)
    (ht : t = { (d.perform b { s with handler := ds }).1 with
      handler := (d.perform b { s with handler := ds }).2 ++ ds }) :
    t.Balanced (es ++ [(s, .handler)]) := by
  subst ht
  have howed (r : RunId) :
      owed r ((d.perform b { s with handler := ds }).2 ++ ds) = owed r s.handler := by
    simp [hs, owed_perform, Duty.signals]
  have haccepts (r : RunId) : acceptsResume r (s, .handler) = false := by
    simp [acceptsResume, hs]
  have hkeep {r : RunId} {run : Run} (hr : s.runs[r]? = some run) : run.Balanced r
      (owed r ((d.perform b { s with handler := ds }).2 ++ ds))
      (acceptedResumes r (es ++ [(s, .handler)])) (leftParks r (es ++ [(s, .handler)])) := by
    rw [howed, acceptedResumes_concat, leftParks_concat, haccepts]
    exact h.runs hr
  have hnone {r : RunId} (hr : s.runs[r]? = Option.none) :
      owed r ((d.perform b { s with handler := ds }).2 ++ ds) = 0 ∧
        acceptedResumes r (es ++ [(s, .handler)]) = 0 ∧
        leftParks r (es ++ [(s, .handler)]) = 0 := by
    rw [howed, acceptedResumes_concat, leftParks_concat, haccepts]
    exact h.none hr
  rcases d.runs_cases b { s with handler := ds } with hruns | ⟨run, hopens, hruns⟩
  · refine ⟨fun hr => ?_, fun hr => ?_⟩
    · simp only [hruns] at hr
      exact hkeep hr
    · simp only [hruns] at hr
      exact hnone hr
  · refine ⟨fun {r run'} hr => ?_, fun {r} hr => ?_⟩
    · simp only [hruns, List.getElem?_append] at hr
      split at hr
      · exact hkeep hr
      next hge =>
        obtain rfl : run' = run := by
          have hmem := List.mem_of_getElem? hr
          simpa using hmem
        obtain ⟨ho, ha, hl⟩ := hnone (r := r) (List.getElem?_eq_none (Nat.le_of_not_lt hge))
        rw [ho, ha, hl]
        exact .of_opens hopens r
    · simp only [hruns, List.getElem?_eq_none_iff, List.length_append] at hr
      exact hnone (List.getElem?_eq_none (Nat.le_trans (Nat.le_add_right _ _) hr))

/-- A step that changes one run keeps the others balanced when it counts for none of them. -/
theorem of_setRun {p : Party} {r : RunId} {run run' : Run} (h : s.Balanced es)
    (hr : s.runs[r]? = some run) (hruns : t.runs = (s.setRun r run').runs)
    (hrun : run'.Balanced r (owed r t.handler)
      (acceptedResumes r es + if acceptsResume r (s, p) then 1 else 0)
      (leftParks r es + if leavesPark r (s, p) then 1 else 0))
    (howed : ∀ r', r ≠ r' → owed r' t.handler = owed r' s.handler)
    (haccepts : ∀ r', r ≠ r' → acceptsResume r' (s, p) = false)
    (hleaves : ∀ r', r ≠ r' → leavesPark r' (s, p) = false) : t.Balanced (es ++ [(s, p)]) := by
  have hlt : r < s.runs.length := (List.getElem?_eq_some_iff.1 hr).1
  refine ⟨fun hr' => ?_, fun {r'} hr' => ?_⟩
  · rw [acceptedResumes_concat, leftParks_concat]
    rcases getElem?_setRun (hruns ▸ hr') with ⟨rfl, rfl⟩ | ⟨hne, hr'⟩
    · exact hrun
    · rw [howed _ hne, haccepts _ hne, hleaves _ hne]
      exact h.runs hr'
  · have hne : r ≠ r' := by
      rintro rfl
      simp [hruns, setRun, hlt] at hr'
    have hr' : s.runs[r']? = Option.none := by simpa [hruns, setRun, hne] using hr'
    rw [acceptedResumes_concat, leftParks_concat, howed _ hne, haccepts _ hne, hleaves _ hne]
    exact h.none hr'

theorem of_stride {p : Party} (h : s.Balanced es) (horder : s.Orderly) (hst : s.Stride b t p) :
    t.Balanced (es ++ [(s, p)]) := by
  cases hst with
  | session hs ht => exact h.of_session hs ht
  | @handler r run d ds done hs hsub hr hd ht =>
    subst ht
    refine h.of_setRun hr rfl ?_ (fun r' hne => ?_) (fun r' hne => ?_) fun r' _ => rfl
    · exact (h.runs hr).of_handler horder hs hsub hr hd
    · have hsignals : d.signals r' = false := Bool.eq_false_iff.2 fun hsignals => by
        obtain rfl := Duty.eq_of_signals hsignals
        exact hne (Option.some.inj hsub).symm
      simp [hs, owed_of_stroke (horder.belongsTo hs) hd hne, hsignals]
    · simp only [acceptsResume, hs]
      split
      next r'' _ _ _ _ heq _ =>
        obtain ⟨rfl, -⟩ := List.cons.inj heq
        obtain rfl : r'' = r := Option.some.inj hsub
        simp [hne]
      · rfl
  | @starter r run d ds done hs hr hd ht =>
    subst ht
    refine h.of_setRun hr rfl ?_ (fun _ _ => rfl) (fun _ _ => rfl) fun _ _ => rfl
    exact (h.runs hr).of_starter (horder.runs hr) hs hd
  | @thread r run d ds done hs hr hd ht =>
    subst ht
    refine h.of_setRun hr rfl ?_ (fun _ _ => rfl) (fun _ _ => rfl) fun r' hne => ?_
    · exact (h.runs hr).of_thread (horder.runs hr) hr hs hd
    · simp only [leavesPark]
      repeat' split
      all_goals simp [hne]

theorem of_accept {i : Input} (h : s.Balanced es) : (s.accept i).Balanced es := by
  have howed (r : RunId) : owed r (s.accept i).handler = owed r s.handler := by
    cases i <;> simp [accept, Duty.signals]
  have hruns : (s.accept i).runs = s.runs := by cases i <;> rfl
  refine ⟨fun hr => ?_, fun hr => ?_⟩
  · rw [howed]
    exact h.runs (hruns ▸ hr)
  · rw [howed]
    exact h.none (hruns ▸ hr)

theorem of_givenUp {r : RunId} {run run' : Run} (h : s.Balanced es) (hr : s.runs[r]? = some run)
    (hgive : run.GivenUp run') : (s.setRun r run').Balanced es := by
  refine ⟨fun hr' => ?_, fun {r'} hr' => h.none (by simpa [setRun] using hr')⟩
  rcases getElem?_setRun hr' with ⟨rfl, rfl⟩ | ⟨-, hr'⟩
  case inr => exact h.runs hr'
  have hrun := h.runs hr
  cases hgive with
  | closeContext => exact hrun.of_close
  | terminate hclosed => exact hrun.of_closed hclosed rfl
  | _ => exact hrun.of_run rfl rfl .rfl

end State.Balanced

theorem State.Path.balanced {b : Backend} {es : List (State × Party)} {s : State}
    (h : Path b {} es s) : s.Balanced es := by
  induction h with
  | refl => exact ⟨by simp, by simp [acceptedResumes, leftParks]⟩
  | step hpath hp ih =>
    have horder := hpath.orderly orderly_empty
    exact ih.of_stride horder (horder.stride hp)
  | accept i _ _ ih => exact ih.of_accept
  | giveUp _ hr hgive ih => exact ih.of_givenUp hr hgive

/-- Whether the thread of run `r` waits at the rendezvous. -/
def Run.IsParked (r : RunId) (run : Run) : Prop :=
  ∃ ds, run.thread = .thread r .park :: ds

theorem Run.Orderly.atStop {r : RunId} {hs : List Duty} {run : Run} (h : run.Orderly r hs)
    (hparked : run.IsParked r) : run.AtStop r := by
  obtain ⟨ds, hthread⟩ := hparked
  have hplan := h.thread
  rw [hthread] at hplan
  generalize decide (run.lock = some (.thread r)) = holds at hplan
  cases hplan with
  | last => simp [AtStop, hthread]

/-- Whoever takes which step, and whoever gives up the run : there is at most one permit, a parked
thread without one waits for a client that was told so or for a signal that is owed, and the parks
that were left are the requests that were accepted, but for a signal under way. A stop begins with
no signal under way. -/
theorem resumes_balance {b : Backend} {es : List (State × Party)} {s : State} {r : RunId}
    {run : Run} (h : State.Path b {} es s) (hr : s.runs[r]? = some run) :
    run.context.rendezvous.permits ≤ 1 ∧
      (run.IsParked r → run.context.rendezvous.permits = 0 → run.context.isClosed = false →
        run.phase = .paused ∨ 0 < owed r s.handler) ∧
      leftParks r es ≤ acceptedResumes r es ∧
      (run.context.isClosed = false → owed r s.handler = 0 →
        run.context.rendezvous.permits = 0 → leftParks r es = acceptedResumes r es) ∧
      (run.context.isClosed = false → .thread r .markPaused ∈ run.thread →
        run.context.rendezvous.permits = 0 ∧ owed r s.handler = 0) := by
  have hbalanced := h.balanced.runs hr
  refine ⟨?_, fun hparked hpermits hopen => ?_, hbalanced.left_le, fun hopen howed hpermits => ?_,
    fun hopen hmark => ?_⟩
  · cases hclosed : run.context.isClosed with
    | true =>
      rw [hbalanced.closed hclosed]
      exact Nat.zero_le 1
    | false => exact Nat.le_trans (Nat.le_add_right _ _) (hbalanced.pending_le hclosed)
  · by_cases hphase : run.phase = .paused
    · exact .inl hphase
    · have hstop := ((h.orderly State.orderly_empty).runs hr).atStop hparked
      have hone := hbalanced.one hopen hstop hphase
      exact .inr (by omega)
  · have hbalance := hbalanced.balance hopen
    omega
  · have hnone := hbalanced.none hopen fun hstop => absurd hmark hstop.2
    omega

/-- A backend with one script, which is started at once. -/
def promptBackend : Backend where
  library := .table [("a", ⟨"return 1", "a", {}⟩)]
  settings := { startTimeout := 0 }
  crashText := ""

open State (asked taken) in
/-- A script is asked to pause and stops at its first statement. -/
def stopOnce : List State.Turn :=
  asked "launch" (.object [("path", .string "a")]) :: taken 6 .handler ++ taken 10 (.starter 0) ++
    asked "pause" .null :: taken 6 .handler ++ taken 16 (.thread 0)

open State (asked taken) in
/-- A script that stopped is let go on. -/
def goOnOnce : List State.Turn :=
  stopOnce ++ asked "continue" .null :: taken 7 .handler ++ taken 1 (.thread 0)

theorem resumes_balance_goOnOnce : ∃ es s run, State.Path promptBackend {} es s ∧
    s.runs[0]? = some run ∧ acceptedResumes 0 es = 1 ∧ leftParks 0 es = 1 := by
  have hwalk : (({} : State).walk? promptBackend goOnOnce).any (fun w => w.2.runs[0]?.any fun run =>
      acceptedResumes 0 w.1 == 1 && !run.context.isClosed && owed 0 w.2.handler == 0 &&
        run.context.rendezvous.permits == 0) = true := by decide +kernel
  obtain ⟨⟨es, s⟩, hw, hrun⟩ := (Option.any_eq_true ..).1 hwalk
  obtain ⟨run, hr, hfacts⟩ := (Option.any_eq_true ..).1 hrun
  simp only [Bool.and_eq_true, beq_iff_eq, Bool.not_eq_true'] at hfacts
  obtain ⟨⟨⟨haccepted, hopen⟩, howed⟩, hpermits⟩ := hfacts
  have hpath : State.Path promptBackend {} es s := State.Path.refl.walk hw
  have hbalance := (resumes_balance hpath hr).2.2.2.1 hopen howed hpermits
  exact ⟨es, s, run, hpath, hr, haccepted, hbalance.trans haccepted⟩

end DebugAdapter.Session
