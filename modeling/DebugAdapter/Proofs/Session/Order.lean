import DebugAdapter.Proofs.Session.SessionStep
import DebugAdapter.Proofs.Session.ThreadStep
/-!
# Agendas stay in order

Whatever the parties of a session do, their agendas stay in order (`State.Path.orderly`), so each
party only has duties of its own and its steps are strides (`State.Path.stride`).
-/

namespace DebugAdapter.Session

/-! ## Steps of the handler -/

/-- A thread that has nothing to do holds no lock. -/
theorem ThreadPlan.holds_of_nil {r : RunId} {holds : Bool} (h : ThreadPlan r holds []) :
    holds = false := by
  cases h
  rfl

theorem Run.Orderly.of_runDuty {r : RunId} {run : Run} {d : RunDuty} {ds : List Duty} {done : Done}
    (h : run.Orderly r (.run r d :: ds)) (hplan : (Duty.run r d).Precedes ds)
    (hd : d.perform? r run = some done) : done.run.Orderly r (done.next ++ ds) := by
  have hclosed := h.closed
  cases d <;> simp only [RunDuty.perform?] at hd <;> (repeat' split at hd) <;> cases hd
  case unlock =>
    have hlock : run.lock = some .handler := h.lock.2 (by simp)
    have hnot := hplan.2 r
    refine ⟨h.starter, ?_, h.statement, ?_, ?_, ?_, ?_, ?_, fun he => absurd he (hplan.1 r)⟩
    · simpa [hlock] using h.thread
    · simpa using hnot
    · simpa using h.unstarted
    · simpa using h.spawner
    · simpa using h.spawned
    · simpa using h.scheduled
  case closeContext =>
    have hrun : Run.Orderly r _ { run with context := run.context.close } :=
      h.of_run rfl rfl rfl rfl rfl fun _ => rfl
    exact hrun.of_agenda (by simp) (by simp) (by simp) fun _ => rfl
  case claimStart.isFalse hs =>
    obtain rfl : ds = [] := hplan
    obtain ⟨hthread, -, hstarter⟩ := h.unstarted (by simpa using hs)
    refine ⟨h.starter, h.thread, h.statement, ?_, ?_, fun _ => hstarter, fun _ => hthread, ?_, ?_⟩
    · simpa using h.lock
    · simp
    · simp
    · simp
  case spawn =>
    obtain rfl : ds = [] := hplan
    have hnil : run.thread = [] := h.spawned (.inl (by simp))
    have hthread := h.thread
    rw [hnil] at hthread
    have hout := hthread.holds_of_nil
    refine ⟨h.starter, ?_, ?_, ?_, ?_, ?_, ?_, ?_, ?_⟩
    · rw [hout]
      exact .emit _ (.last rfl rfl)
    · simp [ThreadDuty.mayEnd]
    · simpa using h.lock
    · intro hs
      exact absurd (by simp) (h.unstarted hs).2.1
    · simp
    · simpa using h.spawner (by simp)
    · simp
    · simp
  case schedule =>
    obtain ⟨m, rfl⟩ := hplan
    have hs := (h.scheduled (by simp)).1
    obtain ⟨hthread, -, -⟩ := h.unstarted hs
    refine ⟨.look _, h.thread, h.statement, ?_, fun _ => ⟨hthread, ?_, ?_⟩, ?_, ?_, ?_, ?_⟩
    · simpa using h.lock
    all_goals simp
  case setPhase phase hfree =>
    have hends := hplan.not_endsRun (by simp) r
    refine .of_run (h.of_agenda ?_ ?_ ?_ fun he => absurd he hends) rfl rfl rfl rfl rfl id
    all_goals simp +contextual
  case setLines =>
    have hends := hplan.not_endsRun (by simp) r
    refine .of_run (h.of_agenda ?_ ?_ ?_ fun he => absurd he hends) rfl rfl rfl rfl rfl id
    all_goals simp +contextual
  all_goals
    refine Run.Orderly.of_run (h.of_agenda ?_ ?_ ?_ ?_) rfl rfl rfl rfl rfl ?_ <;>
      simp_all [Duty.Precedes, Duty.isLast, Context.isClosed, Context.signal, Rendezvous.signal]

/-- The handler takes a free lock when it is about to release it. -/
theorem Run.Orderly.of_locked {r : RunId} {run : Run} {hs hs' : List Duty} (h : run.Orderly r hs)
    (hfree : run.isFree = true) (hunlock : .run r .unlock ∈ hs')
    (hspawn : .run r .spawn ∈ hs' → .run r .spawn ∈ hs)
    (hschedule : .run r .schedule ∈ hs' → .run r .schedule ∈ hs) (hends : ¬EndsRun r hs') :
    Run.Orderly r hs' { run with lock := some .handler } where
  starter := h.starter
  thread := by
    have hnone : run.lock = none := by simpa [Run.isFree] using hfree
    simpa [hnone] using h.thread
  statement := h.statement
  lock := by simpa using hunlock
  unstarted hs := ⟨(h.unstarted hs).1, fun hm => (h.unstarted hs).2.1 (hspawn hm),
    (h.unstarted hs).2.2⟩
  spawner hm := h.spawner (hspawn hm)
  spawned hm := h.spawned (hm.imp_left hspawn)
  scheduled hm := h.scheduled (hschedule hm)
  closed he := absurd he hends

theorem not_mem_of_isAside {ds : List Duty} (h : ∀ d ∈ ds, d.isAside = true) (r : RunId)
    (d : RunDuty) : .run r d ∉ ds :=
  fun hm => Bool.false_ne_true (h _ hm)

theorem not_endsRun_of_isAside {ds : List Duty} (h : ∀ d ∈ ds, d.isAside = true) (r : RunId) :
    ¬EndsRun r ds := by
  rintro ⟨ds', rfl⟩
  exact not_mem_of_isAside h r (.setPhase .terminated) (by simp)

theorem Run.Orderly.of_requestDuty {b : Backend} {r : RunId} {run : Run} {d : RequestDuty}
    {done : Done} (h : run.Orderly r [.request r d]) (hd : d.perform? b r run = some done) :
    done.run.Orderly r done.next := by
  -- Only a lock that is taken, in `skip` and `pause`, matters to the order.
  cases RequestDuty.leads_of_perform? hd with
  | look _ hnext _ | assign _ _ hnext =>
    have hnot := not_mem_of_isAside hnext r
    refine Run.Orderly.of_run (h.of_agenda ?_ ?_ ?_ fun he => ?_) rfl rfl rfl rfl rfl id
    · simp [hnot]
    · simp [hnot]
    · simp [hnot]
    · exact absurd he (not_endsRun_of_isAside hnext r)
  | start | release =>
    refine Run.Orderly.of_run (h.of_agenda ?_ ?_ ?_ ?_) rfl rfl rfl rfl rfl id <;> simp [answer]
  | skip request how hfree | pause request hfree =>
    refine (h.of_locked hfree ?_ ?_ ?_ ?_).of_run rfl rfl rfl rfl rfl id <;> simp [answer]

/-! ## Other runs -/

/-- What a duty of the handler on a run leads to is about that run or about none. -/
theorem Duty.subject_of_mem_next {b : Backend} {s : State} {r : RunId} {run : Run} {d : Duty}
    {done : Done} (hown : d.BelongsTo .handler) (hd : d.stroke? b s r run = some done) {e : Duty}
    (he : e ∈ done.next) : e.subject? = none ∨ e.subject? = some r := by
  cases d with
  | session d => cases hd
  | starter _ d | thread _ d => exact hown.elim
  | run r' d =>
    cases d <;> simp only [Duty.stroke?, RunDuty.perform?] at hd <;> (repeat' split at hd) <;>
      cases hd <;> grind [Duty.subject?]
  | request r' d =>
    cases d <;>
      simp only [Duty.stroke?, RequestDuty.perform?, resumeStep, pauseStep, assignStep, listStep,
        evaluateStep, answer, refuse, answerCrash] at hd <;>
      (repeat' split at hd) <;>
      cases hd <;> grind [Duty.subject?, mem_continuedDuties]

theorem Duty.subject_ne_of_mem_next {b : Backend} {s : State} {r r' : RunId} {run : Run} {d : Duty}
    {done : Done} (hown : d.BelongsTo .handler) (hd : d.stroke? b s r run = some done)
    (hne : r ≠ r') {e : Duty} (he : e ∈ done.next) : e.subject? ≠ some r' := by
  rcases subject_of_mem_next hown hd he with hsub | hsub <;> simp [hsub, hne]

/-- A run is in order whatever the handler does to another one. -/
theorem Run.Orderly.of_other {r r' : RunId} {run : Run} {d : Duty} {ds next : List Duty}
    (h : run.Orderly r (d :: ds)) (hplan : d.Precedes ds) (hsub : d.subject? = some r')
    (hne : r' ≠ r) (hnext : ∀ e ∈ next, e.subject? = none ∨ e.subject? = some r') :
    run.Orderly r (next ++ ds) := by
  have hnot {e : Duty} (he : e.subject? = some r) : e ∉ next := by
    intro hm
    rcases hnext e hm with h | h
    · simp [he] at h
    · exact hne (Option.some.inj (h.symm.trans he))
  have hhead {e : Duty} (he : e.subject? = some r) : e ≠ d := by
    rintro rfl
    exact hne (Option.some.inj (hsub.symm.trans he))
  have hmem {e : Duty} (he : e.subject? = some r) : e ∈ next ++ ds ↔ e ∈ d :: ds := by
    simp [hnot he, hhead he]
  refine h.of_agenda (hmem rfl) (hmem rfl).1 (hmem rfl).1 ?_
  rintro ⟨ds', hends⟩
  cases next with
  | cons e next =>
    obtain ⟨rfl, -⟩ := List.cons.inj hends
    exact absurd (by simp) (hnot (e := .run r (.setPhase .terminated)) rfl)
  | nil =>
    by_cases hclose : d = .run r' .closeContext
    · subst hclose
      obtain ⟨ds'', hplan⟩ := hplan
      obtain ⟨heq, -⟩ := List.cons.inj (hplan.symm.trans hends)
      cases heq
      exact absurd rfl hne
    · have hclose' (r'' : RunId) : d ≠ .run r'' .closeContext := by
        rintro rfl
        cases hsub
        exact hclose rfl
      exact absurd ⟨ds', hends⟩ (hplan.not_endsRun hclose' r)

/-! ## Steps on the session -/

/-- A run is in order whatever the handler does to the session. -/
theorem Run.Orderly.of_mild {r : RunId} {run : Run} {d : SessionDuty} {ds next : List Duty}
    (h : run.Orderly r (.session d :: ds)) (hplan : (Duty.session d).Precedes ds)
    (hnext : Mild next) : run.Orderly r (next ++ ds) := by
  have hmem {e : RunDuty} (he : (Duty.run r e).isPlain = false) :
      .run r e ∈ next ++ ds ↔ .run r e ∈ .session d :: ds := by
    have hnot : .run r e ∉ next := by
      intro hm
      simp [hnext.plain _ hm] at he
    simp [hnot]
  refine h.of_agenda (hmem rfl) (hmem rfl).1 (hmem rfl).1 fun hends => ?_
  cases next with
  | nil => exact absurd hends (hplan.not_endsRun (by simp) r)
  | cons e next => exact absurd ((endsRun_cons ..).2 ((endsRun_cons ..).1 hends)) (hnext.notEnds r)

theorem State.Orderly.of_session {b : Backend} {s : State} {d : SessionDuty} {ds : List Duty}
    (h : s.Orderly) (hs : s.handler = .session d :: ds) {r : RunId} {run : Run}
    (hrun : (d.perform b { s with handler := ds }).1.runs[r]? = some run) :
    run.Orderly r ((d.perform b { s with handler := ds }).2 ++ ds) := by
  have hplan : (Duty.session d).Precedes ds := (hs ▸ h.handler).1
  have hold {r : RunId} {run : Run} (hrun : s.runs[r]? = some run) :
      run.Orderly r (.session d :: ds) := hs ▸ h.runs hrun
  by_cases hopen : ∃ request args, d = .openRun request args
  · obtain ⟨request, args, rfl⟩ := hopen
    have hds : ds = [] := hplan
    subst hds
    rcases State.prepare_cases b { s with handler := [] } request args with
      ⟨ds, haside, heq⟩ | ⟨id, script, program, -, -, -, heq⟩
    · simp only [SessionDuty.perform, heq] at hrun ⊢
      exact (hold hrun).of_mild hplan (mild_of_isAside haside)
    · simp only [SessionDuty.perform, heq, State.openRun, List.append_nil] at hrun ⊢
      rw [List.getElem?_append] at hrun
      split at hrun
      next hlt =>
        refine (hold hrun).of_agenda ?_ ?_ ?_ ?_ <;> simp [answer, Nat.ne_of_lt hlt]
      next hge =>
        have hlast : r - s.runs.length < 1 := (List.getElem?_eq_some_iff.1 hrun).1
        obtain rfl : r = s.runs.length := Nat.le_antisymm
          (Nat.sub_eq_zero_iff_le.1 (Nat.lt_one_iff.1 hlast)) (Nat.le_of_not_lt hge)
        simp only [Nat.sub_self, List.getElem?_cons_zero] at hrun
        obtain rfl := Option.some.inj hrun
        refine ⟨.done, .out, ?_, ?_, ?_, ?_, ?_, ?_, ?_⟩ <;> simp [answer]
  · have hopen' (request args) : d ≠ .openRun request args := fun heq =>
      hopen ⟨request, args, heq⟩
    rw [SessionDuty.runs_of_perform hopen'] at hrun
    exact (hold hrun).of_mild hplan (SessionDuty.mild_of_perform hopen')

/-! ## Steps of the starter and of the thread -/

/-- While it waits, a starter leaves its run alone. -/
theorem StarterDuty.plan_of_perform? {b : Backend} {s : State} {r : RunId} {run : Run}
    {d : StarterDuty} {done : Done} (hd : d.perform? b s r run = some done) :
    done.run = run ∧ StarterPlan r done.next ∧ .run r .spawn ∉ done.next := by
  cases d with
  | begin =>
    obtain rfl := Option.some.inj hd
    exact ⟨rfl, .look _, by simp⟩
  | lookRun deadline =>
    obtain rfl := Option.some.inj hd
    refine ⟨rfl, ?_⟩
    dsimp only
    split
    · exact ⟨.done, by simp⟩
    · exact ⟨.look _, by simp⟩
  | lookEntry deadline =>
    obtain rfl := Option.some.inj hd
    refine ⟨rfl, ?_⟩
    dsimp only
    split
    · exact ⟨.startIfLive, by simp⟩
    · exact ⟨.look _, by simp⟩
  | lookClock deadline =>
    simp only [perform?] at hd
    split at hd <;> obtain rfl := Option.some.inj hd
    · exact ⟨rfl, .late _, by simp⟩
    · exact ⟨rfl, .look _, by simp⟩
  | sleep wake deadline =>
    simp only [perform?] at hd
    split at hd
    · obtain rfl := Option.some.inj hd
      exact ⟨rfl, .done, by simp⟩
    · split at hd
      · obtain rfl := Option.some.inj hd
        exact ⟨rfl, .look _, by simp⟩
      · cases hd

theorem Run.Orderly.of_starter {b : Backend} {s : State} {r : RunId} {hs : List Duty} {run : Run}
    {d : Duty} {ds : List Duty} {done : Done} (h : run.Orderly r hs)
    (hstarter : run.starter = d :: ds)
    (hd : d.stroke? b s r { run with starter := ds } = some done) :
    Run.Orderly r hs { done.run with starter := done.next ++ done.run.starter } := by
  have hscheduled : .run r .schedule ∉ hs := fun hm => by simp [(h.scheduled hm).2] at hstarter
  -- Only `claim` and `spawn` do more than to look or to send.
  have hquiet {run' : Run} (hplan : StarterPlan r run'.starter)
      (hspawn : .run r .spawn ∈ run'.starter ↔ .run r .spawn ∈ run.starter)
      (hthread : run'.thread = run.thread) (hrest : run'.rest = run.rest)
      (hlock : run'.lock = run.lock) (hstarted : run'.started = run.started)
      (hcontext : run'.context = run.context) : run'.Orderly r hs := by
    refine ⟨hplan, ?_, ?_, ?_, ?_, ?_, ?_, fun hm => absurd hm hscheduled, ?_⟩
    · rw [hthread, hlock]
      exact h.thread
    · rw [hthread, hrest]
      exact h.statement
    · rw [hlock]
      exact h.lock
    · rw [hthread, hstarted, hspawn]
      exact h.unstarted
    · rw [hspawn]
      exact h.spawner
    · rw [hspawn, hthread]
      exact h.spawned
    · rw [hcontext]
      exact h.closed
  have hplan := h.starter
  rw [hstarter] at hplan
  cases hplan with
  | look d =>
    obtain ⟨hrun, hplan, hspawn⟩ := StarterDuty.plan_of_perform? hd
    refine hquiet ?_ ?_ (by rw [hrun]) (by rw [hrun]) (by rw [hrun]) (by rw [hrun]) (by rw [hrun])
    · simpa [hrun] using hplan
    · simpa [hrun, hstarter] using hspawn
  | late e =>
    obtain rfl := Option.some.inj hd
    exact hquiet .startIfLive (by simp [hstarter]) rfl rfl rfl rfl rfl
  | startIfLive =>
    obtain rfl := Option.some.inj hd
    refine hquiet ?_ (by simp [hstarter]) rfl rfl rfl rfl rfl
    cases hlive : run.isLive with
    | true => simpa [hlive] using .claim
    | false => simpa [hlive] using .done
  | claim =>
    simp only [Duty.stroke?, RunDuty.perform?] at hd
    split at hd
    · obtain rfl := Option.some.inj hd
      exact hquiet .done (by simp [hstarter]) rfl rfl rfl rfl rfl
    next hs =>
      obtain rfl := Option.some.inj hd
      obtain ⟨hthread, hspawn, -⟩ := h.unstarted (by simpa using hs)
      refine ⟨.cancel, h.thread, h.statement, h.lock, ?_, ?_, fun _ => hthread, ?_, h.closed⟩
      · simp
      · exact fun hm => absurd hm hspawn
      · exact fun hm => absurd hm hscheduled
  | cancel =>
    obtain rfl := Option.some.inj hd
    exact hquiet .running (by simp [hstarter]) rfl rfl rfl rfl rfl
  | running =>
    simp only [Duty.stroke?, RunDuty.perform?] at hd
    split at hd
    · obtain rfl := Option.some.inj hd
      exact hquiet .spawn (by simp [hstarter]) rfl rfl rfl rfl rfl
    · cases hd
  | spawn =>
    obtain rfl := Option.some.inj hd
    have hmem : .run r .spawn ∈ run.starter := by simp [hstarter]
    have hnot : .run r .spawn ∉ hs := fun hm => h.spawner hm hmem
    have hthread := h.thread
    rw [h.spawned (.inr hmem)] at hthread
    have hout := hthread.holds_of_nil
    refine ⟨.done, ?_, ?_, h.lock, ?_, ?_, ?_, ?_, h.closed⟩
    · rw [hout]
      exact .emit _ (.last rfl rfl)
    · simp [ThreadDuty.mayEnd]
    · intro hs
      exact absurd hmem (h.unstarted hs).2.2
    · simp
    · simp [hnot]
    · exact fun hm => absurd hm hscheduled

theorem Run.Orderly.of_thread {b : Backend} {s : State} {r : RunId} {hs : List Duty} {run : Run}
    {d : Duty} {ds : List Duty} {done : Done} (h : run.Orderly r hs)
    (hthread : run.thread = d :: ds)
    (hd : d.stroke? b s r { run with thread := ds } = some done) :
    Run.Orderly r hs { done.run with thread := done.next ++ done.run.thread } := by
  have hstarted : run.started = true := by
    cases hs : run.started with
    | true => rfl
    | false => simp [(h.unstarted hs).1] at hthread
  have hspawn : ¬(.run r .spawn ∈ hs ∨ .run r .spawn ∈ run.starter) := fun hm => by
    simp [h.spawned hm] at hthread
  have hmove {run' : Run} (hplan : ThreadPlan r (run'.lock = some (.thread r)) run'.thread)
      (hrest : run'.rest = [] → ∀ d, .thread r d ∈ run'.thread → d.mayEnd = true)
      (hstarter : run'.starter = run.starter) (hstarted' : run'.started = run.started)
      (hlock : run'.lock = some .handler ↔ run.lock = some .handler)
      (hclosed : run'.context.isClosed = run.context.isClosed) : run'.Orderly r hs := by
    refine ⟨?_, hplan, hrest, hlock.trans h.lock, ?_, ?_, ?_, ?_, ?_⟩
    · rw [hstarter]
      exact h.starter
    · simp [hstarted', hstarted]
    · rw [hstarter]
      exact h.spawner
    · rw [hstarter]
      exact fun hm => absurd hm hspawn
    · rw [hstarter, hstarted']
      exact h.scheduled
    · rw [hclosed]
      exact h.closed
  -- Some duties of the thread lead to what is before it anyway.
  have hpass {d : ThreadDuty} (hlast : d.isLast = false) (hrest : run.rest ≠ [])
      (hplan : ThreadPlan r (run.lock = some (.thread r)) ds)
      (hd : d.perform? b s r { run with thread := ds } = some done) :
      Run.Orderly r hs { done.run with thread := done.next ++ done.run.thread } := by
    obtain ⟨hnext, hlock, hrest'⟩ := ThreadDuty.next_of_not_isLast hlast (by exact hrest) hd
    have hkept := (ThreadDuty.leaves_of_perform? hd).kept
    refine hmove ?_ ?_ hkept.starter hkept.started hkept.lock hkept.closed
    · simpa [hnext, hkept.thread, hlock] using hplan
    · intro hnil
      exact absurd (hrest'.symm.trans hnil) hrest
  have hplan := h.thread
  have hstatement := h.statement
  rw [hthread] at hplan hstatement
  generalize hholds : decide (run.lock = some (.thread r)) = holds at hplan
  cases hplan with
  | emit e hplan =>
    obtain rfl := Option.some.inj hd
    exact hmove (hholds ▸ hplan) (fun hnil d hm => hstatement hnil d (by simp_all)) rfl rfl .rfl rfl
  | unlock hplan =>
    obtain rfl := Option.some.inj hd
    have hlock : run.lock = some (.thread r) := by simpa using hholds
    exact hmove (by simpa using hplan) (fun hnil d hm => hstatement hnil d (by simp_all)) rfl rfl
      (by simp [hlock]) rfl
  | finish =>
    simp only [Duty.stroke?, RunDuty.perform?] at hd
    split at hd
    · obtain rfl := Option.some.inj hd
      exact hmove (hholds ▸ .claim) (by simp) rfl rfl .rfl rfl
    · cases hd
  | claim =>
    simp only [Duty.stroke?, RunDuty.perform?] at hd
    split at hd <;> obtain rfl := Option.some.inj hd
    · exact hmove (hholds ▸ .out) (by simp) rfl rfl .rfl rfl
    · exact hmove (hholds ▸ .emit _ .out) (by simp) rfl rfl .rfl rfl
  | stall since hafter =>
    have hrest : run.rest ≠ [] := fun hnil => by cases hstatement hnil (.stall since) (by simp)
    exact hpass rfl hrest (by rcases hafter with rfl | rfl <;> exact hholds ▸ .last rfl rfl) hd
  | capture e e' =>
    have hrest : run.rest ≠ [] := fun hnil => by cases hstatement hnil .capture (by simp)
    exact hpass rfl hrest (hholds ▸ .markPaused e e') hd
  | markPaused e e' =>
    have hrest : run.rest ≠ [] := fun hnil => by cases hstatement hnil .markPaused (by simp)
    exact hpass rfl hrest (hholds ▸ .emit _ (.emit _ (.unlock (.last rfl rfl)))) hd
  | last hlast hholds' =>
    have hkept := (ThreadDuty.leaves_of_perform? hd).kept
    have hplan := ThreadPlan.of_last hlast (by exact hholds.trans hholds')
      (by exact fun hnil => hstatement hnil _ (by simp)) hd
    refine hmove ?_ ?_ hkept.starter hkept.started hkept.lock hkept.closed
    · simpa [hkept.thread] using hplan
    · intro hnil d hm
      simp only [hkept.thread, List.append_nil] at hm
      exact ThreadDuty.mayEnd_of_mem_next hd (by exact fun hnil => hstatement hnil _ (by simp))
        hnil hm

/-! ## Paths -/

/-- A party whose agenda is in order has duties of its own. -/
theorem State.Orderly.belongsTo {s : State} (h : s.Orderly) {p : Party} {d : Duty} {ds : List Duty}
    (hp : s.agenda p = d :: ds) : d.BelongsTo p := by
  cases p with
  | handler =>
    have hplan : HandlerPlan s.handler := h.handler
    rw [show s.handler = d :: ds from hp] at hplan
    cases d with
    | starter r d | thread r d => exact hplan.1.elim
    | _ => trivial
  | starter r =>
    cases hrun : s.runs[r]? with
    | none => simp [State.agenda, hrun] at hp
    | some run =>
      have hplan := (h.runs hrun).starter
      rw [show run.starter = d :: ds by simpa [State.agenda, hrun] using hp] at hplan
      cases hplan <;> rfl
  | thread r =>
    cases hrun : s.runs[r]? with
    | none => simp [State.agenda, hrun] at hp
    | some run =>
      have hplan := (h.runs hrun).thread
      rw [show run.thread = d :: ds by simpa [State.agenda, hrun] using hp] at hplan
      generalize decide (run.lock = some (.thread r)) = holds at hplan
      cases hplan <;> rfl

theorem State.Orderly.stride {b : Backend} {s t : State} {p : Party} (h : s.Orderly)
    (hp : s.advance? b p = some t) : s.Stride b t p := by
  refine stride_of_advance? (fun d hd => ?_) hp
  cases hds : s.agenda p with
  | nil => simp [hds] at hd
  | cons d' ds =>
    obtain rfl : d' = d := by simpa [hds] using hd
    exact h.belongsTo hds

/-- The runs of a session of which one run changed. -/
theorem State.getElem?_setRun {s : State} {r r' : RunId} {run run' : Run}
    (h : (s.setRun r run).runs[r']? = some run') :
    r = r' ∧ run = run' ∨ r ≠ r' ∧ s.runs[r']? = some run' := by
  have hlt : r' < (s.setRun r run).runs.length := (List.getElem?_eq_some_iff.1 h).1
  by_cases heq : r = r'
  · subst heq
    simp only [setRun, List.length_set] at hlt
    exact .inl ⟨rfl, by simpa [setRun, hlt] using h⟩
  · exact .inr ⟨heq, by simpa [setRun, heq] using h⟩

theorem State.exists_of_setRun {s : State} {r r' : RunId} {run run' : Run}
    (h : (s.setRun r' run').runs[r]? = some run) : ∃ run, s.runs[r]? = some run := by
  have hlt : r < s.runs.length := by
    simpa [setRun] using (List.getElem?_eq_some_iff.1 h).1
  exact ⟨_, List.getElem?_eq_getElem hlt⟩

theorem State.Orderly.of_stride {b : Backend} {s t : State} {p : Party} (h : s.Orderly)
    (hst : s.Stride b t p) : t.Orderly := by
  cases hst with
  | session hs ht =>
    subst ht
    have hplan := h.handler
    rw [hs] at hplan
    exact ⟨hplan.of_session b _, fun hrun => h.of_session hs hrun⟩
  | @handler r run d ds done hs hsub hr hd ht =>
    subst ht
    have hplan := h.handler
    rw [hs] at hplan
    refine ⟨hplan.of_stroke hsub hd, fun hr' => ?_⟩
    rcases State.getElem?_setRun hr' with ⟨rfl, rfl⟩ | ⟨hne, hr'⟩
    · have hrun := hs ▸ h.runs hr
      cases d with
      | session d => cases hd
      | starter _ d | thread _ d => exact hplan.1.elim
      | run r' d =>
        cases hsub
        exact hrun.of_runDuty hplan.1 hd
      | request r' d =>
        cases hsub
        obtain rfl : ds = [] := hplan.1
        simpa using hrun.of_requestDuty hd
    · have hown : d.BelongsTo .handler := h.belongsTo hs
      exact (hs ▸ h.runs hr').of_other hplan.1 hsub hne fun e he =>
        Duty.subject_of_mem_next hown hd he
  | starter hs hr hd ht =>
    subst ht
    refine ⟨h.handler, fun hr' => ?_⟩
    rcases State.getElem?_setRun hr' with ⟨rfl, rfl⟩ | ⟨-, hr'⟩
    · exact (h.runs hr).of_starter hs hd
    · exact h.runs hr'
  | thread hs hr hd ht =>
    subst ht
    refine ⟨h.handler, fun hr' => ?_⟩
    rcases State.getElem?_setRun hr' with ⟨rfl, rfl⟩ | ⟨-, hr'⟩
    · exact (h.runs hr).of_thread hs hd
    · exact h.runs hr'

/-- What comes from outside meets an agenda in order. -/
theorem State.Orderly.of_accept {s : State} {i : Input} (h : s.Orderly) (hi : s.Admits i) :
    (s.accept i).Orderly := by
  have hone (d : SessionDuty) (hs : s.handler = []) :
      State.Orderly { s with handler := s.handler ++ [.session d] } := by
    refine ⟨?_, fun hrun => ?_⟩
    · rw [hs]
      refine ⟨?_, trivial⟩
      cases d <;> simp [Duty.Precedes, Duty.isLast]
    · rw [hs]
      have hold := h.runs hrun
      rw [hs] at hold
      refine hold.of_agenda ?_ ?_ ?_ ?_ <;> simp
  cases i with
  | request request => exact hone _ hi
  | hangUp => exact hone _ hi
  | elapse | release => exact ⟨h.handler, h.runs⟩

theorem State.Orderly.of_givenUp {s : State} {r : RunId} {run run' : Run} (h : s.Orderly)
    (hr : s.runs[r]? = some run) (hgive : run.GivenUp run') : (s.setRun r run').Orderly := by
  refine ⟨h.handler, fun hr' => ?_⟩
  rcases State.getElem?_setRun hr' with ⟨rfl, rfl⟩ | ⟨-, hr'⟩
  case inr => exact h.runs hr'
  have hrun := h.runs hr
  cases hgive with
  | closeContext => exact hrun.of_run rfl rfl rfl rfl rfl fun _ => rfl
  | _ => exact hrun.of_run rfl rfl rfl rfl rfl id

/-- The agendas are in order in every state of every path. -/
theorem State.Path.orderly {b : Backend} {s t : State} {es : List (State × Party)}
    (h : Path b s es t) (hs : s.Orderly) : t.Orderly := by
  induction h with
  | refl => exact hs
  | step _ hp ih => exact ih.of_stride (ih.stride hp)
  | accept i _ hi ih => exact ih.of_accept hi
  | giveUp _ hr hgive ih => exact ih.of_givenUp hr hgive

end DebugAdapter.Session
