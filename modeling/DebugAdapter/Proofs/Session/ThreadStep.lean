import DebugAdapter.Proofs.Session.Agenda
/-!
# Steps of a thread

What a step of a thread makes of its run (`ThreadDuty.Leaves`), and that the thread keeps its agenda
in order (`ThreadPlan.of_last`).
-/

namespace DebugAdapter.Session

open Protocol (Event)

/-! ## What a step leaves -/

/-- What a duty of the thread of run `r` may make of the run. -/
inductive ThreadDuty.Leaves (r : RunId) (run : Run) : ThreadDuty → Run → Prop where
  | same (d : ThreadDuty) : Leaves r run d run
  | lock (hfree : run.isFree = true) :
      Leaves r run .lock { run with lock := some (.thread r) }
  | takePending : Leaves r run .takePending { run with pausePending := false }
  | capture (frames : List StackFrame) :
      Leaves r run .capture { run with snapshot := .capture run.vars frames }
  | markPaused : Leaves r run .markPaused { run with phase := .paused }
  | park {rendezvous : Rendezvous}
      (hwait : run.context.rendezvous.wait? = some (.signaled, rendezvous)) :
      Leaves r run .park { run with context := { run.context with rendezvous } }
  | takeOverrides : Leaves r run .takeOverrides { run with
      snapshot := run.snapshot.takeOverrides.2
      vars := run.vars.insertAll run.snapshot.takeOverrides.1 }
  | perform {stmt : Script.Statement} {rest : Script.Program} {vars : Json.Fields}
      (hrest : run.rest = stmt :: rest)
      (hvars : vars = run.vars ∨ stmt.action.perform run.vars = .proceed vars)
      (held : Channel → Bytes) : Leaves r run .perform { run with rest, vars, held }
  | conclude (ending : Ending) : Leaves r run (.conclude ending) { run with held := fun _ => [] }

theorem ThreadDuty.leaves_of_performIdle? {s : State} {r : RunId} {run : Run} {d : ThreadDuty}
    {done : Done} (hd : d.performIdle? s r run = some done) : d.Leaves r run done.run := by
  cases d <;> simp only [performIdle?] at hd <;> (repeat' split at hd) <;> cases hd
  case lock.isTrue hfree => exact .lock hfree
  case takePending => exact .takePending
  case markPaused => exact .markPaused
  case h_3 hw => exact .park hw
  case takeOverrides => exact .takeOverrides
  case conclude => exact .conclude _
  all_goals exact .same _

theorem ThreadDuty.leaves_of_perform? {b : Backend} {s : State} {r : RunId} {run : Run}
    {d : ThreadDuty} {done : Done} (hd : d.perform? b s r run = some done) :
    d.Leaves r run done.run := by
  unfold perform? at hd
  split at hd
  · exact leaves_of_performIdle? hd
  next stmt rest hrest =>
    cases d
    case perform =>
      simp only [performAt?, hrest, List.tail_cons] at hd
      split at hd
      next heffect =>
        cases hd
        exact .perform hrest (.inr heffect) _
      all_goals
        cases hd
        exact .perform hrest (.inl rfl) _
    case capture =>
      cases hd
      exact .capture _
    case reach | enter | checkClosed | checkStep | checkLine | readLine | readTemplate =>
      cases hd
      exact .same _
    all_goals exact leaves_of_performIdle? (s := s) hd

theorem ThreadDuty.Leaves.rest {r : RunId} {run run' : Run} {d : ThreadDuty}
    (h : d.Leaves r run run') (hp : d ≠ .perform) : run'.rest = run.rest := by
  cases h <;> first | rfl | exact absurd rfl hp

theorem ThreadDuty.Leaves.phase {r : RunId} {run run' : Run} {d : ThreadDuty}
    (h : d.Leaves r run run') (hp : d ≠ .markPaused) : run'.phase = run.phase := by
  cases h <;> first | rfl | exact absurd rfl hp

theorem ThreadDuty.Leaves.context {r : RunId} {run run' : Run} {d : ThreadDuty}
    (h : d.Leaves r run run') (hp : d ≠ .park) : run'.context = run.context := by
  cases h <;> first | rfl | exact absurd rfl hp

theorem ThreadDuty.Leaves.vars {r : RunId} {run run' : Run} {d : ThreadDuty}
    (h : d.Leaves r run run') (hp : d ≠ .perform) (ht : d ≠ .takeOverrides) :
    run'.vars = run.vars := by
  cases h <;> first | rfl | exact absurd rfl hp | exact absurd rfl ht

theorem ThreadDuty.Leaves.snapshot {r : RunId} {run run' : Run} {d : ThreadDuty}
    (h : d.Leaves r run run') (hc : d ≠ .capture) (ht : d ≠ .takeOverrides) :
    run'.snapshot = run.snapshot := by
  cases h <;> first | rfl | exact absurd rfl hc | exact absurd rfl ht

theorem ThreadDuty.Leaves.frames {r : RunId} {run run' : Run} {d : ThreadDuty}
    (h : d.Leaves r run run') (hc : d ≠ .capture) :
    run'.snapshot.frames = run.snapshot.frames := by
  cases h <;> first | rfl | exact absurd rfl hc

theorem ThreadDuty.Leaves.name {r : RunId} {run run' : Run} {d : ThreadDuty}
    (h : d.Leaves r run run') : run'.key = run.key ∧ run'.clientPath = run.clientPath ∧
      run'.terminated = run.terminated := by
  cases h <;> exact ⟨rfl, rfl, rfl⟩

theorem ThreadDuty.eq_of_stall {b : Backend} {s : State} {r : RunId} {run : Run} {since : Nat}
    {done : Done} (hd : (stall since).perform? b s r run = some done) : done = { run } := by
  have hd : (stall since).performIdle? s r run = some done := by
    unfold perform? at hd
    split at hd <;> exact hd
  simp only [performIdle?] at hd
  split at hd <;> cases hd
  rfl

theorem ThreadDuty.eq_of_capture {b : Backend} {s : State} {r : RunId} {run : Run} {done : Done}
    (hd : capture.perform? b s r run = some done) (hrest : run.rest ≠ []) :
    ∃ stmt rest, run.rest = stmt :: rest ∧ done = { run := { run with
      snapshot := .capture run.vars [frameAt run.clientPath stmt.span] } } := by
  unfold perform? at hd
  split at hd
  next hnil => exact absurd hnil hrest
  next stmt rest hcons => exact ⟨stmt, rest, hcons, (Option.some.inj hd).symm⟩

theorem ThreadDuty.perform?_takeOverrides (b : Backend) (s : State) (r : RunId) (run : Run) :
    takeOverrides.perform? b s r run = some {
      run := { run with
        snapshot := run.snapshot.takeOverrides.2
        vars := run.vars.insertAll run.snapshot.takeOverrides.1 }
      next := [.thread r .perform] } := by
  unfold perform?
  split <;> rfl

theorem ThreadDuty.perform?_conclude (b : Backend) (s : State) (r : RunId) (run : Run)
    (ending : Ending) : (conclude ending).perform? b s r run = some {
      run := { run with held := fun _ => [] }
      next := endDuties r run ending } := by
  unfold perform?
  split <;> rfl

theorem ThreadDuty.perform?_markPaused (b : Backend) (s : State) (r : RunId) (run : Run) :
    markPaused.perform? b s r run = some { run := { run with phase := .paused } } := by
  unfold perform?
  split <;> rfl

/-- A thread that leaves its park was signaled, or abandoned. -/
theorem ThreadDuty.cases_of_park {b : Backend} {s : State} {r : RunId} {run : Run} {done : Done}
    (hd : park.perform? b s r run = some done) :
    (∃ rendezvous, run.context.rendezvous.wait? = some (.signaled, rendezvous) ∧ done =
        { run := { run with context := { run.context with rendezvous } }
          next := [.thread r .takeOverrides] }) ∨
      run.context.isClosed = true ∧ done = { run, next := [.thread r (.conclude aborted)] } := by
  have hd : park.performIdle? s r run = some done := by
    unfold perform? at hd
    split at hd <;> exact hd
  simp only [performIdle?] at hd
  split at hd
  · cases hd
  next hwait =>
    refine .inr ⟨?_, (Option.some.inj hd).symm⟩
    unfold Rendezvous.wait? at hwait
    split at hwait
    next hclosed => exact hclosed
    · split at hwait <;> cases hwait
  next rendezvous hwait => exact .inl ⟨rendezvous, hwait, (Option.some.inj hd).symm⟩

/-- What every step of a thread keeps of its run, apart from what it still has to do. -/
structure Run.Kept (run run' : Run) : Prop where
  starter : run'.starter = run.starter
  thread : run'.thread = run.thread
  started : run'.started = run.started
  lock : run'.lock = some .handler ↔ run.lock = some .handler
  closed : run'.context.isClosed = run.context.isClosed

theorem Rendezvous.closed_of_wait? {r r' : Rendezvous} {wake : Wake}
    (h : r.wait? = some (wake, r')) : r'.closed = r.closed := by
  unfold Rendezvous.wait? at h
  split at h
  · cases h
    rfl
  · split at h <;> cases h
    rfl

/-- A wait that ends by a signal takes a permit. -/
theorem Rendezvous.eq_of_signaled {r r' : Rendezvous} (h : r.wait? = some (.signaled, r')) :
    r.closed = false ∧ 0 < r.permits ∧ r' = { r with permits := r.permits - 1 } := by
  unfold Rendezvous.wait? at h
  split at h
  · cases h
  next hopen =>
    split at h
    next hpermits => exact ⟨by simpa using hopen, hpermits, by cases h; rfl⟩
    · cases h

theorem ThreadDuty.Leaves.kept {r : RunId} {run run' : Run} {d : ThreadDuty}
    (h : d.Leaves r run run') : run.Kept run' := by
  cases h with
  | lock hfree =>
    have hnone : run.lock = none := by simpa [Run.isFree] using hfree
    exact ⟨rfl, rfl, rfl, by simp [hnone], rfl⟩
  | park hwait => exact ⟨rfl, rfl, rfl, .rfl, Rendezvous.closed_of_wait? hwait⟩
  | _ => exact ⟨rfl, rfl, rfl, .rfl, rfl⟩

/-- A thread stalls, captures and marks its run as paused before something else that it has to do
already. -/
theorem ThreadDuty.next_of_not_isLast {b : Backend} {s : State} {r : RunId} {run : Run}
    {d : ThreadDuty} {done : Done} (hlast : d.isLast = false) (hrest : run.rest ≠ [])
    (hd : d.perform? b s r run = some done) : done.next = [] ∧ done.run.lock = run.lock ∧
      done.run.rest = run.rest := by
  unfold perform? at hd
  split at hd
  next hnil => exact absurd hnil hrest
  · cases d <;> try cases hlast
    all_goals simp only [performAt?, performIdle?] at hd
    · split at hd <;> cases hd
      exact ⟨rfl, rfl, rfl⟩
    all_goals
      obtain rfl := Option.some.inj hd
      exact ⟨rfl, rfl, rfl⟩

/-! ## Agendas after a step -/

theorem threadPlan_emits (r : RunId) {holds : Bool} {ds : List Duty} (es : List Event)
    (h : ThreadPlan r holds ds) :
    ThreadPlan r holds (es.map (fun e => .run r (.emit e)) ++ ds) := by
  induction es with
  | nil => exact h
  | cons e es ih => exact .emit e ih

theorem threadPlan_writes (r : RunId) {holds : Bool} {ds : List Duty} (lines : List String)
    (channel : Channel) (h : ThreadPlan r holds ds) :
    ThreadPlan r holds (lines.map (fun l => .run r (.emit (written channel l))) ++ ds) := by
  have hemits := threadPlan_emits r (lines.map (written channel)) h
  rwa [List.map_map] at hemits

theorem threadPlan_stallThen (b : Backend) (s : State) (r : RunId) (line : UInt32) (late : Bool)
    {d : ThreadDuty} (hd : d = .enter ∨ d = .suspend) :
    ThreadPlan r false (stallThen b s r line late d) := by
  unfold stallThen
  split
  · exact .stall _ hd
  · exact .last (by rcases hd with rfl | rfl <;> rfl) (by rcases hd with rfl | rfl <;> rfl)

theorem threadPlan_afterCheck (b : Backend) (s : State) (r : RunId) (line : UInt32)
    (suspends : Bool) {d : ThreadDuty} (hlast : d.isLast = true) (hd : d.isLocked = false) :
    ThreadPlan r false (afterCheck b s r line suspends d) := by
  unfold afterCheck
  split
  · exact threadPlan_stallThen b s r line true (.inr rfl)
  · exact .last hlast hd.symm

theorem threadPlan_stopDuties (r : RunId) (run : Run) (span : Script.Span) (reason : StopReason) :
    ThreadPlan r true (stopDuties r run span reason) :=
  .capture _ _

theorem threadPlan_endDuties (r : RunId) (run : Run) (ending : Ending) :
    ThreadPlan r false (endDuties r run ending) :=
  threadPlan_emits r _ .finish

/-- The last duty of a thread leaves its agenda in order. -/
theorem ThreadPlan.of_last {b : Backend} {s : State} {r : RunId} {run : Run} {d : ThreadDuty}
    {done : Done} (hlast : d.isLast = true)
    (hholds : decide (run.lock = some (.thread r)) = d.isLocked)
    (hrest : run.rest = [] → d.mayEnd = true) (hd : d.perform? b s r run = some done) :
    ThreadPlan r (done.run.lock = some (.thread r)) done.next := by
  have one {holds : Bool} (d : ThreadDuty) (hl : d.isLast = true) (hh : holds = d.isLocked) :
      ThreadPlan r holds [.thread r d] := .last hl hh
  unfold ThreadDuty.perform? at hd
  split at hd
  next hnil =>
    cases d <;> try cases hrest hnil
    all_goals cases hd; rw [hholds]
    · exact one _ rfl rfl
    · exact threadPlan_endDuties r run _
  next stmt rest _ =>
    cases d
    case lock =>
      simp only [ThreadDuty.performAt?, ThreadDuty.performIdle?] at hd
      split at hd <;> cases hd
      exact one _ rfl (by simp [ThreadDuty.isLocked])
    all_goals
      simp only [ThreadDuty.performAt?, ThreadDuty.performIdle?] at hd
      (repeat' split at hd) <;> cases hd <;> simp only [writeText] <;> rw [hholds]
    all_goals
      first
        | exact one _ rfl rfl
        | exact threadPlan_stallThen b s r _ _ (.inl rfl)
        | exact threadPlan_afterCheck b s r _ _ rfl rfl
        | exact threadPlan_endDuties r run _
        | exact threadPlan_stopDuties r run _ _
        | exact .unlock (one _ rfl rfl)
        | exact .unlock (.emit _ (one _ rfl rfl))
        | exact threadPlan_writes r _ _ (one _ rfl rfl)
        | cases hlast

theorem not_thread_mem_endDuties (r : RunId) (run : Run) (ending : Ending) (d : ThreadDuty) :
    .thread r d ∉ endDuties r run ending := by
  simp [endDuties]

theorem not_mem_stallThen {b : Backend} {s : State} {r : RunId} {line : UInt32} {late : Bool}
    {d e : ThreadDuty} (hd : e ≠ d) (hstall : ∀ since, e ≠ .stall since) :
    .thread r e ∉ stallThen b s r line late d := by
  unfold stallThen
  split <;> simp [hd, hstall]

theorem not_mem_afterCheck {b : Backend} {s : State} {r : RunId} {line : UInt32}
    {suspends : Bool} {d e : ThreadDuty} (hd : e ≠ d) (hsuspend : e ≠ .suspend)
    (hstall : ∀ since, e ≠ .stall since) : .thread r e ∉ afterCheck b s r line suspends d := by
  unfold afterCheck
  split
  · exact not_mem_stallThen hsuspend hstall
  · simpa using hd

/-- A thread is about to park only when it is about to capture its variables and to mark its run as
paused. -/
theorem ThreadDuty.stop_mem_next {b : Backend} {s : State} {r : RunId} {run : Run}
    {d : ThreadDuty} {done : Done} (hd : d.perform? b s r run = some done)
    (hpark : .thread r .park ∈ done.next) :
    .thread r .capture ∈ done.next ∧ .thread r .markPaused ∈ done.next := by
  have hend (ending : Ending) := not_thread_mem_endDuties r run ending .park
  unfold perform? at hd
  split at hd
  · cases d <;> simp only [performIdle?] at hd <;> (repeat' split at hd) <;> cases hd <;>
      simp_all
  · cases d
    case reach =>
      cases hd
      exact absurd hpark (not_mem_stallThen (by simp) (by simp))
    case checkClosed | checkStep | checkLine =>
      cases hd
      exact absurd hpark (not_mem_afterCheck (by simp) (by simp) (by simp))
    all_goals
      simp only [performAt?, performIdle?] at hd
      (repeat' split at hd) <;> cases hd <;> simp_all [stopDuties]

/-- A thread is about to take over the client's changes only when it was let go on. -/
theorem ThreadDuty.eq_park_of_mem_next {b : Backend} {s : State} {r : RunId} {run : Run}
    {d : ThreadDuty} {done : Done} (hd : d.perform? b s r run = some done)
    (htake : .thread r .takeOverrides ∈ done.next) : d = .park := by
  have hend (ending : Ending) := not_thread_mem_endDuties r run ending .takeOverrides
  unfold perform? at hd
  split at hd
  · cases d <;> simp only [performIdle?] at hd <;> (repeat' split at hd) <;> cases hd <;>
      simp_all
  · cases d
    case reach =>
      cases hd
      exact absurd htake (not_mem_stallThen (by simp) (by simp))
    case checkClosed | checkStep | checkLine =>
      cases hd
      exact absurd htake (not_mem_afterCheck (by simp) (by simp) (by simp))
    all_goals
      simp only [performAt?, performIdle?] at hd
      (repeat' split at hd) <;> cases hd <;> simp_all [stopDuties]

/-- What a thread has to do when its script is over is what may be met there. -/
theorem ThreadDuty.mayEnd_of_mem_next {b : Backend} {s : State} {r : RunId} {run : Run}
    {d d' : ThreadDuty} {done : Done} (hd : d.perform? b s r run = some done)
    (hrest : run.rest = [] → d.mayEnd = true) (hnil : done.run.rest = [])
    (hmem : .thread r d' ∈ done.next) : d'.mayEnd = true := by
  by_cases hp : d = .perform
  · subst hp
    unfold perform? at hd
    split at hd
    next h => cases hrest h
    simp only [performAt?] at hd
    split at hd <;> cases hd <;> simp at hmem <;> subst hmem <;> rfl
  · have h := (leaves_of_perform? hd).rest hp ▸ hnil
    simp only [perform?, h] at hd
    cases d <;> try cases hrest h
    · obtain rfl := Option.some.inj hd
      obtain rfl : d' = _ := by simpa using hmem
      rfl
    · obtain rfl := Option.some.inj hd
      exact absurd hmem (not_thread_mem_endDuties r run _ _)

end DebugAdapter.Session
