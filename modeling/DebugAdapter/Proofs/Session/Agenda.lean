import DebugAdapter.Proofs.Session.Path
/-!
# Agendas

What the agendas of a session look like, whoever takes its steps in whatever order.

`ThreadPlan` is the shape of a thread's agenda, by whether the thread holds the lock of its run;
`StarterPlan` is that of a starter, and `HandlerPlan` says what may follow a duty of the handler.
`Run.Orderly` adds how the agendas and a run fit together: the lock is released by the one who holds
it, a run is put to work once, and it is not ended before its context is closed. The handler keeps
its agenda in order (`HandlerPlan.of_session`, `HandlerPlan.of_stroke`).
-/

namespace DebugAdapter.Session

open Protocol (Event)

/-! ## Plans -/

/-- Whether a thread holds the lock of its run while this duty is before it. -/
def ThreadDuty.isLocked : ThreadDuty → Bool
  | checkLive | takePending | readStep _ | readLine _ _ | readTemplate | capture | markPaused =>
    true
  | _ => false

/-- Whether nothing comes after a duty of the thread. -/
def ThreadDuty.isLast : ThreadDuty → Bool
  | stall _ | capture | markPaused => false
  | _ => true

/-- Whether a duty of the thread can be met at the end of the script. -/
def ThreadDuty.mayEnd : ThreadDuty → Bool
  | reach | conclude _ => true
  | _ => false

/-- What a thread still has to do once its run is marked as paused. -/
def publication (r : RunId) (e e' : Event) : List Duty :=
  [.run r (.emit e), .run r (.emit e'), .run r .unlock, .thread r .park]

/-- The agendas of the thread of run `r`, by whether it holds the lock of the run. -/
inductive ThreadPlan (r : RunId) : (holds : Bool) → List Duty → Prop where
  | out : ThreadPlan r false []
  | emit {holds : Bool} {ds : List Duty} (e : Event) :
      ThreadPlan r holds ds → ThreadPlan r holds (.run r (.emit e) :: ds)
  | unlock {ds : List Duty} : ThreadPlan r false ds → ThreadPlan r true (.run r .unlock :: ds)
  | finish : ThreadPlan r false [.run r (.setPhase .terminated), .run r .claimTerminated]
  | claim : ThreadPlan r false [.run r .claimTerminated]
  | stall (since : Nat) {d : ThreadDuty} (hd : d = .enter ∨ d = .suspend) :
      ThreadPlan r false [.thread r (.stall since), .thread r d]
  | capture (e e' : Event) :
      ThreadPlan r true (.thread r .capture :: .thread r .markPaused :: publication r e e')
  | markPaused (e e' : Event) : ThreadPlan r true (.thread r .markPaused :: publication r e e')
  | last {holds : Bool} {d : ThreadDuty} (hlast : d.isLast = true) (hholds : holds = d.isLocked) :
      ThreadPlan r holds [.thread r d]

/-- A thread only has duties on its run and duties of its own. -/
theorem ThreadPlan.head_cases {r : RunId} {holds : Bool} {d : Duty} {ds : List Duty}
    (h : ThreadPlan r holds (d :: ds)) : (∃ d', d = .run r d') ∨ ∃ d', d = .thread r d' := by
  cases h <;> simp

/-- The agendas of the starter of run `r`. -/
inductive StarterPlan (r : RunId) : List Duty → Prop where
  | done : StarterPlan r []
  | look (d : StarterDuty) : StarterPlan r [.starter r d]
  | late (e : Event) : StarterPlan r [.run r (.emit e), .run r .startIfLive]
  | startIfLive : StarterPlan r [.run r .startIfLive]
  | claim : StarterPlan r [.run r .claimStart]
  | cancel : StarterPlan r [.run r .cancel, .run r (.setPhase .running), .run r .spawn]
  | running : StarterPlan r [.run r (.setPhase .running), .run r .spawn]
  | spawn : StarterPlan r [.run r .spawn]

/-- Whether nothing comes after a duty of the handler. -/
def Duty.isLast : Duty → Bool
  | session (.handle _) | session (.openRun _ _) | session (.replaceBreakpoints _ _)
  | session (.passOn _ _) | session .shutdown | request _ _
  | run _ .startIfLive | run _ .claimStart | run _ .spawn | run _ .signal => true
  | _ => false

/-- Whether an agenda of the handler goes on with the end of a run. -/
def EndsRun (r : RunId) (ds : List Duty) : Prop :=
  ∃ ds', ds = .run r (.setPhase .terminated) :: ds'

/-- Whether `ds` may follow a duty of the handler. -/
def Duty.Precedes (ds : List Duty) : Duty → Prop
  | run r .closeContext => EndsRun r ds
  | run r (.setPhase .awaitingBreakpoints) =>
    ∃ m, ds = [.run r .schedule, .session (.send m)]
  | run r (.setPhase .running) => ds = [.run r .spawn]
  | run _ (.setPhase .terminated) => ∀ r, ¬EndsRun r ds
  | run _ (.setPhase _) => False
  | run _ .schedule => ∃ m, ds = [.session (.send m)]
  | run r (.setLines _) => ∃ m, ds = [.request r (.answerThenStart m)]
  | run _ .unlock => (∀ r, ¬EndsRun r ds) ∧ ∀ r, .run r .unlock ∉ ds
  | starter _ _ | thread _ _ => False
  | d => if d.isLast then ds = [] else ∀ r, ¬EndsRun r ds

/-- The agendas of the handler. -/
def HandlerPlan : List Duty → Prop
  | [] => True
  | d :: ds => d.Precedes ds ∧ HandlerPlan ds

@[simp] theorem not_endsRun_nil (r : RunId) : ¬EndsRun r [] := by
  rintro ⟨_, h⟩
  cases h

@[simp] theorem endsRun_cons (r : RunId) (d : Duty) (ds : List Duty) :
    EndsRun r (d :: ds) ↔ d = .run r (.setPhase .terminated) := by
  simp [EndsRun]

/-- Only the end of a context is followed by the end of a run. -/
theorem Duty.Precedes.not_endsRun {d : Duty} {ds : List Duty} (h : d.Precedes ds)
    (hd : ∀ r, d ≠ .run r .closeContext) (r : RunId) : ¬EndsRun r ds := by
  cases d with
  | session d | request r' d => cases d <;> simp_all [Precedes, isLast]
  | starter r' d | thread r' d => exact h.elim
  | run r' d =>
    cases d with
    | setPhase phase =>
      cases phase <;> simp_all [Precedes]
      grind [endsRun_cons]
    | _ => simp_all [Precedes, isLast] <;> grind [endsRun_cons]

/-! ## Runs and agendas in order -/

/-- Whether run `r` fits the agendas, of which `hs` is the handler's. -/
structure Run.Orderly (r : RunId) (hs : List Duty) (run : Run) : Prop where
  starter : StarterPlan r run.starter
  thread : ThreadPlan r (run.lock = some (.thread r)) run.thread
  statement : run.rest = [] → ∀ d, .thread r d ∈ run.thread → d.mayEnd = true
  lock : run.lock = some .handler ↔ .run r .unlock ∈ hs
  /-- A run that is not started has no thread, and nobody is about to give it one. -/
  unstarted : run.started = false →
    run.thread = [] ∧ .run r .spawn ∉ hs ∧ .run r .spawn ∉ run.starter
  /-- The handler and the starter do not both set the thread to work. -/
  spawner : .run r .spawn ∈ hs → .run r .spawn ∉ run.starter
  /-- The thread that is set to work has not been at work. -/
  spawned : .run r .spawn ∈ hs ∨ .run r .spawn ∈ run.starter → run.thread = []
  scheduled : .run r .schedule ∈ hs → run.started = false ∧ run.starter = []
  closed : EndsRun r hs → run.context.isClosed = true

/-- Whether all agendas are in order. -/
structure State.Orderly (s : State) : Prop where
  handler : HandlerPlan s.handler
  runs {r : RunId} {run : Run} : s.runs[r]? = some run → run.Orderly r s.handler

theorem State.orderly_empty : ({} : State).Orderly where
  handler := trivial
  runs h := by simp at h

/-- Duties that are no one's end, lock or start leave a run in order. -/
theorem Run.Orderly.of_agenda {r : RunId} {hs hs' : List Duty} {run : Run} (h : run.Orderly r hs)
    (hunlock : .run r .unlock ∈ hs' ↔ .run r .unlock ∈ hs)
    (hspawn : .run r .spawn ∈ hs' → .run r .spawn ∈ hs)
    (hschedule : .run r .schedule ∈ hs' → .run r .schedule ∈ hs)
    (hends : EndsRun r hs' → run.context.isClosed = true) : run.Orderly r hs' where
  starter := h.starter
  thread := h.thread
  statement := h.statement
  lock := h.lock.trans hunlock.symm
  unstarted hs := ⟨(h.unstarted hs).1, fun hm => (h.unstarted hs).2.1 (hspawn hm),
    (h.unstarted hs).2.2⟩
  spawner hm := h.spawner (hspawn hm)
  spawned hm := h.spawned (hm.imp_left hspawn)
  scheduled hm := h.scheduled (hschedule hm)
  closed := hends

/-- A run stays in order when all that its order depends on stays. -/
theorem Run.Orderly.of_run {r : RunId} {hs : List Duty} {run run' : Run} (h : run.Orderly r hs)
    (hstarter : run'.starter = run.starter) (hthread : run'.thread = run.thread)
    (hrest : run'.rest = run.rest) (hlock : run'.lock = run.lock)
    (hstarted : run'.started = run.started)
    (hclosed : run.context.isClosed = true → run'.context.isClosed = true) :
    run'.Orderly r hs where
  starter := hstarter ▸ h.starter
  thread := by
    rw [hthread, hlock]
    exact h.thread
  statement := by
    rw [hrest, hthread]
    exact h.statement
  lock := by
    rw [hlock]
    exact h.lock
  unstarted hs := by
    rw [hthread, hstarter]
    exact h.unstarted (hstarted ▸ hs)
  spawner := by
    rw [hstarter]
    exact h.spawner
  spawned := by
    rw [hthread, hstarter]
    exact h.spawned
  scheduled := by
    rw [hstarter, hstarted]
    exact h.scheduled
  closed he := hclosed (h.closed he)

/-! ## The handler -/

theorem handlerPlan_refuse (request : Protocol.Request) (e : DebugError) :
    HandlerPlan (refuse request e) := by
  unfold refuse
  split <;> simp [HandlerPlan, Duty.Precedes, Duty.isLast]

theorem handlerPlan_abandon_append (r : RunId) {ds : List Duty} (h : HandlerPlan ds)
    (hends : ∀ r, ¬EndsRun r ds) : HandlerPlan (abandon r ++ ds) := by
  simp [abandon, HandlerPlan, Duty.Precedes, Duty.isLast, h, hends]

theorem handlerPlan_abandonAny_append (r : Option RunId) {ds : List Duty} (h : HandlerPlan ds)
    (hends : ∀ r, ¬EndsRun r ds) : HandlerPlan (abandonAny r ++ ds) := by
  cases r with
  | none => exact h
  | some r => exact handlerPlan_abandon_append r h hends

theorem handlerPlan_tearDown_append (r : Option RunId) {ds : List Duty} (h : HandlerPlan ds)
    (hends : ∀ r, ¬EndsRun r ds) : HandlerPlan (tearDown r ++ ds) := by
  cases r with
  | none => exact ⟨hends, h⟩
  | some r =>
    refine ⟨?_, handlerPlan_abandon_append r h hends⟩
    simp [Duty.Precedes, Duty.isLast, abandon]

theorem handlerPlan_withArguments {α : Type} (request : Protocol.Request) (d : Json.Decoder α)
    {duties : α → List Duty} (h : ∀ args, HandlerPlan (duties args)) :
    HandlerPlan (withArguments request d duties) := by
  unfold withArguments
  split
  · exact h _
  · exact handlerPlan_refuse request _

theorem handlerPlan_forCurrent (s : State) (duty : RequestDuty) {otherwise : List Duty}
    (h : HandlerPlan otherwise) : HandlerPlan (s.forCurrent duty otherwise) := by
  unfold State.forCurrent
  split
  · exact ⟨rfl, trivial⟩
  · exact h

theorem handlerPlan_answer (request : Protocol.Request) (body : Option Json) :
    HandlerPlan [answer request body] := by
  simp [answer, HandlerPlan, Duty.Precedes, Duty.isLast]

theorem handlerPlan_handle (s : State) (request : Protocol.Request) (c : Protocol.Command) :
    HandlerPlan (s.handle request c).2 := by
  have hrelaunch (args) : HandlerPlan (s.relaunch request args).2 :=
    handlerPlan_abandonAny_append _ ⟨rfl, trivial⟩ (by simp)
  cases c with
  | launch | restart =>
    simp only [State.handle]
    split
    · exact hrelaunch _
    · exact handlerPlan_refuse request _
  | setBreakpoints =>
    exact handlerPlan_withArguments request _ fun _ => ⟨rfl, trivial⟩
  | resume how =>
    exact handlerPlan_withArguments request _ fun _ =>
      handlerPlan_forCurrent s _ (handlerPlan_answer request _)
  | pause | stackTrace => exact handlerPlan_forCurrent s _ (handlerPlan_answer request _)
  | listVariables =>
    refine handlerPlan_withArguments request _ fun _ => handlerPlan_forCurrent s _ ?_
    split
    · exact handlerPlan_answer request _
    · exact handlerPlan_refuse request _
  | setVariable =>
    exact handlerPlan_withArguments request _ fun _ =>
      handlerPlan_forCurrent s _ (handlerPlan_refuse request _)
  | evaluate =>
    exact handlerPlan_withArguments request _ fun _ =>
      handlerPlan_forCurrent s _ (handlerPlan_answer request _)
  | terminate | disconnect =>
    refine ⟨?_, handlerPlan_tearDown_append s.current ?_ (by simp)⟩
    · cases hc : s.current <;> simp [answer, Duty.Precedes, Duty.isLast, tearDown]
    · simp [HandlerPlan, Duty.Precedes, Duty.isLast]
  | _ => exact handlerPlan_answer request _

/-- A duty on the session leaves the agenda of the handler in order. -/
theorem HandlerPlan.of_session {d : SessionDuty} {ds : List Duty}
    (h : HandlerPlan (.session d :: ds)) (b : Backend) (s : State) :
    HandlerPlan ((d.perform b s).2 ++ ds) := by
  obtain ⟨hds, hplan⟩ := h
  cases d with
  | send m | clearRegistry => exact hplan
  | reportTermination =>
    simp only [SessionDuty.perform]
    split <;> exact hplan
  | handle request =>
    obtain rfl : ds = [] := hds
    simp only [SessionDuty.perform, List.append_nil]
    split
    · exact handlerPlan_handle s request _
    · exact handlerPlan_refuse request _
  | openRun request args =>
    obtain rfl : ds = [] := hds
    simp only [SessionDuty.perform, State.prepare, List.append_nil]
    repeat' split
    any_goals exact handlerPlan_refuse request _
    all_goals
      simp [State.openRun, answer, answerCrash, HandlerPlan, Duty.Precedes, Duty.isLast]
  | replaceBreakpoints request args =>
    obtain rfl : ds = [] := hds
    exact ⟨rfl, trivial⟩
  | passOn replaced m =>
    obtain rfl : ds = [] := hds
    simp only [SessionDuty.perform, State.passOn, List.append_nil]
    repeat' split
    all_goals simp [HandlerPlan, Duty.Precedes, Duty.isLast]
  | shutdown =>
    obtain rfl : ds = [] := hds
    simp only [SessionDuty.perform, List.append_nil]
    exact handlerPlan_abandonAny_append _ (by simp [HandlerPlan, Duty.Precedes, Duty.isLast])
      (by simp)

/-- A step of the handler on a run leaves its agenda in order. -/
theorem HandlerPlan.of_stroke {b : Backend} {s : State} {r : RunId} {run : Run} {d : Duty}
    {ds : List Duty} {done : Done} (h : HandlerPlan (d :: ds)) (hsub : d.subject? = some r)
    (hd : d.stroke? b s r run = some done) : HandlerPlan (done.next ++ ds) := by
  obtain ⟨hds, hplan⟩ := h
  have hrefuse := handlerPlan_refuse
  cases d with
  | session d => cases hd
  | starter _ d | thread _ d => exact hds.elim
  | run r' d =>
    cases d <;> simp only [Duty.stroke?, RunDuty.perform?] at hd <;> (repeat' split at hd) <;>
      cases hd <;> simp_all [HandlerPlan, Duty.Precedes, Duty.isLast, Duty.subject?]
  | request r' d =>
    obtain rfl : ds = [] := hds
    cases d <;>
      simp only [Duty.stroke?, RequestDuty.perform?, resumeStep, pauseStep, assignStep, listStep,
        evaluateStep, continuedDuties] at hd <;>
      (repeat' split at hd) <;> cases hd <;>
      simp_all [HandlerPlan, Duty.Precedes, Duty.isLast, Duty.subject?, answer, answerCrash]

end DebugAdapter.Session
