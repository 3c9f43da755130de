import DebugAdapter.Session.Schedule
/-!
# The effort of a session

No party goes on for ever. `State.Lighter` compares two states by three numbers that count what is
left to do: the requests being handled, the statements not yet executed, and the duties. Main
statement: `lighter_of_advance?`, every step makes the state lighter.
-/

namespace DebugAdapter.Session

/-! ## Weights -/

/-- How much of the handling of requests a duty is. -/
def Duty.handling : Duty → Nat
  | session (.handle _) => 6
  | session (.replaceBreakpoints _ _) => 4
  | session (.openRun _ _) => 3
  | session (.passOn _ _) => 3
  | session .shutdown => 2
  | session _ => 1
  | request _ (.answerThenStart _) => 2
  | request _ (.showValue _ _) => 2
  | request _ _ => 3
  | run _ _ | starter _ _ | thread _ _ => 0

/-- How many steps a duty on a run may take at most. -/
def RunDuty.weight : RunDuty → Nat
  | claimTerminated => 2
  | spawn => 38
  | claimStart => 41
  | startIfLive => 42
  | schedule => 48
  | _ => 1

/-- How many steps a duty of the starter may take at most while the time stands still at `clock`. -/
def StarterDuty.weight (clock : Nat) : StarterDuty → Nat
  | sleep wake _ => if wake ≤ clock then 47 else 1
  | lookClock _ => 44
  | lookEntry _ => 45
  | lookRun _ => 46
  | begin => 47

/-- How many steps a duty of the thread may take at most before the next statement is executed. -/
def ThreadDuty.weight : ThreadDuty → Nat
  | stall _ | markPaused => 1
  | conclude _ => 7
  | perform => 8
  | capture => 8
  | takeOverrides => 9
  | park => 10
  | readTemplate => 23
  | readLine _ _ => 24
  | readStep _ => 25
  | takePending => 26
  | checkLive => 27
  | lock => 28
  | suspend => 29
  | checkLine => 31
  | checkStep => 32
  | checkClosed => 33
  | enter => 34
  | reach => 36

/-- How many steps a duty may take at most, apart from the handling of requests. -/
def Duty.weight (clock : Nat) : Duty → Nat
  | session _ | request _ _ => 0
  | run _ d => d.weight
  | starter _ d => d.weight clock
  | thread _ d => d.weight

/-- The sum of a number over a list. -/
def sumOver {α : Type} (f : α → Nat) : List α → Nat
  | [] => 0
  | a :: as => f a + sumOver f as

/-- The weight of an agenda. -/
def load (w : Duty → Nat) (ds : List Duty) : Nat :=
  sumOver w ds

/-- The weight of what the starter and the thread of a run have to do. -/
def Run.load (w : Duty → Nat) (run : Run) : Nat :=
  Session.load w run.starter + Session.load w run.thread

/-- The sum of a number over all runs. -/
def State.total (f : Run → Nat) (s : State) : Nat :=
  sumOver f s.runs

/-- The weight of what all parties have to do. -/
def State.load (w : Duty → Nat) (s : State) : Nat :=
  Session.load w s.handler + s.total (Run.load w)

/-- How much handling of requests is left. -/
def State.handling (s : State) : Nat :=
  s.load Duty.handling

/-- How many statements are left. -/
def State.statements (s : State) : Nat :=
  s.total fun run => run.rest.length

/-- How many steps are left at most before the next statement is executed. -/
def State.weight (s : State) : Nat :=
  s.load (Duty.weight s.clock)

/-- Whether less is left to do in `s` than in `t`. -/
def State.Lighter (s t : State) : Prop :=
  Prod.Lex (· < ·) (Prod.Lex (· < ·) (· < ·)) (s.handling, s.statements, s.weight)
    (t.handling, t.statements, t.weight)

/-! ## Sums over agendas and runs -/

theorem load_nil (w : Duty → Nat) : load w [] = 0 := rfl

theorem load_cons (w : Duty → Nat) (d : Duty) (ds : List Duty) :
    load w (d :: ds) = w d + load w ds := rfl

theorem sumOver_append {α : Type} (f : α → Nat) (as bs : List α) :
    sumOver f (as ++ bs) = sumOver f as + sumOver f bs := by
  induction as with
  | nil => simp [sumOver]
  | cons a as ih => simp only [List.cons_append, sumOver, ih]; omega

theorem load_append (w : Duty → Nat) (ds es : List Duty) :
    load w (ds ++ es) = load w ds + load w es :=
  sumOver_append w ds es

/-- The sum over a list of which one item changed. -/
theorem sumOver_set {α : Type} (f : α → Nat) {as : List α} {i : Nat} {a : α} (h : as[i]? = some a)
    (a' : α) : sumOver f (as.set i a') + f a = sumOver f as + f a' := by
  induction as generalizing i with
  | nil => simp at h
  | cons x as ih =>
    cases i with
    | zero =>
      obtain rfl : x = a := by simpa using h
      simp only [List.set_cons_zero, sumOver]
      omega
    | succ i =>
      have := ih (by simpa using h)
      simp only [List.set_cons_succ, sumOver]
      omega

theorem modify_eq_set {α : Type} (f : α → α) {as : List α} {i : Nat} {a : α}
    (h : as[i]? = some a) : as.modify i f = as.set i (f a) := by
  induction as generalizing i with
  | nil => simp at h
  | cons x as ih =>
    cases i with
    | zero => simp_all
    | succ i => simpa using ih (i := i) (by simpa using h)

theorem modify_eq_self {α : Type} (f : α → α) {as : List α} {i : Nat} (h : as[i]? = none) :
    as.modify i f = as := by
  induction as generalizing i with
  | nil => simp
  | cons x as ih =>
    cases i with
    | zero => simp at h
    | succ i => simpa using ih (i := i) (by simpa using h)

namespace State

theorem total_setRun (f : Run → Nat) {s : State} {r : RunId} {run : Run}
    (h : s.runs[r]? = some run) (run' : Run) :
    (s.setRun r run').total f + f run = s.total f + f run' :=
  sumOver_set f h run'

/-- A duty that is taken off an agenda is all that the agenda loses. -/
theorem load_setAgenda_tail (w : Duty → Nat) {s : State} {p : Party} {d : Duty} {ds : List Duty}
    (h : s.agenda p = d :: ds) : (s.setAgenda p ds).load w + w d = s.load w := by
  cases p with
  | handler =>
    have hs : s.handler = d :: ds := h
    simp only [State.load, setAgenda, total, hs, load_cons]
    omega
  | starter r =>
    cases hr : s.runs[r]? with
    | none => simp [agenda, hr] at h
    | some run =>
      have hd : run.starter = d :: ds := by simpa [agenda, hr] using h
      have := sumOver_set (Run.load w) hr { run with starter := ds }
      simp only [State.load, setAgenda, total, modify_eq_set _ hr, Run.load, hd, load_cons]
        at this ⊢
      omega
  | thread r =>
    cases hr : s.runs[r]? with
    | none => simp [agenda, hr] at h
    | some run =>
      have hd : run.thread = d :: ds := by simpa [agenda, hr] using h
      have := sumOver_set (Run.load w) hr { run with thread := ds }
      simp only [State.load, setAgenda, total, modify_eq_set _ hr, Run.load, hd, load_cons]
        at this ⊢
      omega

/-- Duties that are put in front of an agenda add no more than their weight. -/
theorem load_setAgenda_append (w : Duty → Nat) (s : State) (p : Party) (next : List Duty) :
    (s.setAgenda p (next ++ s.agenda p)).load w ≤ s.load w + Session.load w next := by
  cases p with
  | handler =>
    simp only [State.load, setAgenda, agenda, total, load_append]
    omega
  | starter r =>
    cases hr : s.runs[r]? with
    | none => simp [State.load, setAgenda, total, modify_eq_self _ hr]
    | some run =>
      have := sumOver_set (Run.load w) hr { run with starter := next ++ run.starter }
      simp only [State.load, setAgenda, agenda, hr, Option.map_some, Option.getD_some, total,
        modify_eq_set _ hr, Run.load, load_append] at this ⊢
      omega
  | thread r =>
    cases hr : s.runs[r]? with
    | none => simp [State.load, setAgenda, total, modify_eq_self _ hr]
    | some run =>
      have := sumOver_set (Run.load w) hr { run with thread := next ++ run.thread }
      simp only [State.load, setAgenda, agenda, hr, Option.map_some, Option.getD_some, total,
        modify_eq_set _ hr, Run.load, load_append] at this ⊢
      omega

/-- Agendas hold no statements. -/
theorem statements_setAgenda (s : State) (p : Party) (ds : List Duty) :
    (s.setAgenda p ds).statements = s.statements := by
  cases p with
  | handler => rfl
  | starter r | thread r =>
    cases hr : s.runs[r]? with
    | none => simp [statements, setAgenda, total, modify_eq_self _ hr]
    | some run =>
      refine Nat.add_right_cancel (m := run.rest.length) ?_
      simp only [statements, setAgenda, total, modify_eq_set _ hr]
      exact sumOver_set (fun run : Run => run.rest.length) hr _

theorem clock_setAgenda (s : State) (p : Party) (ds : List Duty) :
    (s.setAgenda p ds).clock = s.clock := by
  cases p <;> rfl

end State

/-! ## Steps on runs -/

/-- A step on `run` whose duty has weight `n` leaves less to do. -/
structure Done.Lighter (clock : Nat) (run : Run) (n : Nat) (done : Done) : Prop where
  handling : load Duty.handling done.next + done.run.load Duty.handling ≤ run.load Duty.handling
  less : done.run.rest.length < run.rest.length ∨
    done.run.rest = run.rest ∧ load (Duty.weight clock) done.next +
      done.run.load (Duty.weight clock) < n + run.load (Duty.weight clock)

theorem RunDuty.lighter (clock : Nat) {r : RunId} {run : Run} {d : RunDuty} {done : Done}
    (h : d.perform? r run = some done) : done.Lighter clock run d.weight := by
  cases d <;> constructor <;>
    grind [perform?, Run.load, load_cons, load_nil, Duty.handling, Duty.weight, weight,
      ThreadDuty.weight, StarterDuty.weight]

theorem StarterDuty.lighter {b : Backend} {s : State} {r : RunId} {run : Run} {d : StarterDuty}
    {done : Done} (h : d.perform? b s r run = some done) :
    done.Lighter s.clock run (d.weight s.clock) := by
  have hp : 1 ≤ b.settings.pollInterval := Nat.le_max_right _ _
  cases d <;> constructor <;>
    grind [perform?, Run.load, load_cons, load_nil, Duty.handling, Duty.weight, weight,
      RunDuty.weight]

/-! ## Steps of threads -/

theorem load_handling_emit (r : RunId) (es : List Protocol.Event) :
    load Duty.handling (es.map fun e => .run r (.emit e)) = 0 := by
  induction es with
  | nil => rfl
  | cons e es ih => simp [load_cons, Duty.handling, ih]

theorem load_handling_lines (r : RunId) (channel : Channel) (lines : List String) :
    load Duty.handling (lines.map fun l => .run r (.emit (written channel l))) = 0 := by
  rw [← load_handling_emit r (lines.map (written channel)), List.map_map]
  rfl

theorem load_weight_emit (clock : Nat) (r : RunId) (es : List Protocol.Event) :
    load (Duty.weight clock) (es.map fun e => .run r (.emit e)) = es.length := by
  induction es with
  | nil => rfl
  | cons e es ih => simp [load_cons, Duty.weight, RunDuty.weight, ih]; omega

theorem length_heldNotes (run : Run) (channel : Channel) : (heldNotes run channel).length ≤ 1 := by
  unfold heldNotes LineBuffer.drain
  split <;> simp

theorem length_endingNote (clientPath : String) (ending : Ending) :
    (endingNote clientPath ending).length ≤ 1 := by
  unfold endingNote
  split <;> simp

theorem load_handling_endDuties (r : RunId) (run : Run) (ending : Ending) :
    load Duty.handling (endDuties r run ending) = 0 := by
  simp [endDuties, load_append, load_handling_emit, load_cons, load_nil, Duty.handling]

theorem load_weight_endDuties (clock : Nat) (r : RunId) (run : Run) (ending : Ending) :
    load (Duty.weight clock) (endDuties r run ending) ≤ 6 := by
  have h := length_heldNotes run .stdout
  have h' := length_heldNotes run .stderr
  have h'' := length_endingNote run.clientPath ending
  simp only [endDuties, load_append, load_weight_emit, load_cons, load_nil, Duty.weight,
    RunDuty.weight, List.length_append]
  omega

theorem ThreadDuty.lighter_performIdle (clock : Nat) {s : State} {r : RunId} {run : Run}
    {d : ThreadDuty} {done : Done} (h : d.performIdle? s r run = some done) :
    done.Lighter clock run d.weight := by
  cases d <;> constructor <;>
    grind [performIdle?, Run.load, load_cons, load_nil, Duty.handling, Duty.weight, weight,
      RunDuty.weight, load_handling_endDuties, load_weight_endDuties]

theorem load_handling_stopDuties (r : RunId) (run : Run) (span : Script.Span)
    (reason : StopReason) : load Duty.handling (stopDuties r run span reason) = 0 := by
  simp [stopDuties, load_cons, load_nil, Duty.handling]

theorem load_weight_stopDuties (clock : Nat) (r : RunId) (run : Run) (span : Script.Span)
    (reason : StopReason) : load (Duty.weight clock) (stopDuties r run span reason) = 22 := by
  simp [stopDuties, load_cons, load_nil, Duty.weight, RunDuty.weight, ThreadDuty.weight]

/-- A statement that is executed is no longer left. -/
theorem ThreadDuty.lighter_perform (clock : Nat) {b : Backend} {s : State} {r : RunId} {run : Run}
    {stmt : Script.Statement} {rest : Script.Program} (hrun : run.rest = stmt :: rest) {done : Done}
    (h : perform.performAt? b s r run stmt = some done) (n : Nat) : done.Lighter clock run n := by
  simp only [performAt?] at h
  split at h <;> cases h <;>
    exact ⟨by simp [writeText, Run.load, load_append, load_cons, load_nil, Duty.handling,
      load_handling_lines], .inl (by simp [writeText, hrun])⟩

theorem ThreadDuty.lighter_performAt (clock : Nat) {b : Backend} {s : State} {r : RunId} {run : Run}
    {stmt : Script.Statement} {rest : Script.Program} (hrun : run.rest = stmt :: rest)
    {d : ThreadDuty} {done : Done} (h : d.performAt? b s r run stmt = some done) :
    done.Lighter clock run d.weight := by
  cases d with
  | perform => exact lighter_perform clock hrun h _
  | stall _ | lock | checkLive | takePending | readStep _ | markPaused | suspend | park
  | takeOverrides | conclude _ =>
    exact lighter_performIdle clock (show performIdle? s r run _ = _ from h)
  | _ =>
    constructor <;>
      grind [performAt?, Run.load, load_append, load_cons, load_nil, Duty.handling, Duty.weight,
        weight, RunDuty.weight, stallThen, afterCheck, load_handling_stopDuties,
        load_weight_stopDuties]

theorem ThreadDuty.lighter (clock : Nat) {b : Backend} {s : State} {r : RunId} {run : Run}
    {d : ThreadDuty} {done : Done} (h : d.perform? b s r run = some done) :
    done.Lighter clock run d.weight := by
  unfold perform? at h
  split at h
  · exact lighter_performIdle clock h
  · next hrun => exact lighter_performAt clock hrun h

/-! ## Steps of the handler -/

/-- A step of the handler on a run, of a duty that is `n` of the handling, leaves less of it. -/
def Done.Handles (run : Run) (n : Nat) (done : Done) : Prop :=
  load Duty.handling done.next + done.run.load Duty.handling < n + run.load Duty.handling

theorem load_handling_refuse (request : Protocol.Request) (e : DebugError) :
    load Duty.handling (refuse request e) ≤ 2 := by
  unfold refuse
  split <;> simp [load_cons, load_nil, Duty.handling]

theorem RequestDuty.handles {b : Backend} {r : RunId} {run : Run} {d : RequestDuty} {done : Done}
    (h : d.perform? b r run = some done) : done.Handles run (Duty.handling (.request r d)) := by
  unfold Done.Handles
  cases d <;>
    grind [perform?, Run.load, load_append, load_cons, load_nil, Duty.handling, answer, answerCrash,
      resumeStep, pauseStep, assignStep, listStep, evaluateStep, continuedDuties,
      load_handling_refuse]

theorem load_handling_withArguments {α : Type} (request : Protocol.Request) (d : Json.Decoder α)
    {duties : α → List Duty} {n : Nat} (hn : 2 ≤ n)
    (h : ∀ args, load Duty.handling (duties args) ≤ n) :
    load Duty.handling (withArguments request d duties) ≤ n := by
  unfold withArguments
  split
  · exact h _
  · exact Nat.le_trans (load_handling_refuse _ _) hn

theorem load_handling_abandonAny (r : Option RunId) : load Duty.handling (abandonAny r) = 0 := by
  cases r <;> rfl

theorem load_handling_tearDown (r : Option RunId) : load Duty.handling (tearDown r) ≤ 1 := by
  cases r <;> simp [tearDown, abandon, load_cons, load_nil, Duty.handling]

theorem load_handling_forCurrent (s : State) (duty : RequestDuty) (otherwise : List Duty) {n : Nat}
    (hn : 3 ≤ n) (h : load Duty.handling otherwise ≤ n) :
    load Duty.handling (s.forCurrent duty otherwise) ≤ n := by
  unfold State.forCurrent
  split
  · refine Nat.le_trans ?_ hn
    cases duty <;> simp [load_cons, load_nil, Duty.handling]
  · exact h

theorem load_handling_passOn (s : State) (replaced : Replaced) (m : Protocol.Outgoing) :
    load Duty.handling (s.passOn replaced m) ≤ 2 := by
  grind [State.passOn, load_cons, load_nil, Duty.handling]

/-- A new run has nothing to do yet. -/
theorem handling_openRun (s : State) (request : Protocol.Request) (script : Script.StoredScript)
    (key : String) (program : Script.Program) :
    (s.openRun request script key program).1.handling = s.handling ∧
      load Duty.handling (s.openRun request script key program).2 = 1 := by
  simp [State.openRun, State.handling, State.load, State.total, sumOver_append, sumOver, Run.load,
    load_cons, load_nil, Duty.handling, answer]

theorem handling_prepare (b : Backend) (s : State) (request : Protocol.Request)
    (args : Protocol.LaunchArguments) :
    (s.prepare b request args).1.handling = s.handling ∧
      load Duty.handling (s.prepare b request args).2 ≤ 2 := by
  unfold State.prepare
  repeat' split
  all_goals
    grind [load_handling_refuse, handling_openRun, load_cons, load_nil, Duty.handling, answerCrash]

theorem handling_relaunch (s : State) (request : Protocol.Request)
    (args : Protocol.LaunchArguments) :
    (s.relaunch request args).1.handling = s.handling ∧
      load Duty.handling (s.relaunch request args).2 = 3 := by
  simp [State.relaunch, State.handling, State.load, State.total, load_append,
    load_handling_abandonAny, load_cons, load_nil, Duty.handling]

theorem handling_handle (s : State) (request : Protocol.Request) (c : Protocol.Command) :
    (s.handle request c).1.handling = s.handling ∧
      load Duty.handling (s.handle request c).2 ≤ 5 := by
  have hrefuse := load_handling_refuse request
  have hanswer (body) : load Duty.handling [answer request body] = 1 := rfl
  cases c with
  | launch =>
    simp only [State.handle]
    split
    · grind [handling_relaunch]
    · grind
  | restart =>
    simp only [State.handle]
    split
    · grind [handling_relaunch]
    · grind
  | terminate | disconnect =>
    have := load_handling_tearDown s.current
    refine ⟨rfl, ?_⟩
    simp only [State.handle, answer, load_append, load_cons, load_nil, Duty.handling]
    omega
  | setBreakpoints =>
    exact ⟨rfl, load_handling_withArguments _ _ (by decide) fun _ =>
      by simp [load_cons, load_nil, Duty.handling]⟩
  | resume | listVariables | setVariable | evaluate =>
    refine ⟨rfl, load_handling_withArguments _ _ (by decide) fun _ =>
      load_handling_forCurrent _ _ _ (by decide) ?_⟩
    grind
  | pause | stackTrace =>
    exact ⟨rfl, load_handling_forCurrent _ _ _ (by decide) (by grind)⟩
  | _ => exact ⟨rfl, by simp [State.handle, hanswer]⟩

theorem SessionDuty.handles (b : Backend) (s : State) (d : SessionDuty) :
    load Duty.handling (d.perform b s).2 + (d.perform b s).1.handling <
      (Duty.session d).handling + s.handling := by
  cases d with
  | handle request =>
    simp only [perform]
    split
    · grind [handling_handle, Duty.handling]
    · grind [load_handling_refuse, Duty.handling]
  | openRun request args => grind [perform, handling_prepare, Duty.handling]
  | passOn replaced m => grind [perform, load_handling_passOn, Duty.handling]
  | reportTermination =>
    simp only [perform]
    split <;> simp [State.send, State.handling, State.load, State.total, load_nil, Duty.handling]
  | _ =>
    simp [perform, State.send, State.handling, State.load, State.total, load_append,
      load_handling_abandonAny, load_cons, load_nil, Duty.handling]

/-! ## Steps of any party -/

/-- A step whose duty was `d` leaves less handling, or as much handling and less of the rest. -/
def Handled.Lighter (d : Duty) (s : State) (h : Handled) : Prop :=
  load Duty.handling h.2 + h.1.handling < d.handling + s.handling ∨
    load Duty.handling h.2 + h.1.handling ≤ d.handling + s.handling ∧ h.1.clock = s.clock ∧
      (h.1.statements < s.statements ∨ h.1.statements = s.statements ∧
        load (Duty.weight s.clock) h.2 + h.1.weight < d.weight s.clock + s.weight)

theorem load_setRun (w : Duty → Nat) {s : State} {r : RunId} {run : Run}
    (h : s.runs[r]? = some run) (run' : Run) :
    (s.setRun r run').load w + run.load w = s.load w + run'.load w := by
  have := State.total_setRun (Run.load w) h run'
  simp only [State.load, State.setRun] at this ⊢
  omega

/-- What a step makes of a state through one run. -/
def Done.handled (s : State) (r : RunId) (done : Done) : Handled :=
  ((s.setRun r done.run).send done.sent, done.next)

theorem exists_of_onRun {s : State} {r : RunId} {step : Run → Option Done} {h : Handled}
    (hs : s.onRun r step = some h) :
    ∃ run done, s.runs[r]? = some run ∧ step run = some done ∧ h = done.handled s r := by
  unfold State.onRun at hs
  split at hs
  · cases hs
  · next run hrun =>
    obtain ⟨done, hdone, rfl⟩ := Option.map_eq_some_iff.1 hs
    exact ⟨run, done, hrun, hdone, rfl⟩

theorem Done.Lighter.handled {s : State} {r : RunId} {run : Run} {d : Duty} {done : Done}
    (hrun : s.runs[r]? = some run) (h : done.Lighter s.clock run (d.weight s.clock)) :
    (done.handled s r).Lighter d s := by
  have hA := load_setRun Duty.handling hrun done.run
  have hB := State.total_setRun (fun run => run.rest.length) hrun done.run
  have hC := load_setRun (Duty.weight s.clock) hrun done.run
  have hle := h.handling
  have hless := h.less
  refine .inr ⟨?_, rfl, ?_⟩
  · show load Duty.handling done.next + (s.setRun r done.run).load Duty.handling ≤
      d.handling + s.load Duty.handling
    omega
  · show (s.setRun r done.run).total (fun run => run.rest.length) < s.total _ ∨
      (s.setRun r done.run).total (fun run => run.rest.length) = s.total _ ∧
        load (Duty.weight s.clock) done.next + (s.setRun r done.run).load (Duty.weight s.clock) <
          d.weight s.clock + s.load (Duty.weight s.clock)
    rcases hless with hless | ⟨heq, hless⟩
    · left
      omega
    · right
      rw [heq] at hB
      omega

theorem Done.Handles.handled {s : State} {r : RunId} {run : Run} {d : Duty} {done : Done}
    (hrun : s.runs[r]? = some run) (h : done.Handles run d.handling) :
    (done.handled s r).Lighter d s := by
  have hA := load_setRun Duty.handling hrun done.run
  left
  show load Duty.handling done.next + (s.setRun r done.run).load Duty.handling <
    d.handling + s.load Duty.handling
  unfold Done.Handles at h
  omega

/-- Every step leaves less to do. -/
theorem Duty.lighter {b : Backend} {s : State} {d : Duty} {h : Handled}
    (hd : d.perform? b s = some h) : h.Lighter d s := by
  cases d with
  | session d =>
    cases hd
    exact .inl (d.handles b s)
  | run r d =>
    obtain ⟨run, done, hrun, hdone, rfl⟩ := exists_of_onRun hd
    exact Done.Lighter.handled hrun (RunDuty.lighter s.clock hdone)
  | starter r d =>
    obtain ⟨run, done, hrun, hdone, rfl⟩ := exists_of_onRun hd
    exact Done.Lighter.handled hrun (StarterDuty.lighter hdone)
  | request r d =>
    obtain ⟨run, done, hrun, hdone, rfl⟩ := exists_of_onRun hd
    exact Done.Handles.handled hrun (RequestDuty.handles hdone)
  | thread r d =>
    obtain ⟨run, done, hrun, hdone, rfl⟩ := exists_of_onRun hd
    exact Done.Lighter.handled hrun (ThreadDuty.lighter s.clock hdone)

namespace State

theorem lighter_iff {s t : State} : s.Lighter t ↔ s.handling < t.handling ∨
    s.handling = t.handling ∧ (s.statements < t.statements ∨
      s.statements = t.statements ∧ s.weight < t.weight) := by
  simp only [Lighter, Prod.lex_def]

theorem wellFounded_lighter : WellFounded Lighter :=
  InvImage.wf (fun s : State => (s.handling, s.statements, s.weight))
    (WellFoundedRelation.wf (α := Nat × Nat × Nat))

/-- The state after a step of any party is lighter than the state before. -/
theorem lighter_of_advance? {b : Backend} {s t : State} {p : Party}
    (h : s.advance? b p = some t) : t.Lighter s := by
  unfold advance? at h
  split at h
  · cases h
  · next d ds hds =>
    obtain ⟨u, hu, rfl⟩ := Option.map_eq_some_iff.1 h
    have hpopA := load_setAgenda_tail Duty.handling hds
    have hpopC := load_setAgenda_tail (Duty.weight s.clock) hds
    have hclock := clock_setAgenda s p ds
    have hstatements := statements_setAgenda s p ds
    have hpushA := load_setAgenda_append Duty.handling u.1 p u.2
    have hpushC := load_setAgenda_append (Duty.weight s.clock) u.1 p u.2
    have hlight := Duty.lighter hu
    have hpush := statements_setAgenda u.1 p (u.2 ++ u.1.agenda p)
    have hpushClock := clock_setAgenda u.1 p (u.2 ++ u.1.agenda p)
    simp only [Handled.Lighter, handling, weight, hclock, hstatements] at hlight
    simp only [lighter_iff, handling, weight, hpush, hpushClock]
    rcases hlight with hlight | ⟨hle, hclock', hless⟩
    · omega
    · rw [hclock'] at hless ⊢
      omega

end State

end DebugAdapter.Session
