import DebugAdapter.Proofs.Session.Queued
/-!
# What is answered

A request that is handed to a session is answered once. What the handler still has to answer can be
read off its agenda (`Duty.answers`): a step of the handler queues some of these answers and leaves
the others to be given in the same order, and no other party answers anything
(`State.Stride.answers`).

What a step does does not depend on what is in the outbox (`State.advance?_withOutbox`), so the
messages can be taken away at any time.
-/

namespace DebugAdapter.Session

open Protocol (Command Outgoing Request)

/-! ## The outbox -/

/-- The state with another outbox. -/
def State.withOutbox (s : State) (ms : List Outgoing) : State :=
  { s with outbox := ms }

/-- What a duty on the session sends. -/
def SessionDuty.sends (s : State) : SessionDuty → List Outgoing
  | send m => [m]
  | reportTermination => if s.terminatedWithoutRun then [] else [.event terminated]
  | _ => []

section

variable (b : Backend) (s : State) (ms : List Outgoing)

theorem State.handle_withOutbox (request : Request) (c : Command) :
    (s.withOutbox ms).handle request c =
      ((s.handle request c).1.withOutbox ms, (s.handle request c).2) := by
  cases c with
  | launch | restart =>
    simp only [handle, withOutbox]
    split <;> rfl
  | _ => rfl

theorem State.prepare_withOutbox (request : Request) (args : Protocol.LaunchArguments) :
    (s.withOutbox ms).prepare b request args =
      ((s.prepare b request args).1.withOutbox ms, (s.prepare b request args).2) := by
  unfold prepare
  repeat' split
  all_goals rfl

theorem SessionDuty.perform_withOutbox (d : SessionDuty) : d.perform b (s.withOutbox ms) =
    ((d.perform b s).1.withOutbox (ms ++ d.sends s), (d.perform b s).2) := by
  cases d with
  | handle request =>
    simp only [perform, sends, List.append_nil]
    split
    · exact s.handle_withOutbox ms request _
    · rfl
  | openRun request args =>
    simp only [perform, sends, List.append_nil]
    exact s.prepare_withOutbox b ms request args
  | reportTermination =>
    cases htold : s.terminatedWithoutRun <;>
      simp [perform, sends, State.withOutbox, State.send, htold]
  | send m => rfl
  | _ => simp [perform, sends, State.withOutbox, State.passOn, State.currentRun?]

end

variable {b : Backend} {s t : State} {p : Party}

theorem SessionDuty.outbox_perform (d : SessionDuty) :
    (d.perform b s).1.outbox = s.outbox ++ d.sends s :=
  congrArg (fun h => h.1.outbox) (d.perform_withOutbox b s s.outbox)

theorem Duty.perform?_withOutbox {d : Duty} {next : List Duty}
    (h : d.perform? b s = some (t, next)) : ∃ sent, t.outbox = s.outbox ++ sent ∧
      ∀ ms, d.perform? b (s.withOutbox ms) = some (t.withOutbox (ms ++ sent), next) := by
  cases hsub : d.subject? with
  | none =>
    cases d with
    | session d =>
      obtain ⟨rfl, rfl⟩ := Prod.mk.inj (Option.some.inj h)
      exact ⟨d.sends s, d.outbox_perform, fun ms => congrArg some (d.perform_withOutbox b s ms)⟩
    | _ => cases hsub
  | some r =>
    rw [Duty.perform?_of_subject b s hsub] at h
    obtain ⟨run, done, hr, hd, heq⟩ := exists_of_onRun h
    obtain ⟨rfl, rfl⟩ := Prod.mk.inj heq
    refine ⟨done.sent, rfl, fun ms => ?_⟩
    have hr' : (s.withOutbox ms).runs[r]? = some run := hr
    have hd' : d.stroke? b (s.withOutbox ms) r run = some done := by
      cases d <;> exact hd
    rw [Duty.perform?_of_subject b _ hsub]
    simp only [State.onRun, hr', hd']
    rfl

/-- What a step does does not depend on what was queued before. -/
theorem State.advance?_withOutbox (h : s.advance? b p = some t) :
    ∃ sent, t.outbox = s.outbox ++ sent ∧
      ∀ ms, (s.withOutbox ms).advance? b p = some (t.withOutbox (ms ++ sent)) := by
  have hset (u : State) (ds : List Duty) (ms : List Outgoing) :
      (u.withOutbox ms).setAgenda p ds = (u.setAgenda p ds).withOutbox ms := by
    cases p <;> rfl
  have hagenda (u : State) (ms : List Outgoing) : (u.withOutbox ms).agenda p = u.agenda p := by
    cases p <;> rfl
  have houtbox (u : State) (ds : List Duty) : (u.setAgenda p ds).outbox = u.outbox := by
    cases p <;> rfl
  unfold advance? at h
  split at h
  · cases h
  next d ds hds =>
  obtain ⟨⟨u, next⟩, hu, rfl⟩ := Option.map_eq_some_iff.1 h
  obtain ⟨sent, hsent, hperform⟩ := Duty.perform?_withOutbox hu
  refine ⟨sent, ?_, fun ms => ?_⟩
  · rw [houtbox, hsent, houtbox]
  · rw [advance?, hagenda, hds]
    dsimp only
    rw [hset, hperform, Option.map_some, hagenda, hset]

/-! ## Answers -/

/-- How an answer names its request. -/
abbrev RequestName := Int × String

/-- How the answer to a request names it. -/
def nameOf (request : Request) : RequestName :=
  (request.seq, request.command)

/-- The request that a message answers. -/
def answered? : Outgoing → Option RequestName
  | .response r => some (r.requestSeq, r.command)
  | .event _ => none

/-- What the handler is about to answer for a request. -/
def RequestDuty.answers : RequestDuty → List RequestName
  | answerThenStart m => (answered? m).toList
  | resume request _ | pause request | showFrames request | showVariables request _
  | assign request _ | evaluate request _ | showValue request _ => [nameOf request]

/-- What a duty on the session answers, at once or later. -/
def SessionDuty.answers : SessionDuty → List RequestName
  | handle request | openRun request _ | replaceBreakpoints request _ => [nameOf request]
  | send m | passOn _ m => (answered? m).toList
  | reportTermination | clearRegistry | shutdown => []

/-- What a duty answers, at once or later. -/
def Duty.answers : Duty → List RequestName
  | session d => d.answers
  | request _ d => d.answers
  | run _ _ | starter _ _ | thread _ _ => []

/-- What an agenda answers, in order. -/
def answersOf (ds : List Duty) : List RequestName :=
  ds.flatMap Duty.answers

@[simp] theorem answersOf_nil : answersOf [] = [] := rfl

@[simp] theorem answersOf_cons (d : Duty) (ds : List Duty) :
    answersOf (d :: ds) = d.answers ++ answersOf ds := rfl

@[simp] theorem answersOf_append (ds ds' : List Duty) :
    answersOf (ds ++ ds') = answersOf ds ++ answersOf ds' :=
  List.flatMap_append

@[simp] theorem Duty.answers_session (d : SessionDuty) : (session d).answers = d.answers := rfl

@[simp] theorem Duty.answers_run (r : RunId) (d : RunDuty) : (run r d).answers = [] := rfl

@[simp] theorem Duty.answers_request (r : RunId) (d : RequestDuty) :
    (request r d).answers = d.answers := rfl

@[simp] theorem answered?_ok (request : Request) (body : Option Json) :
    answered? (Protocol.Response.ok request body) = some (nameOf request) := rfl

@[simp] theorem answered?_failed (request : Request) (message : String) :
    answered? (Protocol.Response.failed request message) = some (nameOf request) := rfl

@[simp] theorem answers_answer (request : Request) (body : Option Json) :
    (answer request body).answers = [nameOf request] := rfl

@[simp] theorem answers_answerCrash (b : Backend) (request : Request) :
    (answerCrash b request).answers = [nameOf request] := rfl

@[simp] theorem answersOf_refuse (request : Request) (e : DebugError) :
    answersOf (refuse request e) = [nameOf request] := by
  unfold refuse
  split <;> rfl

@[simp] theorem answersOf_abandonAny (r : Option RunId) : answersOf (abandonAny r) = [] := by
  cases r <;> rfl

@[simp] theorem answersOf_tearDown (r : Option RunId) : answersOf (tearDown r) = [] := by
  cases r <;> rfl

@[simp] theorem answersOf_continuedDuties (r : RunId) (how : Protocol.Resumption) :
    answersOf (continuedDuties r how) = [] := by
  unfold continuedDuties
  split <;> rfl

theorem answersOf_withArguments {α : Type} (request : Request) (d : Json.Decoder α)
    {duties : α → List Duty} (h : ∀ args, answersOf (duties args) = [nameOf request]) :
    answersOf (withArguments request d duties) = [nameOf request] := by
  unfold withArguments
  split
  · exact h _
  · exact answersOf_refuse request _

theorem answersOf_forCurrent (s : State) {request : Request} {duty : RequestDuty} {ds : List Duty}
    (hduty : duty.answers = [nameOf request]) (hds : answersOf ds = [nameOf request]) :
    answersOf (s.forCurrent duty ds) = [nameOf request] := by
  unfold State.forCurrent
  split
  · rw [answersOf_cons, answersOf_nil, List.append_nil]
    exact hduty
  · exact hds

/-- A request of any command is answered once. -/
theorem answersOf_handle (s : State) (request : Request) (c : Command) :
    answersOf (s.handle request c).2 = [nameOf request] := by
  have hrelaunch (args) : answersOf (s.relaunch request args).2 = [nameOf request] := by
    simp [State.relaunch, SessionDuty.answers]
  cases c with
  | launch | restart =>
    simp only [State.handle]
    split
    · exact hrelaunch _
    · exact answersOf_refuse request _
  | setBreakpoints => exact answersOf_withArguments request _ fun _ => rfl
  | resume how =>
    exact answersOf_withArguments request _ fun _ => answersOf_forCurrent s rfl rfl
  | pause | stackTrace => exact answersOf_forCurrent s rfl rfl
  | listVariables =>
    refine answersOf_withArguments request _ fun _ => answersOf_forCurrent s rfl ?_
    split
    · rfl
    · exact answersOf_refuse request _
  | setVariable =>
    exact answersOf_withArguments request _ fun _ =>
      answersOf_forCurrent s rfl (answersOf_refuse request _)
  | evaluate =>
    exact answersOf_withArguments request _ fun _ => answersOf_forCurrent s rfl rfl
  | terminate | disconnect =>
    simp [State.handle, SessionDuty.answers]
  | _ => rfl

theorem answersOf_prepare (b : Backend) (s : State) (request : Request)
    (args : Protocol.LaunchArguments) :
    answersOf (s.prepare b request args).2 = [nameOf request] := by
  unfold State.prepare
  repeat' split
  any_goals exact answersOf_refuse request _
  all_goals rfl

/-- What a duty on the session answers it answers at once, or leaves to be answered. -/
theorem SessionDuty.answers_perform (b : Backend) (s : State) (d : SessionDuty) :
    (d.sends s).filterMap answered? ++ answersOf (d.perform b s).2 = d.answers := by
  cases d with
  | handle request =>
    simp only [sends, perform, answers, List.filterMap_nil, List.nil_append]
    split
    · exact answersOf_handle s request _
    · exact answersOf_refuse request _
  | openRun request args => exact answersOf_prepare b s request args
  | send m => cases m <;> rfl
  | reportTermination =>
    cases htold : s.terminatedWithoutRun <;> simp [sends, perform, answers, answered?, htold]
  | passOn replaced m =>
    simp only [sends, perform, answers, State.passOn, List.filterMap_nil, List.nil_append]
    repeat' split
    all_goals simp [RequestDuty.answers, SessionDuty.answers]
  | replaceBreakpoints | clearRegistry => rfl
  | shutdown => simp [sends, perform, answers]

/-- What a duty of the handler on a run answers is left to be answered. -/
theorem Duty.answers_stroke? {r : RunId} {run : Run} {d : Duty} {done : Done}
    (hd : d.stroke? b s r run = some done) (hown : d.BelongsTo .handler) :
    answersOf done.next = d.answers := by
  cases d with
  | session d => cases hd
  | starter _ d | thread _ d => exact hown.elim
  | run _ d =>
    cases d <;> simp only [stroke?, RunDuty.perform?] at hd <;> (repeat' split at hd) <;>
      cases hd <;> rfl
  | request _ d =>
    cases d <;>
      simp only [stroke?, RequestDuty.perform?, resumeStep, pauseStep, assignStep, listStep,
        evaluateStep] at hd <;>
      (repeat' split at hd) <;> cases hd <;>
      simp [RequestDuty.answers, SessionDuty.answers]

/-- A duty on a run sends nothing but events. -/
theorem Duty.filterMap_sends (run : Run) (d : Duty) : (d.sends run).filterMap answered? = [] := by
  cases hevent : d.event? with
  | none => simp [sends, hevent]
  | some e =>
    simp only [sends, hevent, Option.map_some, Option.getD_some, gated]
    split <;> rfl

/-- A step queues what it answers, and leaves the rest to be answered in the same order. -/
theorem State.Stride.answers (hst : s.Stride b t p) (horder : s.Orderly) :
    ∃ sent, t.outbox = s.outbox ++ sent ∧
      sent.filterMap answered? ++ answersOf t.handler = answersOf s.handler := by
  cases hst with
  | @session d ds hs ht =>
    refine ⟨d.sends { s with handler := ds }, ?_, ?_⟩
    · rw [ht]
      exact d.outbox_perform
    · rw [ht, hs, answersOf_append, answersOf_cons, ← List.append_assoc]
      exact congrArg (· ++ answersOf ds) (d.answers_perform b { s with handler := ds })
  | @handler r run d ds done hs hsub hr hd ht =>
    refine ⟨done.sent, by rw [ht]; rfl, ?_⟩
    rw [Duty.sent_of_stroke? hd, d.filterMap_sends, ht, hs, List.nil_append, answersOf_append,
      Duty.answers_stroke? hd (horder.belongsTo hs), answersOf_cons]
  | @starter r run d ds done hs hr hd ht | @thread r run d ds done hs hr hd ht =>
    refine ⟨done.sent, by rw [ht]; rfl, ?_⟩
    rw [Duty.sent_of_stroke? hd, d.filterMap_sends, ht]
    rfl

end DebugAdapter.Session
