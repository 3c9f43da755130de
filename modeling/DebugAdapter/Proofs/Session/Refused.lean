import DebugAdapter.Proofs.Session.Signals
/-!
# Refused requests

A request is refused with a `DebugError`. While the handler works on it (`State.Spell`) the other
parties go on, so what a refused request leaves alone is said of the handler's own steps, and of
what only the handler changes (`State.Kept`) : the current run, the remembered launch and the
registry. Main statement: `refused_request_keeps`. The exception is a launch that names no script,
which gives up the current run before it is refused (`refused_launch_gives_up`).
-/

namespace DebugAdapter.Session

open Protocol (Command LaunchArguments Outgoing Request Response)

/-! ## While a request is handled -/

namespace State

/-- Whether something from outside gives the handler nothing to do. -/
def Input.isIdle : Input → Bool
  | .elapse _ | .release => true
  | .request _ | .hangUp => false

/-- The steps `es` lead from `s` to a state; meanwhile time may pass and stalled executions may be
released, but no request comes. -/
inductive Spell (b : Backend) (s : State) : (es : List (State × Party)) → State → Prop where
  | refl : Spell b s [] s
  | step {es : List (State × Party)} {t u : State} {p : Party} :
      Spell b s es t → t.advance? b p = some u → Spell b s (es ++ [(t, p)]) u
  | accept {es : List (State × Party)} {t : State} {i : Input} :
      Spell b s es t → i.isIdle = true → Spell b s es (t.accept i)

variable {b : Backend} {s t u : State} {es : List (State × Party)}

theorem Spell.path (h : Spell b s es t) : Path b s es t := by
  induction h with
  | refl => exact .refl
  | step _ hp ih => exact ih.step hp
  | @accept es t i _ hi ih =>
    refine ih.accept i ?_
    cases i <;> trivial

/-- Whether one state has the current run, the remembered launch and the registry of another. -/
structure Kept (s t : State) : Prop where
  current : t.current = s.current
  launch : t.launch = s.launch
  registry : t.registry = s.registry

theorem Kept.refl (s : State) : s.Kept s :=
  ⟨rfl, rfl, rfl⟩

theorem Kept.trans (h : s.Kept t) (h' : t.Kept u) : s.Kept u :=
  ⟨h'.current.trans h.current, h'.launch.trans h.launch, h'.registry.trans h.registry⟩

theorem Kept.of_idle {i : Input} (hi : i.isIdle = true) (s : State) : s.Kept (s.accept i) := by
  cases i <;> exact ⟨rfl, rfl, rfl⟩

theorem handler_of_idle {i : Input} (hi : i.isIdle = true) (s : State) :
    (s.accept i).handler = s.handler := by
  cases i <;> first | rfl | cases hi

/-- Only a duty on the session changes what only the handler changes. -/
theorem Stride.kept {p : Party} (hst : s.Stride b t p)
    (hp : p = .handler → ∀ d ds, s.handler ≠ .session d :: ds) : s.Kept t := by
  cases hst with
  | session hs => exact absurd hs (hp rfl _ _)
  | handler _ _ _ _ ht | starter _ _ _ ht | thread _ _ _ ht =>
    subst ht
    exact ⟨rfl, rfl, rfl⟩

/-- A spell without a step of the handler, and one that is cut at the first of them. -/
theorem Spell.cases_handler (h : Spell b s es t) (horder : s.Orderly) :
    ((∀ e ∈ es, e.2 ≠ .handler) ∧ s.Kept t ∧ t.handler = s.handler) ∨
      ∃ es₁ v u es₂, es = es₁ ++ (v, .handler) :: es₂ ∧ (∀ e ∈ es₁, e.2 ≠ .handler) ∧
        Spell b s es₁ v ∧ s.Kept v ∧ v.handler = s.handler ∧ v.advance? b .handler = some u ∧
        Spell b u es₂ t := by
  induction h with
  | refl => exact .inl ⟨by simp, .refl s, rfl⟩
  | @step es t u p hspell hp ih =>
    rcases ih with ⟨hnone, hkept, hhandler⟩ | ⟨es₁, v, w, es₂, rfl, hnone, h₁, hkept, hv, hw, h₂⟩
    · by_cases hparty : p = .handler
      · subst hparty
        exact .inr ⟨es, t, u, [], rfl, hnone, hspell, hkept, hhandler, hp, .refl⟩
      · have hst := (hspell.path.orderly horder).stride hp
        refine .inl ⟨fun e he => ?_, hkept.trans (hst.kept fun heq => absurd heq hparty),
          (hst.handler_eq hparty).trans hhandler⟩
        rcases List.mem_append.1 he with he | he
        · exact hnone e he
        · obtain rfl := List.mem_singleton.1 he
          exact hparty
    · exact .inr ⟨es₁, v, w, es₂ ++ [(t, p)], by simp, hnone, h₁, hkept, hv, hw, h₂.step hp⟩
  | accept _ hi ih =>
    rcases ih with ⟨hnone, hkept, hhandler⟩ | ⟨es₁, v, w, es₂, heq, hnone, h₁, hkept, hv, hw, h₂⟩
    · exact .inl ⟨hnone, hkept.trans (.of_idle hi _), (handler_of_idle hi _).trans hhandler⟩
    · exact .inr ⟨es₁, v, w, es₂, heq, hnone, h₁, hkept, hv, hw, h₂.accept hi⟩

/-- What the handler's steps keep of its agenda holds all through a spell. -/
theorem Spell.keeps {Q : List Duty → Prop} (h : Spell b s es t) (horder : s.Orderly)
    (hs : Q s.handler) (hstep : ∀ {v u : State}, v.Orderly → Q v.handler →
      v.advance? b .handler = some u → Q u.handler) :
    Q t.handler ∧ ∀ e ∈ es, Q e.1.handler := by
  induction h with
  | refl => exact ⟨hs, by simp⟩
  | @step es t u p hspell hp ih =>
    have ht := hspell.path.orderly horder
    refine ⟨?_, fun e he => ?_⟩
    · by_cases hparty : p = .handler
      · subst hparty
        exact hstep ht ih.1 hp
      · rw [(ht.stride hp).handler_eq hparty]
        exact ih.1
    · rcases List.mem_append.1 he with he | he
      · exact ih.2 e he
      · obtain rfl := List.mem_singleton.1 he
        exact ih.1
  | accept _ hi ih => exact ⟨(handler_of_idle hi _).symm ▸ ih.1, ih.2⟩

/-- What each step of the handler keeps is kept by a spell. -/
theorem Spell.kept (h : Spell b s es t) (horder : s.Orderly)
    (hsteps : ∀ v u, (v, .handler) ∈ es → v.advance? b .handler = some u → v.Kept u) :
    s.Kept t := by
  induction h with
  | refl => exact .refl s
  | @step es t u p hspell hp ih =>
    have ht := ih fun v u hmem => hsteps v u (by simp [hmem])
    by_cases hparty : p = .handler
    · subst hparty
      exact ht.trans (hsteps t u (by simp) hp)
    · exact ht.trans (((hspell.path.orderly horder).stride hp).kept fun heq => absurd heq hparty)
  | accept _ hi ih => exact (ih hsteps).trans (.of_idle hi _)

/-- Whether every step of the handler leaves all runs as they are. -/
def SparesRuns (b : Backend) (es : List (State × Party)) : Prop :=
  ∀ v u, (v, .handler) ∈ es → v.advance? b .handler = some u → u.runs = v.runs

theorem SparesRuns.of_none (h : ∀ e ∈ es, e.2 ≠ .handler) : SparesRuns b es :=
  fun v _ hmem _ => absurd rfl (h (v, .handler) hmem)

theorem SparesRuns.of_split {es₁ es₂ : List (State × Party)} {v u : State}
    (hnone : ∀ e ∈ es₁, e.2 ≠ .handler) (hstep : v.advance? b .handler = some u)
    (hruns : u.runs = v.runs) (h : SparesRuns b es₂) :
    SparesRuns b (es₁ ++ (v, .handler) :: es₂) := by
  intro v' u' hmem hstep'
  rcases List.mem_append.1 hmem with hmem | hmem
  · exact absurd rfl (hnone _ hmem)
  · rcases List.mem_cons.1 hmem with heq | hmem
    · obtain ⟨rfl, -⟩ := Prod.mk.inj heq
      obtain rfl := Option.some.inj (hstep.symm.trans hstep')
      exact hruns
    · exact h v' u' hmem hstep'

end State

/-! ## Agendas that only tell -/

/-- Whether a duty only tells the client something. -/
def Duty.isTelling : Duty → Bool
  | session (.send _) | session .reportTermination => true
  | _ => false

theorem isTelling_of_mem_refuse {request : Request} {e : DebugError} :
    ∀ d ∈ refuse request e, d.isTelling = true := by
  unfold refuse
  split <;> simp [Duty.isTelling]

namespace State

variable {b : Backend} {s t u v : State} {es : List (State × Party)}

/-- A step that only tells the client something leaves everything else as it is. -/
theorem telling_step {d : Duty} {ds : List Duty} (hd : d.isTelling = true)
    (hs : s.handler = d :: ds) (hp : s.advance? b .handler = some t) :
    s.Kept t ∧ t.runs = s.runs ∧ t.handler = ds := by
  have hagenda : s.agenda .handler = d :: ds := hs
  simp only [advance?, hagenda] at hp
  unfold Duty.isTelling at hd
  split at hd
  · obtain rfl := Option.some.inj hp
    exact ⟨⟨rfl, rfl, rfl⟩, rfl, rfl⟩
  · obtain rfl := Option.some.inj hp
    simp only [SessionDuty.perform]
    split <;> exact ⟨⟨rfl, rfl, rfl⟩, rfl, rfl⟩
  · cases hd

/-- A handler that only has something to tell leaves everything else as it is. -/
theorem Spell.of_telling (h : Spell b s es t) (horder : s.Orderly)
    (hs : ∀ d ∈ s.handler, d.isTelling = true) : s.Kept t ∧ SparesRuns b es := by
  have hone {v u : State} (hv : ∀ d ∈ v.handler, d.isTelling = true)
      (hp : v.advance? b .handler = some u) :
      v.Kept u ∧ u.runs = v.runs ∧ ∀ d ∈ u.handler, d.isTelling = true := by
    cases hhandler : v.handler with
    | nil => simp [advance?, agenda, hhandler] at hp
    | cons d ds =>
      rw [hhandler] at hv
      obtain ⟨hkept, hruns, hrest⟩ := telling_step (hv d (by simp)) hhandler hp
      exact ⟨hkept, hruns, hrest ▸ fun e he => hv e (by simp [he])⟩
  have hall := (h.keeps (Q := fun hs => ∀ d ∈ hs, d.isTelling = true) horder hs
    fun _ hv hp => (hone hv hp).2.2).2
  exact ⟨h.kept horder fun v u hmem hp => (hone (hall _ hmem) hp).1,
    fun v u hmem hp => (hone (hall _ hmem) hp).2.1⟩

end State

/-! ## Agendas that come to no refusal -/

/-- Whether a message tells of no error that is not fatal: an event, an answer, or the text for a
crash. -/
def spares (b : Backend) : Outgoing → Bool
  | .event _ => true
  | .response r => r.success || r.message == some b.crashText

/-- Whether a duty of the handler never comes to refuse a request. -/
def Duty.isClear (b : Backend) : Duty → Bool
  | session (.handle _) | session (.openRun _ _) => false
  | request _ (.showVariables _ _) | request _ (.assign _ _) => false
  | starter _ _ | thread _ _ => false
  | session (.send m) | session (.passOn _ m) | request _ (.answerThenStart m) => spares b m
  | _ => true

/-- Whether a handler with this agenda will not refuse the request in hand, but for a fatal
error. -/
inductive Heedless (b : Backend) : List Duty → Prop where
  | clear {hs : List Duty} : (∀ d ∈ hs, d.isClear b = true) → Heedless b hs
  | opening {ds : List Duty} {request : Request} {args : LaunchArguments} :
      (∀ d ∈ ds, ∃ r d', d = .run r d') → args.scriptId? ≠ none →
      Heedless b (ds ++ [.session (.openRun request args)])
  | fatal {request : Request} {e : DebugError} : e.isFatal = true → Heedless b (refuse request e)

variable {b : Backend} {s t : State}

theorem spares_ok (request : Request) (body : Option Json) :
    spares b (Response.ok request body) = true := rfl

@[simp] theorem isClear_answer (request : Request) (body : Option Json) :
    (answer request body).isClear b = true := rfl

@[simp] theorem isClear_answerCrash (request : Request) :
    (answerCrash b request).isClear b = true := by
  simp [answerCrash, Duty.isClear, spares, Response.failed, Response.to]

@[simp] theorem isClear_run (r : RunId) (d : RunDuty) : (Duty.run r d).isClear b = true := rfl

theorem isClear_of_mem_abandonAny {r : Option RunId} : ∀ d ∈ abandonAny r, d.isClear b = true := by
  cases r <;> simp [abandonAny, abandon]

theorem isClear_of_mem_tearDown {r : Option RunId} : ∀ d ∈ tearDown r, d.isClear b = true := by
  cases r <;> simp [tearDown, abandon, Duty.isClear]

/-- What a duty on a run gives to do is about the run. -/
theorem RunDuty.exists_of_mem_next {r : RunId} {run : Run} {d : RunDuty} {done : Done}
    (hd : d.perform? r run = some done) : ∀ e ∈ done.next, ∃ d', e = .run r d' := by
  cases d <;> simp only [perform?] at hd <;> (repeat' split at hd) <;> cases hd <;> simp

theorem RequestDuty.isClear_of_mem_next {r : RunId} {run : Run} {d : RequestDuty} {done : Done}
    (hclear : (Duty.request r d).isClear b = true) (hd : d.perform? b r run = some done) :
    ∀ e ∈ done.next, e.isClear b = true := by
  cases d with
  | showVariables | assign => cases hclear
  | answerThenStart m =>
    cases hd
    have hsend : (Duty.session (.send m)).isClear b = true := hclear
    split <;> simp [hsend]
  | resume request how =>
    simp only [perform?, resumeStep, continuedDuties] at hd
    repeat' split at hd
    all_goals cases hd
    all_goals simp
  | pause request =>
    simp only [perform?, pauseStep] at hd
    repeat' split at hd
    all_goals cases hd
    all_goals simp
  | evaluate request expression =>
    cases hd
    simp only [evaluateStep]
    intro e he
    split at he <;> obtain rfl := List.mem_singleton.1 he
    · exact isClear_answerCrash _
    · exact isClear_answer _ _
    · rfl
  | showFrames | showValue =>
    cases hd
    simp

/-- A duty of the handler that comes to no refusal leaves such duties. -/
theorem Duty.isClear_of_mem_next {d : Duty} {u : State} {next : List Duty}
    (hclear : d.isClear b = true) (hd : d.perform? b s = some (u, next)) :
    ∀ e ∈ next, e.isClear b = true := by
  cases d with
  | session d =>
    obtain ⟨rfl, rfl⟩ := Prod.mk.inj (Option.some.inj hd)
    cases d with
    | handle | openRun => cases hclear
    | send | clearRegistry => simp
    | reportTermination =>
      dsimp only
      split <;> simp
    | replaceBreakpoints request args => simp [isClear, spares_ok]
    | passOn replaced m =>
      have hsend : (Duty.session (.send m)).isClear b = true := hclear
      have hstart (r : RunId) : (Duty.request r (.answerThenStart m)).isClear b = true := hclear
      simp only [State.passOn]
      repeat' split
      all_goals simp [hsend, hstart]
    | shutdown =>
      intro e he
      rcases List.mem_append.1 he with he | he
      · exact isClear_of_mem_abandonAny e he
      · obtain rfl := List.mem_singleton.1 he
        rfl
  | run r d =>
    obtain ⟨run, done, -, hdone, heq⟩ := exists_of_onRun hd
    obtain ⟨rfl, rfl⟩ := Prod.mk.inj heq
    intro e he
    obtain ⟨d', rfl⟩ := RunDuty.exists_of_mem_next hdone e he
    rfl
  | starter | thread => cases hclear
  | request r d =>
    obtain ⟨run, done, -, hdone, heq⟩ := exists_of_onRun hd
    obtain ⟨rfl, rfl⟩ := Prod.mk.inj heq
    exact RequestDuty.isClear_of_mem_next hclear hdone

/-- What the handler has to do besides is not touched by a duty. -/
theorem Duty.handler_perform? {d : Duty} {u : State} {next : List Duty}
    (hd : d.perform? b s = some (u, next)) : u.handler = s.handler := by
  cases d with
  | session d =>
    obtain ⟨rfl, -⟩ := Prod.mk.inj (Option.some.inj hd)
    exact d.handler_perform b s
  | _ =>
    obtain ⟨run, done, -, -, heq⟩ := exists_of_onRun hd
    obtain ⟨rfl, -⟩ := Prod.mk.inj heq
    rfl

namespace State

variable {u v : State} {es : List (State × Party)}

/-- A step of the handler performs its first duty, and what that gives to do comes first. -/
theorem exists_of_handler_step (hp : s.advance? b .handler = some t) : ∃ d ds u next,
    s.handler = d :: ds ∧ d.perform? b { s with handler := ds } = some (u, next) ∧
      t = { u with handler := next ++ ds } := by
  cases hs : s.handler with
  | nil => simp [advance?, agenda, hs] at hp
  | cons d ds =>
    have hagenda : s.agenda .handler = d :: ds := hs
    simp only [advance?, hagenda] at hp
    obtain ⟨⟨u, next⟩, hd, rfl⟩ := Option.map_eq_some_iff.1 hp
    refine ⟨d, ds, u, next, rfl, hd, ?_⟩
    have hhandler : u.handler = ds := Duty.handler_perform? hd
    simp only [setAgenda, agenda, hhandler]

/-- A launch that names a script is only refused with fatal errors. -/
theorem heedless_prepare {request : Request} {args : LaunchArguments}
    (hid : args.scriptId? ≠ none) : Heedless b (s.prepare b request args).2 := by
  unfold prepare
  split
  next hnone => exact absurd hnone hid
  next id _ =>
    split
    · exact .fatal rfl
    · exact .fatal rfl
    · split
      · exact .clear (by simp)
      · exact .fatal rfl
      · exact .clear (by simp [openRun])

end State

theorem Heedless.ne_refuse {hs : List Duty} {request : Request} {e : DebugError}
    (h : Heedless b hs) (hfatal : e.isFatal = false) (hcrash : e.message ≠ b.crashText) :
    hs ≠ refuse request e := by
  intro heq
  cases h with
  | clear hclear =>
    have hmem : Duty.session (.send (Response.failed request e.message)) ∈ hs := by
      simp [heq, refuse]
    simpa [Duty.isClear, spares, Response.failed, Response.to, hcrash] using hclear _ hmem
  | opening =>
    have hlast := congrArg List.getLast? heq
    simp [refuse, hfatal] at hlast
  | fatal hfatal' => simp [refuse, hfatal, hfatal'] at heq

/-- A handler that will not refuse the request in hand never will, but for a fatal error. -/
theorem Heedless.of_step (h : Heedless b s.handler) (hp : s.advance? b .handler = some t) :
    Heedless b t.handler := by
  obtain ⟨d, ds, u, next, hs, hd, rfl⟩ := State.exists_of_handler_step hp
  rw [hs] at h
  generalize hhs : d :: ds = hs at h
  cases h with
  | clear hclear =>
    subst hhs
    refine .clear fun e he => ?_
    rcases List.mem_append.1 he with he | he
    · exact Duty.isClear_of_mem_next (hclear d (by simp)) hd e he
    · exact hclear e (by simp [he])
  | @opening ds' request args hruns hid =>
    cases ds' with
    | nil =>
      obtain ⟨rfl, rfl⟩ := List.cons.inj hhs
      obtain ⟨-, rfl⟩ := Prod.mk.inj (Option.some.inj hd)
      show Heedless b ((State.prepare b _ request args).2 ++ [])
      rw [List.append_nil]
      exact State.heedless_prepare hid
    | cons d' ds' =>
      obtain ⟨rfl, rfl⟩ := List.cons.inj hhs
      obtain ⟨r, d', rfl⟩ := hruns d (by simp)
      obtain ⟨run, done, -, hdone, heq⟩ := exists_of_onRun hd
      obtain ⟨rfl, rfl⟩ := Prod.mk.inj heq
      show Heedless b (done.next ++ (ds' ++ _))
      rw [← List.append_assoc]
      refine .opening (fun e he => ?_) hid
      rcases List.mem_append.1 he with he | he
      · exact ⟨r, RunDuty.exists_of_mem_next hdone e he⟩
      · exact hruns e (by simp [he])
  | @fatal request e hfatal =>
    have hds : ds = [.session .reportTermination] := by
      simp only [refuse, hfatal, if_true] at hhs
      exact (List.cons.inj hhs).2
    have htold : d.isTelling = true := isTelling_of_mem_refuse d (hhs ▸ List.mem_cons_self)
    rw [(State.telling_step htold hs hp).2.2, hds]
    exact .clear (by simp [Duty.isClear])

/-- Whether a duty lists variables for a request, or sets one. -/
def RequestDuty.mayRefuse (request : Request) (d : RequestDuty) : Prop :=
  (∃ reference, d = .showVariables request reference) ∨ ∃ args, d = .assign request args

namespace State

variable {u v : State} {es : List (State × Party)}

/-- Whether the handler came to refuse a request with this error in a step. -/
def RefusesIn (b : Backend) (request : Request) (e : DebugError) (step : State × Party) : Prop :=
  step.2 = .handler ∧ ∃ u, step.1.advance? b .handler = some u ∧ u.handler = refuse request e

theorem Spell.not_refuses {request : Request} {e : DebugError} (h : Spell b s es t)
    (horder : s.Orderly) (hs : Heedless b s.handler) (hfatal : e.isFatal = false)
    (hcrash : e.message ≠ b.crashText) : ∀ step ∈ es, ¬RefusesIn b request e step := by
  rintro ⟨v, p⟩ hmem ⟨rfl, u, hp, hu⟩
  have hv := (h.keeps horder hs fun _ hv hp => hv.of_step hp).2 _ hmem
  exact (hv.of_step hp).ne_refuse hfatal hcrash hu

/-- A step in which a request is refused comes after one that does not refuse it. -/
theorem RefusesIn.mem_tail {request : Request} {e : DebugError} {step : State × Party}
    {es₁ es₂ : List (State × Party)} (h : RefusesIn b request e step)
    (hmem : step ∈ es₁ ++ (v, .handler) :: es₂) (hnone : ∀ step ∈ es₁, step.2 ≠ .handler)
    (hu : v.advance? b .handler = some u) (hne : u.handler ≠ refuse request e) : step ∈ es₂ := by
  rcases List.mem_append.1 hmem with hmem | hmem
  · exact absurd h.1 (hnone step hmem)
  · rcases List.mem_cons.1 hmem with rfl | hmem
    · obtain ⟨-, u', hu', hrefused⟩ := h
      obtain rfl := Option.some.inj (hu.symm.trans hu')
      exact absurd hrefused hne
    · exact hmem

/-! ## How a request is taken up -/

/-- The arguments with which a request launches a script, if it does. -/
def launches? (s : State) (request : Request) : Option LaunchArguments :=
  match Command.ofName? request.command with
  | some .launch =>
    (Protocol.decodeArguments request.command LaunchArguments.decode request.arguments).toOption
  | some .restart => s.launch
  | _ => none

/-- What a request may lead to at first. -/
inductive Takes (b : Backend) (s : State) (request : Request) : Handled → Prop where
  | refuse (e : DebugError) : s.launches? request = none → Takes b s request (s, refuse request e)
  | look (r : RunId) {d : RequestDuty} : d.mayRefuse request → s.launches? request = none →
      Takes b s request (s, [.request r d])
  | launch {args : LaunchArguments} : s.launches? request = some args →
      Takes b s request (s.relaunch request args)
  | clear {h : Handled} : (∀ d ∈ h.2, d.isClear b = true) → Takes b s request h

theorem takes_withArguments {α : Type} {request : Request} {decoder : Json.Decoder α}
    {duties : α → List Duty} (hnone : s.launches? request = none)
    (h : ∀ args, Takes b s request (s, duties args)) :
    Takes b s request (s, withArguments request decoder duties) := by
  unfold withArguments
  split
  · exact h _
  · exact .refuse _ hnone

theorem takes_forCurrent {request : Request} {otherwise : List Duty} {duty : RequestDuty}
    (h : ∀ r, Takes b s request (s, [.request r duty]))
    (hotherwise : Takes b s request (s, otherwise)) :
    Takes b s request (s, s.forCurrent duty otherwise) := by
  unfold forCurrent
  split
  · exact h _
  · exact hotherwise

theorem takes_handle (b : Backend) (s : State) (request : Request) :
    Takes b s request ((SessionDuty.handle request).perform b s) := by
  have hanswer (body : Option Json) : Takes b s request (s, [answer request body]) :=
    .clear (by simp)
  have hrequest {d : RequestDuty} (hd : ∀ r, (Duty.request r d).isClear b = true) (r : RunId) :
      Takes b s request (s, [.request r d]) := .clear (by simpa using hd r)
  cases hc : Command.ofName? request.command with
  | none =>
    simp only [SessionDuty.perform, hc]
    exact .refuse _ (by simp [launches?, hc])
  | some c =>
    simp only [SessionDuty.perform, hc]
    cases c with
    | launch =>
      simp only [handle]
      split
      next args hargs => exact .launch (by simp [launches?, hc, hargs, Except.toOption])
      next e hargs => exact .refuse e (by simp [launches?, hc, hargs, Except.toOption])
    | restart =>
      simp only [handle]
      split
      next args hargs => exact .launch (by simp [launches?, hc, hargs])
      next hargs => exact .refuse _ (by simp [launches?, hc, hargs])
    | setBreakpoints =>
      exact takes_withArguments (by simp [launches?, hc]) fun _ => .clear (by simp [Duty.isClear])
    | resume how =>
      exact takes_withArguments (by simp [launches?, hc]) fun _ =>
        takes_forCurrent (hrequest fun _ => rfl) (hanswer _)
    | pause | stackTrace => exact takes_forCurrent (hrequest fun _ => rfl) (hanswer _)
    | listVariables =>
      have hnone : s.launches? request = none := by simp [launches?, hc]
      refine takes_withArguments hnone fun args =>
        takes_forCurrent (fun r => .look r (.inl ⟨args.reference, rfl⟩) hnone) ?_
      split
      · exact hanswer _
      · exact .refuse _ hnone
    | setVariable =>
      have hnone : s.launches? request = none := by simp [launches?, hc]
      exact takes_withArguments hnone fun args =>
        takes_forCurrent (fun r => .look r (.inr ⟨args, rfl⟩) hnone) (.refuse _ hnone)
    | evaluate =>
      exact takes_withArguments (by simp [launches?, hc]) fun _ =>
        takes_forCurrent (hrequest fun _ => rfl) (hanswer _)
    | terminate =>
      refine .clear fun d hd => ?_
      simp only [handle, List.mem_append, List.mem_cons, List.not_mem_nil, or_false] at hd
      rcases hd with (rfl | hd) | rfl
      · rfl
      · exact isClear_of_mem_tearDown d hd
      · rfl
    | disconnect =>
      refine .clear fun d hd => ?_
      simp only [handle, List.mem_append, List.mem_cons, List.not_mem_nil, or_false] at hd
      rcases hd with (rfl | hd) | rfl | rfl
      · rfl
      · exact isClear_of_mem_tearDown d hd
      · rfl
      · rfl
    | _ => exact hanswer _

/-- Looking at the variables of a run, or setting one, refuses and changes nothing, or answers. -/
theorem refuses_or_clear {r : RunId} {run : Run} {d : RequestDuty} {done : Done} {request : Request}
    (hd : d.mayRefuse request) (hdone : d.perform? b r run = some done) :
    (∃ e, done = { run, next := refuse request e }) ∨ ∀ e ∈ done.next, e.isClear b = true := by
  rcases hd with ⟨reference, rfl⟩ | ⟨args, rfl⟩
  · obtain rfl := Option.some.inj hdone
    unfold listStep
    split
    · exact .inl ⟨_, rfl⟩
    · exact .inr (by simp)
  · simp only [RequestDuty.perform?] at hdone
    split at hdone
    · obtain rfl := Option.some.inj hdone
      unfold assignStep
      split
      · split
        · exact .inl ⟨_, rfl⟩
        · exact .inr (by simp)
      · exact .inl ⟨_, rfl⟩
    · cases hdone

/-- A launch that names no script is refused. -/
theorem refused_of_openRun {request : Request} {args : LaunchArguments}
    (hid : args.scriptId? = none) (hs : s.handler = [.session (.openRun request args)])
    (hp : s.advance? b .handler = some t) :
    s.Kept t ∧ t.runs = s.runs ∧ t.handler = refuse request .noScriptNamed := by
  obtain ⟨d, ds, u, next, hds, hd, rfl⟩ := exists_of_handler_step hp
  obtain ⟨rfl, rfl⟩ := List.cons.inj (hds.symm.trans hs)
  have hprepare : prepare b { s with handler := [] } request args =
      ({ s with handler := [] }, refuse request .noScriptNamed) := by simp [prepare, hid]
  obtain ⟨rfl, rfl⟩ := Prod.mk.inj ((Option.some.inj hd).symm.trans hprepare)
  exact ⟨⟨rfl, rfl, rfl⟩, rfl, List.append_nil _⟩

/-- Once the current run is given up, a launch that names no script changes nothing. -/
theorem Spell.of_openRun {request : Request} {args : LaunchArguments} (h : Spell b s es t)
    (horder : s.Orderly) (hid : args.scriptId? = none)
    (hs : s.handler = [.session (.openRun request args)]) : SparesRuns b es := by
  rcases h.cases_handler horder with
    ⟨hnone, -⟩ | ⟨es₁, v, u, es₂, rfl, hnone, h₁, -, hv, hu, h₂⟩
  · exact .of_none hnone
  · have hvorder := h₁.path.orderly horder
    obtain ⟨-, hruns, hrefused⟩ := refused_of_openRun hid (hv.trans hs) hu
    have htold := h₂.of_telling (hvorder.of_stride (hvorder.stride hu))
      (hrefused ▸ isTelling_of_mem_refuse)
    exact .of_split hnone hu hruns htold.2

/-- While a launch that names no script gives up a run, what only the handler changes is kept. -/
theorem Spell.of_opening {request : Request} {args : LaunchArguments} {ds : List Duty}
    (h : Spell b s es t) (horder : s.Orderly) (hid : args.scriptId? = none)
    (hruns : ∀ d ∈ ds, ∃ r d', d = .run r d')
    (hs : s.handler = ds ++ [.session (.openRun request args)]) : s.Kept t := by
  let Q (hs : List Duty) : Prop := (∃ ds, (∀ d ∈ ds, ∃ r d', d = .run r d') ∧
    hs = ds ++ [.session (.openRun request args)]) ∨ ∀ d ∈ hs, d.isTelling = true
  have hone {v u : State} (hv : Q v.handler) (hp : v.advance? b .handler = some u) :
      Q u.handler ∧ v.Kept u := by
    rcases hv with ⟨ds, hruns, hv⟩ | hv
    · cases ds with
      | nil =>
        obtain ⟨hkept, -, hrefused⟩ := refused_of_openRun hid hv hp
        exact ⟨.inr (hrefused ▸ isTelling_of_mem_refuse), hkept⟩
      | cons d ds =>
        obtain ⟨r, d', rfl⟩ := hruns d (by simp)
        obtain ⟨d, hs, w, next, hds, hd, rfl⟩ := exists_of_handler_step hp
        obtain ⟨rfl, rfl⟩ := List.cons.inj (hds.symm.trans hv)
        obtain ⟨run, done, -, hdone, heq⟩ := exists_of_onRun hd
        obtain ⟨rfl, rfl⟩ := Prod.mk.inj heq
        refine ⟨.inl ⟨done.next ++ ds, fun e he => ?_, by simp⟩, ⟨rfl, rfl, rfl⟩⟩
        rcases List.mem_append.1 he with he | he
        · exact ⟨r, RunDuty.exists_of_mem_next hdone e he⟩
        · exact hruns e (by simp [he])
    · cases hhandler : v.handler with
      | nil => simp [advance?, agenda, hhandler] at hp
      | cons d ds =>
        rw [hhandler] at hv
        obtain ⟨hkept, -, hrest⟩ := telling_step (hv d (by simp)) hhandler hp
        exact ⟨.inr (hrest ▸ fun e he => hv e (by simp [he])), hkept⟩
  have hall := (h.keeps (Q := Q) horder (.inl ⟨ds, hruns, hs⟩) fun _ hv hp => (hone hv hp).1).2
  exact h.kept horder fun v u hmem hp => (hone (hall _ hmem) hp).2

end State

/-! ## What a refused request leaves alone -/

/-- A request that is refused leaves the current run, the remembered launch and the registry as they
are, and no step of the handler changes a run, if the error is not fatal; but a launch that names no
script gives up the current run and is remembered. -/
theorem refused_request_keeps {b : Backend} {s t : State} {es₀ es : List (State × Party)}
    {request : Request} {e : DebugError} (h₀ : State.Path b {} es₀ s)
    (hs : s.handler = [.session (.handle request)]) (h : s.Spell b es t)
    (hrefused : ∃ step ∈ es, State.RefusesIn b request e step) (hfatal : e.isFatal = false)
    (hcrash : e.message ≠ b.crashText) :
    (s.Kept t ∧ State.SparesRuns b es) ↔ ∀ args, s.launches? request = some args →
      args.scriptId? = none → s.current = none ∧ s.launch = some args := by
  have horder := h₀.orderly State.orderly_empty
  obtain ⟨step, hmem, hrefuses⟩ := hrefused
  rcases h.cases_handler horder with
    ⟨hnone, -⟩ | ⟨es₁, v, u, es₂, rfl, hnone, h₁, hkept, hv, hu, h₂⟩
  · exact absurd hrefuses.1 (hnone step hmem)
  have hvorder := h₁.path.orderly horder
  have huorder := hvorder.of_stride (hvorder.stride hu)
  have hlater (hne : u.handler ≠ refuse request e) : step ∈ es₂ :=
    hrefuses.mem_tail hmem hnone hu hne
  have hnever (hheedless : Heedless b u.handler) : False :=
    h₂.not_refuses huorder hheedless hfatal hcrash step
      (hlater (hheedless.ne_refuse hfatal hcrash)) hrefuses
  obtain ⟨d, ds, w, next, hvs, hd, heq⟩ := State.exists_of_handler_step hu
  obtain ⟨rfl, rfl⟩ := List.cons.inj (hvs.symm.trans (hv.trans hs))
  have htakes := State.takes_handle b { v with handler := [] } request
  rw [show (SessionDuty.handle request).perform b { v with handler := [] } = (w, next) from
    Option.some.inj hd] at htakes
  have hlaunches : State.launches? { v with handler := [] } request = s.launches? request := by
    simp only [State.launches?, hkept.launch]
  rw [← hkept.current, ← hkept.launch, ← hlaunches]
  cases htakes with
  | refuse e' hnolaunch =>
    obtain ⟨htold, hspares⟩ := h₂.of_telling huorder (by simpa [heq] using isTelling_of_mem_refuse)
    refine iff_of_true ⟨?_, .of_split hnone hu (by rw [heq]) hspares⟩ (by simp [hnolaunch])
    exact (hkept.trans (by rw [heq]; exact ⟨rfl, rfl, rfl⟩)).trans htold
  | @look r d hlook hnolaunch =>
    have hu' : u.handler = [.request r d] := by rw [heq]; rfl
    have hmem : step ∈ es₂ := hlater (by simp [hu', refuse])
    rcases h₂.cases_handler huorder with
      ⟨hnone', -⟩ | ⟨es₃, v', u', es₄, rfl, hnone', h₃, hkept', hv', hstep, h₄⟩
    · exact absurd hrefuses.1 (hnone' step hmem)
    have hv'order := h₃.path.orderly huorder
    have hu'order := hv'order.of_stride (hv'order.stride hstep)
    obtain ⟨d', ds, w', next', hvs', hd', heq'⟩ := State.exists_of_handler_step hstep
    obtain ⟨rfl, rfl⟩ := List.cons.inj (hvs'.symm.trans (hv'.trans hu'))
    obtain ⟨run, done, hr, hdone, hhandled⟩ := exists_of_onRun hd'
    obtain ⟨rfl, rfl⟩ := Prod.mk.inj hhandled
    rcases State.refuses_or_clear hlook hdone with ⟨e', rfl⟩ | hclear
    · obtain ⟨htold, hspares⟩ := h₄.of_telling hu'order
        (by simpa [heq'] using isTelling_of_mem_refuse)
      have hruns : u'.runs = v'.runs := by
        rw [heq']
        obtain ⟨hlt, rfl⟩ := List.getElem?_eq_some_iff.1 hr
        exact List.set_getElem_self hlt
      refine iff_of_true ⟨?_, .of_split hnone hu (by rw [heq]) ?_⟩ (by simp [hnolaunch])
      · exact (hkept.trans (by rw [heq]; exact ⟨rfl, rfl, rfl⟩)).trans
          (hkept'.trans ((by rw [heq']; exact ⟨rfl, rfl, rfl⟩ : v'.Kept u').trans htold))
      · exact .of_split hnone' hstep hruns hspares
    · have hheedless : Heedless b u'.handler := .clear (by simpa [heq'] using hclear)
      exact (h₄.not_refuses hu'order hheedless hfatal hcrash step
        (hrefuses.mem_tail hmem hnone' hstep (hheedless.ne_refuse hfatal hcrash)) hrefuses).elim
  | @launch args hargs =>
    have hu' : u.handler = abandonAny v.current ++ [.session (.openRun request args)] := by
      rw [heq]
      exact List.append_nil _
    have hruns : ∀ d ∈ abandonAny v.current, ∃ r d', d = .run r d' := by
      cases v.current <;> simp [abandonAny, abandon]
    by_cases hid : args.scriptId? = none
    · have hopening := h₂.of_opening huorder hid hruns hu'
      constructor
      · rintro ⟨hkept', -⟩ args' hargs' -
        obtain rfl := Option.some.inj (hargs.symm.trans hargs')
        have hcurrent := hkept'.current.symm.trans hopening.current
        have hlaunch := hkept'.launch.symm.trans hopening.launch
        rw [heq] at hcurrent hlaunch
        exact ⟨hkept.current.trans hcurrent, hkept.launch.trans hlaunch⟩
      · intro hall
        obtain ⟨hcurrent, hlaunch⟩ := hall args hargs hid
        have hstep : v.Kept u := by
          rw [heq]
          exact ⟨hcurrent.symm, hlaunch.symm, rfl⟩
        rw [hcurrent] at hu'
        exact ⟨(hkept.trans hstep).trans hopening,
          .of_split hnone hu (by rw [heq]) (h₂.of_openRun huorder hid hu')⟩
    · refine (hnever ?_).elim
      rw [hu']
      exact .opening hruns hid
  | clear hclear =>
    refine (hnever (.clear ?_)).elim
    simpa [heq] using hclear

/-! ## Two refused requests -/

namespace State

variable {b : Backend} {s t u : State} {es es' : List (State × Party)}

theorem Spell.walk {n : Nat} {p : Party} (h : Spell b s es t)
    (hw : t.walk? b (taken n p) = some (es', u)) : Spell b s (es ++ es') u := by
  induction n generalizing es t es' with
  | zero =>
    cases hw
    simpa using h
  | succ n ih =>
    obtain ⟨t', hp, hw⟩ := Option.bind_eq_some_iff.1 hw
    obtain ⟨w, hrest, heq⟩ := Option.map_eq_some_iff.1 hw
    obtain ⟨rfl, rfl⟩ := Prod.mk.inj heq
    simpa using ih (h.step hp) hrest

/-- Whether the handler is about to refuse a request with an error that is not fatal. -/
def isRefusing (s : State) (request : Request) (e : DebugError) : Bool :=
  match s.handler with
  | [.session (.send (.response ⟨seq, false, command, some message, none⟩))] =>
    seq == request.seq && command == request.command && message == e.message && !e.isFatal
  | _ => false

theorem handler_of_isRefusing {request : Request} {e : DebugError}
    (h : s.isRefusing request e = true) : s.handler = refuse request e := by
  unfold isRefusing at h
  split at h
  next hs =>
    simp only [Bool.and_eq_true, beq_iff_eq, Bool.not_eq_true'] at h
    obtain ⟨⟨⟨rfl, rfl⟩, rfl⟩, hfatal⟩ := h
    simp [hs, refuse, hfatal, Response.failed, Response.to]
  · cases h

/-- Whether the handler comes to refuse a request in a step. -/
def refusesIn (b : Backend) (request : Request) (e : DebugError) (step : State × Party) : Bool :=
  step.2 == .handler && (step.1.advance? b .handler).any (·.isRefusing request e)

theorem RefusesIn.of_refusesIn {request : Request} {e : DebugError} {step : State × Party}
    (h : refusesIn b request e step = true) : RefusesIn b request e step := by
  simp only [refusesIn, Bool.and_eq_true, beq_iff_eq] at h
  obtain ⟨u, hu, hrefusing⟩ := (Option.any_eq_true ..).1 h.2
  exact ⟨h.1, u, hu, handler_of_isRefusing hrefusing⟩

/-- Whether on a walk, and `n` steps of the handler after a request has come, the handler comes to
refuse the request, and something holds of the states between which it works. -/
def walksRefusing (b : Backend) (ts : List Turn) (request : Request) (e : DebugError) (n : Nat)
    (holds : State → State → Bool) : Bool :=
  (({} : State).walk? b ts).any fun w => w.2.handler.isEmpty &&
    ((w.2.accept (.request request)).walk? b (taken n .handler)).any fun w' =>
      w'.1.any (refusesIn b request e) && holds (w.2.accept (.request request)) w'.2

theorem exists_refused {ts : List Turn} {request : Request} {e : DebugError} {n : Nat}
    {holds : State → State → Bool} (hwalk : walksRefusing b ts request e n holds = true) :
    ∃ es₀ s es t, Path b {} es₀ s ∧ s.handler = [.session (.handle request)] ∧ s.Spell b es t ∧
      (∃ step ∈ es, RefusesIn b request e step) ∧ holds s t = true := by
  obtain ⟨⟨es₀, s⟩, hw, hfacts⟩ := (Option.any_eq_true ..).1 hwalk
  simp only [Bool.and_eq_true, List.isEmpty_iff] at hfacts
  obtain ⟨hidle, hfacts⟩ := hfacts
  obtain ⟨⟨es, t⟩, hw', hfacts⟩ := (Option.any_eq_true ..).1 hfacts
  simp only [Bool.and_eq_true, List.any_eq_true] at hfacts
  obtain ⟨⟨step, hmem, hrefuses⟩, hholds⟩ := hfacts
  exact ⟨es₀, _, es, t, (Path.refl.walk hw).accept (.request request) hidle,
    by simp [accept, hidle], Spell.refl.walk hw', ⟨step, hmem, .of_refusesIn hrefuses⟩, hholds⟩

end State

/-- A request to set a variable under a reference that was not handed out. -/
def setUnknown : Request :=
  ⟨2, "request", "setVariable", .object [("variablesReference", Json.ofInt 99),
    ("name", .string "x"), ("value", .string "1")]⟩

/-- A script that is stopped stays so when a variable cannot be set. -/
theorem refused_request_keeps_setUnknown : ∃ es₀ s es t, State.Path promptBackend {} es₀ s ∧
    s.Spell promptBackend es t ∧
      (∃ step ∈ es, State.RefusesIn promptBackend setUnknown (.unknownReference 99) step) ∧
      s.current = some 0 ∧ s.Kept t ∧ State.SparesRuns promptBackend es := by
  have hwalk : State.walksRefusing promptBackend stopOnce setUnknown (.unknownReference 99) 3
      (fun s _ => s.current == some 0 && (s.launches? setUnknown).isNone) = true := by
    decide +kernel
  obtain ⟨es₀, s, es, t, h₀, hs, h, hrefused, hfacts⟩ := State.exists_refused hwalk
  simp only [Bool.and_eq_true, beq_iff_eq, Option.isNone_iff_eq_none] at hfacts
  have hkept := (refused_request_keeps h₀ hs h hrefused rfl (by decide)).2 (by simp [hfacts.2])
  exact ⟨es₀, s, es, t, h₀, h, hrefused, hfacts.1, hkept⟩

/-- A launch that names no script. -/
def launchNothing : Request :=
  ⟨2, "request", "launch", .object []⟩

/-- Whether the current run of one state is over in another, which has no current run. -/
def State.gaveUp (s t : State) : Bool :=
  t.handler.isEmpty && t.current.isNone &&
    s.currentRun?.any fun c => c.2.isLive && t.runs[c.1]?.any fun run => !run.isLive

/-- A launch that names no script is refused, with an error that is not fatal; but the script that
was stopped is given up. -/
theorem refused_launch_gives_up : DebugError.noScriptNamed.isFatal = false ∧
    ∃ es₀ s es t r run run', State.Path promptBackend {} es₀ s ∧
      s.handler = [.session (.handle launchNothing)] ∧
      s.Spell promptBackend es t ∧ t.handler = [] ∧
      (∃ step ∈ es, State.RefusesIn promptBackend launchNothing .noScriptNamed step) ∧
      s.currentRun? = some (r, run) ∧ run.isLive = true ∧ t.current = none ∧
      t.runs[r]? = some run' ∧ run'.isLive = false := by
  refine ⟨rfl, ?_⟩
  have hwalk : State.walksRefusing promptBackend stopOnce launchNothing .noScriptNamed 7
      State.gaveUp = true := by decide +kernel
  obtain ⟨es₀, s, es, t, h₀, hs, h, hrefused, hfacts⟩ := State.exists_refused hwalk
  simp only [State.gaveUp, Bool.and_eq_true, List.isEmpty_iff, Option.isNone_iff_eq_none] at hfacts
  obtain ⟨⟨hhandler, hnone⟩, hcurrent⟩ := hfacts
  obtain ⟨⟨r, run⟩, hr, hlive⟩ := (Option.any_eq_true ..).1 hcurrent
  simp only [Bool.and_eq_true] at hlive
  obtain ⟨hlive, hover⟩ := hlive
  obtain ⟨run', hr', hover⟩ := (Option.any_eq_true ..).1 hover
  exact ⟨es₀, s, es, t, r, run, run', h₀, hs, h, hhandler, hrefused, hr, hlive, hnone, hr',
    by simpa using hover⟩

end DebugAdapter.Session
