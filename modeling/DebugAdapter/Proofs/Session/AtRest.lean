import DebugAdapter.Proofs.Session.Abandoned
/-!
# The handler at rest

The handler gets done with every request: when no party of a session can go on, the handler has
nothing left to do (`State.Path.handler_of_blocked`). It may wait for the lock of a run, which is
released without its help, and the runs that it works on are there (`State.Known`).

A session is disconnected by a request to disconnect and by the end of its client, and by nothing
else (`State.Stride.connected`), and it stays disconnected (`State.Stride.disconnected`).
-/

namespace DebugAdapter.Session

open Protocol (Command Request)

/-! ## The runs that the handler works on -/

/-- Whether the current run and all runs that the handler works on are there. -/
structure State.Known (s : State) : Prop where
  current {r : RunId} : s.current = some r → r < s.runs.length
  handler {d : Duty} {r : RunId} : d ∈ s.handler → d.subject? = some r → r < s.runs.length

theorem subject_of_mem_refuse {request : Request} {error : DebugError} {e : Duty}
    (he : e ∈ refuse request error) : e.subject? = none := by
  unfold refuse at he
  split at he <;> simp only [List.mem_cons, List.not_mem_nil, or_false] at he
  · rcases he with rfl | rfl <;> rfl
  · rw [he]
    rfl

theorem subject_of_mem_abandonAny {o : Option RunId} {r : RunId} {e : Duty}
    (he : e ∈ abandonAny o) (hsub : e.subject? = some r) : o = some r := by
  cases o with
  | none => cases he
  | some r' => exact (subject_of_mem_abandon he).symm.trans hsub

variable {b : Backend} {s t : State} {p : Party} {r : RunId}

/-- The handler handles a request with the current run only. -/
theorem current_of_mem_handle {request : Request} {c : Command} {e : Duty}
    (he : e ∈ (s.handle request c).2) (hsub : e.subject? = some r) : s.current = some r := by
  cases c <;>
    simp only [State.handle, State.relaunch, withArguments, State.forCurrent, answer,
      tearDown] at he <;>
    (repeat' split at he) <;>
    grind [Duty.subject?, subject_of_mem_refuse, subject_of_mem_abandonAny, subject_of_mem_abandon]

theorem State.subject_of_mem_prepare {request : Request} {args : Protocol.LaunchArguments}
    {e : Duty} (he : e ∈ (s.prepare b request args).2) (hsub : e.subject? = some r) :
    r < (s.prepare b request args).1.runs.length := by
  unfold prepare at he ⊢
  repeat' split at he
  any_goals
    rw [subject_of_mem_refuse he] at hsub
    cases hsub
  · obtain rfl := List.mem_singleton.1 he
    cases hsub
  next program _ =>
    simp only [openRun, List.mem_cons, List.not_mem_nil, or_false] at he
    rcases he with rfl | rfl | rfl | rfl <;> cases hsub <;> simp [openRun]

/-- A duty on the session makes known only runs that are there. -/
theorem SessionDuty.subject_of_mem_perform {d : SessionDuty} {e : Duty}
    (he : e ∈ (d.perform b s).2) (hsub : e.subject? = some r) :
    s.current = some r ∨ r < (d.perform b s).1.runs.length := by
  cases d with
  | handle request =>
    simp only [perform] at he
    split at he
    · exact .inl (current_of_mem_handle he hsub)
    · rw [subject_of_mem_refuse he] at hsub
      cases hsub
  | openRun request args => exact .inr (State.subject_of_mem_prepare he hsub)
  | passOn replaced m =>
    simp only [perform, State.passOn] at he
    repeat' split at he
    case h_1.isTrue r' run hrun _ =>
      obtain ⟨hcurrent, -⟩ := State.currentRun?_eq_some.1 hrun
      simp only [List.mem_cons, List.not_mem_nil, or_false] at he
      rcases he with rfl | rfl <;> cases hsub <;> exact .inl hcurrent
    all_goals
      obtain rfl := List.mem_singleton.1 he
      cases hsub
  | reportTermination =>
    simp only [perform] at he
    split at he <;> cases he
  | shutdown =>
    rcases List.mem_append.1 he with he | he
    · exact .inl (subject_of_mem_abandonAny he hsub)
    · obtain rfl := List.mem_singleton.1 he
      cases hsub
  | send | clearRegistry => cases he
  | replaceBreakpoints request args =>
    obtain rfl := List.mem_singleton.1 he
    cases hsub

/-- A duty on the session takes a run for the current one only if it is there. -/
theorem SessionDuty.current_of_perform {d : SessionDuty}
    (h : (d.perform b s).1.current = some r) :
    s.current = some r ∨ r < (d.perform b s).1.runs.length := by
  cases d with
  | handle request =>
    simp only [perform] at h
    split at h
    · exact .inl (current_of_handle h)
    · exact .inl h
  | openRun request args =>
    rcases s.prepare_cases b request args with ⟨ds, -, heq⟩ | ⟨_, _, _, -, -, -, heq⟩
    · rw [perform, heq] at h
      exact .inl h
    · rw [perform, heq] at h ⊢
      obtain rfl := Option.some.inj h
      exact .inr (by simp [State.openRun])
  | reportTermination =>
    simp only [perform] at h
    split at h <;> exact .inl h
  | replaceBreakpoints request args =>
    rw [State.perform_replaceBreakpoints] at h
    exact .inl h
  | send | passOn | clearRegistry => exact .inl h
  | shutdown => cases h

namespace State

theorem Known.of_session {d : SessionDuty} {ds : List Duty} (h : s.Known)
    (hs : s.handler = .session d :: ds)
    (ht : t = { (d.perform b { s with handler := ds }).1 with
      handler := (d.perform b { s with handler := ds }).2 ++ ds }) : t.Known := by
  have hruns : s.runs.length ≤ (d.perform b { s with handler := ds }).1.runs.length := by
    rcases d.runs_cases b { s with handler := ds } with hruns | ⟨run, -, hruns⟩ <;> simp [hruns]
  subst ht
  constructor
  · intro r hr
    rcases SessionDuty.current_of_perform hr with hr | hr
    · exact Nat.lt_of_lt_of_le (h.current hr) hruns
    · exact hr
  · intro e r he hsub
    rcases List.mem_append.1 he with he | he
    · rcases SessionDuty.subject_of_mem_perform he hsub with hr | hr
      · exact Nat.lt_of_lt_of_le (h.current hr) hruns
      · exact hr
    · exact Nat.lt_of_lt_of_le (h.handler (by simp [hs, he]) hsub) hruns

theorem Known.of_stride (h : s.Known) (horder : s.Orderly) (hst : s.Stride b t p) : t.Known := by
  cases hst with
  | session hs ht => exact h.of_session hs ht
  | @handler r run d ds done hs hsub hr hd ht =>
    have hlength : t.runs.length = s.runs.length := by simp [ht, setRun, send]
    constructor
    · intro r' hr'
      rw [ht] at hr'
      exact hlength ▸ h.current hr'
    · intro e r' he hsub'
      rw [hlength]
      simp only [ht, List.mem_append] at he
      rcases he with he | he
      · rcases Duty.subject_of_mem_next (horder.belongsTo hs) hd he with hnone | hsome
        · cases hnone.symm.trans hsub'
        · obtain rfl := Option.some.inj (hsome.symm.trans hsub')
          exact (List.getElem?_eq_some_iff.1 hr).1
      · exact h.handler (by simp [hs, he]) hsub'
  | starter hs hr hd ht | thread hs hr hd ht =>
    have hlength : t.runs.length = s.runs.length := by simp [ht, setRun, send]
    constructor
    · intro r' hr'
      rw [ht] at hr'
      exact hlength ▸ h.current hr'
    · intro e r' he hsub'
      rw [ht] at he
      exact hlength ▸ h.handler he hsub'

theorem Path.known {es : List (State × Party)} (h : Path b {} es s) : s.Known := by
  induction h with
  | refl => exact ⟨by simp, by simp⟩
  | step hpath hp ih =>
    have horder := hpath.orderly orderly_empty
    exact ih.of_stride horder (horder.stride hp)
  | @accept es t i _ hi ih =>
    cases i with
    | request | hangUp =>
      refine ⟨ih.current, fun he hsub => ?_⟩
      rcases List.mem_append.1 he with he | he
      · exact ih.handler he hsub
      · obtain rfl := List.mem_singleton.1 he
        cases hsub
    | elapse | release => exact ⟨ih.current, ih.handler⟩
  | @giveUp es t r run run' _ hr hgive ih =>
    have hlength : (t.setRun r run').runs.length = t.runs.length := by simp [setRun]
    exact ⟨fun hr => hlength ▸ ih.current hr, fun he hsub => hlength ▸ ih.handler he hsub⟩

end State

/-! ## A handler that cannot go on -/

/-- A thread that cannot go on does not hold the lock of its run. -/
theorem State.Orderly.lock_ne_of_blocked {run : Run} (horder : s.Orderly)
    (hr : s.runs[r]? = some run) (hnone : s.advance? b (.thread r) = none) :
    run.lock ≠ some (.thread r) := by
  intro hlock
  have hplan : ThreadPlan r true run.thread := by simpa [hlock] using (horder.runs hr).thread
  cases hthread : run.thread with
  | nil =>
    rw [hthread] at hplan
    cases hplan.holds_of_nil
  | cons e ds =>
    have hstroke := stroke?_of_advance?_none horder hr hthread hnone
    rw [hthread] at hplan
    cases hplan with
    | emit | unlock => cases hstroke
    | capture | markPaused =>
      rcases ThreadDuty.cases_of_blocked hstroke with ⟨heq, -⟩ | ⟨heq, -⟩ | ⟨_, heq⟩ <;> cases heq
    | last _ hlocked =>
      rcases ThreadDuty.cases_of_blocked hstroke with ⟨rfl, -⟩ | ⟨rfl, -⟩ | ⟨_, rfl⟩ <;>
        cases hlocked

/-- When no party can go on, the handler has nothing left to do. -/
theorem State.Path.handler_of_blocked {es : List (State × Party)} (h : Path b {} es s)
    (hnone : ∀ p, s.advance? b p = none) : s.handler = [] := by
  have horder := h.orderly orderly_empty
  cases hs : s.handler with
  | nil => rfl
  | cons d ds =>
    exfalso
    have hhandler : d.perform? b { s with handler := ds } = none := by
      simpa [advance?, agenda, setAgenda, hs] using hnone .handler
    cases hsub : d.subject? with
    | none =>
      cases d with
      | session d => cases hhandler
      | _ => cases hsub
    | some r =>
      have hlt : r < s.runs.length := h.known.handler (by simp [hs]) hsub
      have hr : s.runs[r]? = some s.runs[r] := List.getElem?_eq_getElem hlt
      have hfree : s.runs[r].isFree = true :=
        h.isFree hr (h.unlock_not_mem hr (hnone .handler)) (horder.lock_ne_of_blocked hr (hnone _))
      rw [Duty.perform?_of_subject b _ hsub] at hhandler
      have hstroke : d.stroke? b { s with handler := ds } r s.runs[r] = none := by
        simpa [onRun, hr] using hhandler
      have hown : d.BelongsTo .handler := horder.belongsTo hs
      cases d with
      | session d => cases hsub
      | starter _ d | thread _ d => exact hown
      | run _ d =>
        cases d <;> simp only [Duty.stroke?, RunDuty.perform?] at hstroke <;>
          (repeat' split at hstroke) <;> cases hstroke
      | request _ d =>
        cases d <;> simp only [Duty.stroke?, RequestDuty.perform?] at hstroke <;>
          (repeat' split at hstroke) <;> cases hstroke

/-! ## Disconnecting -/

/-- Whether a request ends the session. -/
def endsSession (request : Request) : Bool :=
  request.command == "disconnect"

/-- Whether a duty disconnects the session. -/
def Duty.disconnects : Duty → Bool
  | session (.handle asked) => endsSession asked
  | session .shutdown => true
  | _ => false

theorem ofName?_eq_disconnect {name : String} :
    Command.ofName? name = some .disconnect ↔ name = "disconnect" := by
  constructor
  · intro h
    obtain ⟨l₁, l₂, hnames, -⟩ := List.lookup_eq_some_iff.1 h
    have hmem : (name, Command.disconnect) ∈ Command.names := by simp [hnames]
    simpa [Command.names] using hmem
  · rintro rfl
    decide

theorem disconnects_of_mem_refuse {request : Request} {error : DebugError} {e : Duty}
    (he : e ∈ refuse request error) : e.disconnects = false := by
  unfold refuse at he
  split at he <;> simp only [List.mem_cons, List.not_mem_nil, or_false] at he
  · rcases he with rfl | rfl <;> rfl
  · rw [he]
    rfl

theorem disconnects_of_subject {e : Duty} (hsub : e.subject? ≠ none) : e.disconnects = false := by
  cases e with
  | session d => exact absurd rfl hsub
  | _ => rfl

theorem disconnects_of_mem_abandonAny {o : Option RunId} {e : Duty} (he : e ∈ abandonAny o) :
    e.disconnects = false := by
  cases o with
  | none => cases he
  | some r => exact disconnects_of_subject (by simp [subject_of_mem_abandon he])

theorem connected_of_handle {request : Request} {c : Command} (hc : c ≠ .disconnect) :
    (s.handle request c).1.disconnected = s.disconnected ∧
      ∀ e ∈ (s.handle request c).2, e.disconnects = false := by
  constructor
  · cases c <;> simp only [State.handle] <;> (repeat' split) <;> first | rfl | contradiction
  · intro e he
    cases c <;>
      simp only [State.handle, State.relaunch, withArguments, State.forCurrent, answer,
        tearDown] at he <;>
      (repeat' split at he) <;>
      grind [Duty.disconnects, disconnects_of_mem_refuse, disconnects_of_mem_abandonAny,
        subject_of_mem_abandon, disconnects_of_subject]

theorem connected_of_prepare {request : Request} {args : Protocol.LaunchArguments} :
    (s.prepare b request args).1.disconnected = s.disconnected ∧
      ∀ e ∈ (s.prepare b request args).2, e.disconnects = false := by
  unfold State.prepare
  repeat' split
  any_goals exact ⟨rfl, fun _ => disconnects_of_mem_refuse⟩
  · exact ⟨rfl, by simp [answerCrash, Duty.disconnects]⟩
  · exact ⟨rfl, by simp [State.openRun, answer, Duty.disconnects]⟩

/-- A duty on the session that does not disconnect it gives nothing to do that does. -/
theorem SessionDuty.connected_of_perform {d : SessionDuty}
    (h : (Duty.session d).disconnects = false) :
    (d.perform b s).1.disconnected = s.disconnected ∧
      ∀ e ∈ (d.perform b s).2, e.disconnects = false := by
  cases d with
  | handle request =>
    simp only [perform]
    split
    next c hc =>
      refine connected_of_handle fun heq => ?_
      rw [heq] at hc
      simp [Duty.disconnects, endsSession, ofName?_eq_disconnect.1 hc] at h
    · exact ⟨rfl, fun _ => disconnects_of_mem_refuse⟩
  | openRun request args => exact connected_of_prepare
  | reportTermination =>
    simp only [perform]
    split <;> exact ⟨rfl, by simp⟩
  | passOn replaced m =>
    refine ⟨rfl, ?_⟩
    simp only [perform, State.passOn]
    repeat' split
    all_goals simp [Duty.disconnects]
  | send | clearRegistry => exact ⟨rfl, by simp [perform]⟩
  | replaceBreakpoints request args =>
    rw [State.perform_replaceBreakpoints]
    exact ⟨rfl, by simp [Duty.disconnects]⟩
  | shutdown => cases h

/-- What a duty of the handler on a run leads to does not disconnect the session. -/
theorem Duty.disconnects_of_mem_next {run : Run} {d : Duty} {done : Done}
    (hown : d.BelongsTo .handler) (hd : d.stroke? b s r run = some done) :
    ∀ e ∈ done.next, e.disconnects = false := by
  cases d with
  | session d => cases hd
  | starter _ d | thread _ d => exact hown.elim
  | run _ d =>
    cases d <;> simp only [stroke?, RunDuty.perform?] at hd <;> (repeat' split at hd) <;>
      cases hd <;> simp [disconnects]
  | request _ d =>
    cases d <;>
      simp only [stroke?, RequestDuty.perform?, resumeStep, pauseStep, assignStep, listStep,
        evaluateStep, answer, answerCrash] at hd <;>
      (repeat' split at hd) <;> cases hd <;>
      grind [disconnects, disconnects_of_mem_refuse, mem_continuedDuties]

/-- A session is disconnected only by a duty to do so. -/
theorem State.Stride.connected (hst : s.Stride b t p) (horder : s.Orderly)
    (h : ∀ d ∈ s.handler, d.disconnects = false) :
    t.disconnected = s.disconnected ∧ ∀ d ∈ t.handler, d.disconnects = false := by
  cases hst with
  | @session d ds hs ht =>
    obtain ⟨hsame, hnext⟩ := SessionDuty.connected_of_perform (b := b)
      (s := { s with handler := ds }) (h (.session d) (by simp [hs]))
    refine ⟨by rw [ht]; exact hsame, fun e he => ?_⟩
    simp only [ht, List.mem_append] at he
    exact he.elim (hnext e) fun he => h e (by simp [hs, he])
  | handler hs hsub hr hd ht =>
    refine ⟨by rw [ht]; rfl, fun e he => ?_⟩
    simp only [ht, List.mem_append] at he
    exact he.elim (Duty.disconnects_of_mem_next (horder.belongsTo hs) hd e)
      fun he => h e (by simp [hs, he])
  | starter hs hr hd ht | thread hs hr hd ht =>
    subst ht
    exact ⟨rfl, h⟩

/-- A session that is disconnected stays so. -/
theorem State.Stride.disconnected (hst : s.Stride b t p) (h : s.disconnected = true) :
    t.disconnected = true := by
  cases hst with
  | @session d ds hs ht =>
    cases hd : (Duty.session d).disconnects with
    | false =>
      rw [ht]
      exact (SessionDuty.connected_of_perform hd).1.trans h
    | true =>
      subst ht
      cases d with
      | handle request =>
        have hcommand : request.command = "disconnect" := by
          simpa [Duty.disconnects, endsSession] using hd
        simp [SessionDuty.perform, ofName?_eq_disconnect.2 hcommand, handle]
      | shutdown => rfl
      | _ => cases hd
  | handler _ _ _ _ ht | starter _ _ _ ht | thread _ _ _ ht =>
    subst ht
    exact h

/-- A request to disconnect disconnects the session at once. -/
theorem State.Stride.disconnects {request : Request} {ds : List Duty}
    (hst : s.Stride b t .handler) (hs : s.handler = .session (.handle request) :: ds)
    (hends : endsSession request = true) : t.disconnected = true := by
  have hcommand : request.command = "disconnect" := by simpa [endsSession] using hends
  cases hst with
  | session hs' ht =>
    obtain ⟨heq, rfl⟩ := List.cons.inj (hs.symm.trans hs')
    cases heq
    simp [ht, SessionDuty.perform, ofName?_eq_disconnect.2 hcommand, handle]
  | handler hs' hsub =>
    obtain ⟨rfl, -⟩ := List.cons.inj (hs.symm.trans hs')
    cases hsub

end DebugAdapter.Session
