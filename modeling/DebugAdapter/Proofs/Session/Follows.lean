import DebugAdapter.Proofs.Session.ThreadStep
/-!
# What follows a duty of a thread

A step of a thread gives it what to do next. `ThreadDuty.Follows` lists for every duty the duties
that may follow it, with what the thread read of its run (`ThreadDuty.follows_of_mem_next`).
-/

namespace DebugAdapter.Session

/-- Nothing comes after a duty that is the last. -/
theorem ThreadPlan.eq_of_last {r : RunId} {holds : Bool} {d : ThreadDuty} {ds : List Duty}
    (h : ThreadPlan r holds (.thread r d :: ds)) (hlast : d.isLast = true) : ds = [] := by
  cases h with
  | last => rfl
  | stall | capture | markPaused => cases hlast

namespace ThreadDuty

/-- Whether a duty asks whether to suspend. -/
def asks : ThreadDuty → Bool
  | checkClosed | checkStep | checkLine => true
  | _ => false

/-- Whether a duty belongs to a stop. -/
def stops : ThreadDuty → Bool
  | capture | markPaused | park => true
  | _ => false

/-- What may follow a duty of the thread of `run`. -/
inductive Follows (run : Run) : ThreadDuty → ThreadDuty → Prop where
  | stall {d : ThreadDuty} (since : Nat) (hd : d = reach ∨ d.asks = true) :
      Follows run d (stall since)
  | enter : Follows run reach enter
  | checkClosed : Follows run enter checkClosed
  | checkStep : Follows run checkClosed checkStep
  | checkLine (hmode : run.context.stepMode = false) : Follows run checkStep checkLine
  | pass : Follows run checkLine perform
  | suspend {d : ThreadDuty} (hd : d.asks = true) : Follows run d suspend
  | lock : Follows run suspend lock
  | checkLive : Follows run lock checkLive
  | takePending : Follows run checkLive takePending
  | readStep : Follows run takePending (readStep run.pausePending)
  | readLine (pending : Bool) :
      Follows run (readStep pending) (readLine pending run.context.stepMode)
  | stop {pending stepping : Bool} {d : ThreadDuty} (h : (pending || stepping) = true)
      (hd : d.stops = true) : Follows run (readLine pending stepping) d
  | readTemplate {stmt : Script.Statement} (hrest : run.rest.head? = some stmt)
      (hline : stmt.line ∈ run.context.lines) : Follows run (readLine false false) readTemplate
  | goOn : Follows run (readLine false false) perform
  | stopThere {d : ThreadDuty} (hd : d.stops = true) : Follows run readTemplate d
  | log : Follows run readTemplate perform
  | takeOverrides : Follows run park takeOverrides
  | perform : Follows run takeOverrides perform
  | reach : Follows run perform reach
  | conclude (d : ThreadDuty) (ending : Ending) : Follows run d (conclude ending)

variable {b : Backend} {s : State} {r : RunId} {run : Run} {done : Done} {d d' : ThreadDuty}

theorem cases_of_mem_stallThen {line : UInt32} {late : Bool}
    (hm : .thread r d' ∈ stallThen b s r line late d) : d' = d ∨ ∃ since, d' = stall since := by
  unfold stallThen at hm
  split at hm
  · simp only [List.mem_cons, Duty.thread.injEq, true_and, List.not_mem_nil, or_false] at hm
    exact hm.symm.imp_right fun heq => ⟨_, heq⟩
  · exact .inl (by simpa using hm)

theorem Follows.of_afterCheck {line : UInt32} {suspends : Bool} {e : ThreadDuty}
    (hasks : d.asks = true) (he : suspends = false → Follows run d e)
    (hm : .thread r d' ∈ afterCheck b s r line suspends e) : Follows run d d' := by
  unfold afterCheck at hm
  split at hm
  · rcases cases_of_mem_stallThen hm with rfl | ⟨since, rfl⟩
    · exact .suspend hasks
    · exact .stall since (.inr hasks)
  next hsuspends =>
    obtain rfl : d' = e := by simpa using hm
    exact he (by simpa using hsuspends)

theorem Follows.of_mem_stopDuties {span : Script.Span} {reason : StopReason}
    (hd : ∀ e : ThreadDuty, e.stops = true → Follows run d e)
    (hm : .thread r d' ∈ stopDuties r run span reason) : Follows run d d' := by
  refine hd d' ?_
  simp only [stopDuties, List.mem_cons, Duty.thread.injEq, true_and, reduceCtorEq, false_or,
    List.not_mem_nil, or_false] at hm
  rcases hm with rfl | rfl | rfl <;> rfl

theorem follows_of_performIdle? (hd : d.performIdle? s r run = some done)
    (hm : .thread r d' ∈ done.next) : Follows run d d' := by
  have hone {e : ThreadDuty} (he : Follows run d e) (hm : .thread r d' ∈ [Duty.thread r e]) :
      Follows run d d' := by
    obtain rfl : d' = e := by simpa using hm
    exact he
  cases d with
  | stall since =>
    simp only [performIdle?] at hd
    split at hd <;> cases hd
    cases hm
  | lock =>
    simp only [performIdle?] at hd
    split at hd <;> cases hd
    exact hone .checkLive hm
  | checkLive =>
    cases hd
    dsimp only at hm
    split at hm
    · exact hone .takePending hm
    · exact hone (.conclude _ _) (by simpa using hm)
  | takePending =>
    cases hd
    exact hone .readStep hm
  | readStep pending =>
    cases hd
    exact hone (.readLine pending) hm
  | suspend =>
    cases hd
    dsimp only at hm
    split at hm
    · exact hone (.conclude _ _) hm
    · exact hone .lock hm
  | park =>
    simp only [performIdle?] at hd
    split at hd <;> cases hd
    · exact hone (.conclude _ _) hm
    · exact hone .takeOverrides hm
  | takeOverrides =>
    cases hd
    exact hone .perform hm
  | conclude ending =>
    cases hd
    exact absurd hm (not_thread_mem_endDuties r run ending d')
  | markPaused =>
    cases hd
    cases hm
  | _ =>
    cases hd
    exact hone (.conclude _ _) hm

theorem follows_of_mem_next (hd : d.perform? b s r run = some done)
    (hm : .thread r d' ∈ done.next) : Follows run d d' := by
  have hone {e : ThreadDuty} (he : Follows run d e) (hm : .thread r d' ∈ [Duty.thread r e]) :
      Follows run d d' := by
    obtain rfl : d' = e := by simpa using hm
    exact he
  unfold perform? at hd
  split at hd
  · exact follows_of_performIdle? hd hm
  next stmt rest hrest =>
    cases d
    case reach =>
      cases hd
      rcases cases_of_mem_stallThen hm with rfl | ⟨since, rfl⟩
      · exact .enter
      · exact .stall since (.inl rfl)
    case enter =>
      cases hd
      dsimp only at hm
      split at hm
      · exact hone (.conclude _ _) hm
      · exact hone .checkClosed hm
    case checkClosed =>
      cases hd
      exact .of_afterCheck rfl (fun _ => .checkStep) hm
    case checkStep =>
      cases hd
      exact .of_afterCheck rfl .checkLine hm
    case checkLine =>
      cases hd
      exact .of_afterCheck rfl (fun _ => .pass) hm
    case readLine pending stepping =>
      cases hd
      dsimp only at hm
      split at hm
      next hstop => exact .of_mem_stopDuties (fun e he => .stop hstop he) hm
      next hstop =>
        obtain ⟨rfl, rfl⟩ : pending = false ∧ stepping = false := by simpa using hstop
        split at hm
        next hline =>
          refine hone (.readTemplate (by rw [hrest]; rfl) ?_) hm
          simpa [Context.hasBreakpoint] using hline
        · exact hone .goOn (by simpa using hm)
    case readTemplate =>
      cases hd
      dsimp only at hm
      split at hm
      · exact hone .log (by simpa using hm)
      · exact .of_mem_stopDuties (fun e he => .stopThere he) hm
    case capture =>
      cases hd
      cases hm
    case perform =>
      simp only [performAt?] at hd
      split at hd <;> cases hd
      · exact hone .reach hm
      · exact hone .reach (by simpa using hm)
      · exact hone (.conclude _ _) hm
    all_goals exact follows_of_performIdle? (s := s) hd hm

end ThreadDuty

end DebugAdapter.Session
