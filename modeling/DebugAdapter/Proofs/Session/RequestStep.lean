import DebugAdapter.Proofs.Session.Agenda
import DebugAdapter.Proofs.Variables.Overrides
/-!
# Steps for requests

What a step of the handler makes of a run for a request (`RequestDuty.Leads`).
-/

namespace DebugAdapter.Session

open Protocol (Outgoing Request Resumption)

/-- Whether a duty of the handler only answers. -/
def Duty.isAside : Duty → Bool
  | session (.send _) | session .reportTermination | request _ (.showValue _ _) => true
  | _ => false

/-- What a duty of the handler for a request about run `r` may lead to. -/
inductive RequestDuty.Leads (r : RunId) (run : Run) : RequestDuty → Done → Prop where
  | look {d : RequestDuty} {snapshot : Snapshot} {next : List Duty}
      (hagrees : run.snapshot.Agrees snapshot) (hnext : ∀ e ∈ next, e.isAside = true)
      (hresume : ∀ request how, d = .resume request how → run.phase ≠ .paused) :
      Leads r run d { run := { run with snapshot }, next }
  | assign {request : Request} {args : Protocol.AssignmentArguments} {snapshot : Snapshot}
      {next : List Duty} (hpaused : run.phase = .paused)
      (hcall : snapshot =
        run.snapshot.call (.assign args.reference args.name (parseUserValue args.value)))
      (hnext : ∀ e ∈ next, e.isAside = true) :
      Leads r run (.assign request args) { run := { run with snapshot }, next }
  | start (m : Outgoing) (hstarted : run.started = false) :
      Leads r run (.answerThenStart m) { run, next := [.session (.send m), .run r .startIfLive] }
  /-- A paused script is let go on. -/
  | release (request : Request) (how : Resumption) (hfree : run.isFree = true)
      (hpaused : run.phase = .paused) : Leads r run (.resume request how) {
        run := { run with phase := .running }
        next := [.run r (.setStepMode how.steps), .run r .invalidate,
          answer request (resumeBody how)] ++ continuedDuties r how ++ [.run r .signal] }
  /-- A script that was about to pause is let go on. -/
  | skip (request : Request) (how : Resumption) (hfree : run.isFree = true)
      (hrunning : run.phase = .running) (hpending : run.pausePending = true) :
      Leads r run (.resume request how) {
        run := { run with pausePending := false, lock := some .handler }
        next := [.run r (.setStepMode how.steps), .run r .unlock,
          answer request (resumeBody how)] ++ continuedDuties r how }
  | pause (request : Request) (hfree : run.isFree = true) (hrunning : run.phase = .running) :
      Leads r run (.pause request) {
        run := { run with pausePending := true, lock := some .handler }
        next := [.run r (.setStepMode true), .run r .unlock, answer request none,
          .run r (.emit (stopped .pause))] }

@[simp] theorem mem_continuedDuties {r : RunId} {how : Resumption} {d : Duty} :
    d ∈ continuedDuties r how ↔ how = .proceed ∧ d = .run r (.emit continued) := by
  unfold continuedDuties
  split <;> simp_all

theorem isAside_of_mem_refuse {request : Request} {e : DebugError} :
    ∀ d ∈ refuse request e, d.isAside = true := by
  unfold refuse
  split <;> simp [Duty.isAside]

theorem RequestDuty.Leads.aside {r : RunId} {run : Run} {d : RequestDuty} {next : List Duty}
    (hnext : ∀ e ∈ next, e.isAside = true)
    (hresume : ∀ request how, d = .resume request how → run.phase ≠ .paused) :
    Leads r run d { run, next } :=
  .look ⟨rfl, rfl⟩ hnext hresume

theorem RequestDuty.leads_of_perform? {b : Backend} {r : RunId} {run : Run} {d : RequestDuty}
    {done : Done} (hd : d.perform? b r run = some done) : d.Leads r run done := by
  have hone {e : Duty} (he : e.isAside = true) : ∀ d ∈ [e], d.isAside = true := by simpa using he
  cases d with
  | answerThenStart m =>
    obtain rfl := Option.some.inj hd
    cases hs : run.started with
    | true => exact .aside (hone rfl) (by simp)
    | false => exact .start m hs
  | resume request how =>
    simp only [perform?] at hd
    split at hd
    next hfree =>
      obtain rfl := Option.some.inj hd
      unfold resumeStep
      split
      next hp => exact .release request how hfree hp
      next hp =>
        split
        next hpending => exact .skip request how hfree hp hpending
        · exact .aside (hone rfl) fun _ _ _ => by simp [hp]
      next hp _ => exact .aside (hone rfl) fun _ _ _ => hp
    · cases hd
  | pause request =>
    simp only [perform?] at hd
    split at hd
    next hfree =>
      obtain rfl := Option.some.inj hd
      unfold pauseStep
      split
      next hp => exact .pause request hfree hp
      · exact .aside (hone rfl) (by simp)
    · cases hd
  | showFrames request =>
    obtain rfl := Option.some.inj hd
    exact .aside (hone rfl) (by simp)
  | showVariables request reference =>
    obtain rfl := Option.some.inj hd
    unfold listStep
    split
    · exact .aside isAside_of_mem_refuse (by simp)
    next vs snapshot hlist => exact .look (Snapshot.agrees_of_list hlist) (hone rfl) (by simp)
  | assign request args =>
    simp only [perform?] at hd
    split at hd
    · obtain rfl := Option.some.inj hd
      unfold assignStep
      split
      next hp =>
        split
        · exact .aside isAside_of_mem_refuse (by simp)
        next v snapshot hassign =>
          exact .assign hp (by simp [Snapshot.call, hassign, Except.toOption]) (hone rfl)
      · exact .aside isAside_of_mem_refuse (by simp)
    · cases hd
  | evaluate request expression =>
    obtain rfl := Option.some.inj hd
    unfold evaluateStep
    split <;> exact .aside (hone rfl) (by simp)
  | showValue request value =>
    obtain rfl := Option.some.inj hd
    exact .look (Snapshot.agrees_referTo _ _ _) (hone rfl) (by simp)

end DebugAdapter.Session
