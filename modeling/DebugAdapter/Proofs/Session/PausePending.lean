import DebugAdapter.Proofs.Session.Stable
import DebugAdapter.Proofs.Session.Follows
import DebugAdapter.Proofs.Session.Phases
/-!
# Pending pauses

A request to pause that was accepted is pending until the thread takes it or the handler cancels it.
`Run.Heeds` says how the pending request, the step mode, the phase and the agendas fit together, on
every path (`State.Path.heeds`). Whenever nobody holds the lock of a run that a pause is pending
for, the run is stepping, and it is running or over (`State.Path.of_pausePending`).
-/

namespace DebugAdapter.Session

variable {b : Backend} {s t : State} {p : Party} {r : RunId} {run run' : Run} {done : Done}
  {hs hs' ds next : List Duty} {es : List (State × Party)}

/-- Whether a duty of the thread comes after it took the request to pause and before it stops or
goes on. -/
def ThreadDuty.hasTaken : ThreadDuty → Bool
  | readStep _ | readLine _ _ | readTemplate | capture | markPaused => true
  | _ => false

theorem ThreadDuty.isLocked_of_hasTaken {d : ThreadDuty} (h : d.hasTaken = true) :
    d.isLocked = true := by
  cases d <;> first | rfl | cases h

/-- A thread has taken the request to pause once it took it. -/
theorem ThreadDuty.Follows.hasTaken {d d' : ThreadDuty} (h : Follows run d d')
    (htaken : d'.hasTaken = true) : d = .takePending ∨ d.hasTaken = true := by
  cases h <;> simp_all [ThreadDuty.hasTaken]

theorem ThreadDuty.perform?_takePending (b : Backend) (s : State) (r : RunId) (run : Run) :
    takePending.perform? b s r run = some {
      run := { run with pausePending := false }
      next := [.thread r (.readStep run.pausePending)] } := by
  unfold perform?
  split <;> rfl

theorem ThreadDuty.Leaves.pausePending {d : ThreadDuty} (h : d.Leaves r run run')
    (hd : d ≠ .takePending) : run'.pausePending = run.pausePending := by
  cases h <;> first | rfl | exact absurd rfl hd

theorem ThreadDuty.Leaves.stepMode {d : ThreadDuty} (h : d.Leaves r run run') :
    run'.context.stepMode = run.context.stepMode := by
  cases h <;> rfl

/-! ## How a run heeds a request to pause -/

/-- Whether the handler is about to turn the step mode of run `r` on, and to release its lock. -/
def TurnsOn (r : RunId) (hs : List Duty) : Prop :=
  ∃ ds, hs = .run r (.setStepMode true) :: .run r .unlock :: ds

/-- Whether a run steps and does not stop while a pause is pending, but for what the handler is
about to do. -/
structure Run.Heeds (r : RunId) (hs : List Duty) (run : Run) : Prop where
  phase : run.pausePending = true → run.phase = .running ∨ run.phase = .terminated
  mode : run.pausePending = true → run.context.stepMode = true ∨ TurnsOn r hs
  off : .run r (.setStepMode false) ∈ hs → run.pausePending = false
  taken {d : ThreadDuty} : .thread r d ∈ run.thread → d.hasTaken = true → run.pausePending = false

theorem Run.heeds_of_opens (hopens : s.Opens b run) : run.Heeds r hs := by
  cases hopens
  exact ⟨nofun, nofun, fun _ => rfl, fun _ _ => rfl⟩

theorem RunDuty.pausePending_of_perform? {d : RunDuty} (hd : d.perform? r run = some done) :
    done.run.pausePending = run.pausePending := by
  cases d <;> simp only [perform?] at hd <;> (repeat' split at hd) <;> cases hd <;> rfl

theorem RunDuty.stepMode_of_perform? {d : RunDuty} (hd : d.perform? r run = some done)
    (hmode : ∀ on, d ≠ .setStepMode on) : done.run.context.stepMode = run.context.stepMode := by
  cases d <;> simp only [perform?] at hd <;> (repeat' split at hd) <;> cases hd <;>
    first | rfl | exact absurd rfl (hmode _)

theorem RunDuty.thread_mem_of_perform? {d : RunDuty} {d' : ThreadDuty}
    (hd : d.perform? r run = some done) (hm : .thread r d' ∈ done.run.thread)
    (hreach : d' ≠ .reach) : .thread r d' ∈ run.thread := by
  cases d <;> simp only [perform?] at hd <;> (repeat' split at hd) <;> cases hd <;> simp_all

theorem RunDuty.thread_not_mem_next {d : RunDuty} (hd : d.perform? r run = some done)
    (d' : ThreadDuty) : .thread r d' ∉ done.next := by
  cases d <;> simp only [perform?] at hd <;> (repeat' split at hd) <;> cases hd <;> simp

namespace Run.Heeds

/-- A run that changes neither its pending pause nor its step mode heeds the pause as before. -/
theorem of_run (h : run.Heeds r hs) (hpending : run'.pausePending = run.pausePending)
    (hphase : run'.phase = run.phase ∨ run'.phase = .running ∨ run'.phase = .terminated)
    (hmode : run'.context.stepMode = run.context.stepMode)
    (hthread : ∀ d, .thread r d ∈ run'.thread → d.hasTaken = true → .thread r d ∈ run.thread)
    (hon : TurnsOn r hs → TurnsOn r hs')
    (hoff : .run r (.setStepMode false) ∈ hs' → .run r (.setStepMode false) ∈ hs) :
    run'.Heeds r hs' where
  phase hp := by
    rcases hphase with heq | hover
    · rw [heq]
      exact h.phase (hpending ▸ hp)
    · exact hover
  mode hp := by
    rw [hmode]
    exact (h.mode (hpending ▸ hp)).imp_right hon
  off hm := hpending.trans (h.off (hoff hm))
  taken hm htaken := hpending.trans (h.taken (hthread _ hm htaken) htaken)

/-- When no pause is pending, there is nothing to heed. -/
theorem of_not_pending (h : run.pausePending = false) : run.Heeds r hs :=
  ⟨fun hp => (Bool.false_ne_true (h.symm.trans hp)).elim,
    fun hp => (Bool.false_ne_true (h.symm.trans hp)).elim, fun _ => h, fun _ _ => h⟩

/-- What the handler does next turns the step mode neither on nor off. -/
theorem of_handler {d : Duty} (h : run.Heeds r (d :: ds))
    (hpending : run'.pausePending = run.pausePending)
    (hphase : run'.phase = run.phase ∨ run'.phase = .running ∨ run'.phase = .terminated)
    (hmode : run'.context.stepMode = run.context.stepMode)
    (hthread : ∀ d, .thread r d ∈ run'.thread → d.hasTaken = true → .thread r d ∈ run.thread)
    (hd : d ≠ .run r (.setStepMode true)) (hnext : ∀ e ∈ next, e.continues r = false) :
    run'.Heeds r (next ++ ds) := by
  refine h.of_run hpending hphase hmode hthread ?_ fun hm => ?_
  · rintro ⟨ds', heq⟩
    exact absurd (List.cons.inj heq).1 hd
  · rcases List.mem_append.1 hm with hm | hm
    · simpa [Duty.continues] using hnext _ hm
    · exact List.mem_cons_of_mem _ hm

/-- The handler does something to a run. -/
theorem of_duty {d : RunDuty} (h : run.Heeds r (.run r d :: ds))
    (horder : run.Orderly r (.run r d :: ds)) (hplan : (Duty.run r d).Precedes ds)
    (hfresh : run.started = false → run.pausePending = false)
    (hd : d.perform? r run = some done) : done.run.Heeds r (done.next ++ ds) := by
  have hpending := RunDuty.pausePending_of_perform? hd
  by_cases hmode : ∃ on, d = .setStepMode on
  · obtain ⟨on, rfl⟩ := hmode
    obtain rfl := Option.some.inj hd
    cases on with
    | false => exact .of_not_pending (h.off (by simp))
    | true =>
      exact ⟨h.phase, fun _ => .inl rfl, fun hm => h.off (List.mem_cons_of_mem _ hm), h.taken⟩
  · have hmode (on : Bool) : d ≠ .setStepMode on := fun heq => hmode ⟨on, heq⟩
    by_cases hphase : done.run.phase = run.phase ∨ done.run.phase = .running ∨
        done.run.phase = .terminated
    · refine h.of_handler hpending hphase (RunDuty.stepMode_of_perform? hd hmode)
        (fun d' hm htaken => RunDuty.thread_mem_of_perform? hd hm ?_) (by simpa using hmode true)
        (RunDuty.continues_of_mem_next hd)
      rintro rfl
      cases htaken
    -- The handler sets a run to await breakpoints only before the run is started.
    · cases d with
      | setPhase phase =>
        simp only [RunDuty.perform?] at hd
        split at hd <;> cases hd
        cases phase with
        | launching | paused => exact hplan.elim
        | running | terminated => simp at hphase
        | awaitingBreakpoints =>
          obtain ⟨m, rfl⟩ := hplan
          exact .of_not_pending (hfresh (horder.scheduled (by simp)).1)
      | _ =>
        simp only [RunDuty.perform?] at hd
        (repeat' split at hd) <;> cases hd <;> simp at hphase

/-- The handler does something to a run for a request. -/
theorem of_request {d : RequestDuty} (h : run.Heeds r [.request r d])
    (horder : run.Orderly r [.request r d]) (hd : d.Leads r run done) :
    done.run.Heeds r done.next := by
  have haside {next : List Duty} (hnext : ∀ e ∈ next, e.isAside = true) (e : Duty)
      (he : e ∈ next) := Duty.continues_of_isAside (hnext e he) r
  cases hd with
  | @look _ snapshot next _ hnext _ | @assign _ _ snapshot next _ _ hnext =>
    have hlook : Run.Heeds r (next ++ []) { run with snapshot } :=
      h.of_handler rfl (.inl rfl) rfl (fun _ hm _ => hm) nofun (haside hnext)
    rwa [List.append_nil] at hlook
  | start m =>
    have hstart : run.Heeds r ([.session (.send m), .run r .startIfLive] ++ []) :=
      h.of_handler rfl (.inl rfl) rfl (fun _ hm _ => hm) nofun (by simp [Duty.continues])
    exact hstart
  | release _ _ _ hpaused =>
    refine .of_not_pending ?_
    cases hp : run.pausePending with
    | false => rfl
    | true => rcases h.phase hp with heq | heq <;> cases hpaused.symm.trans heq
  | skip => exact .of_not_pending rfl
  | pause request hfree hrunning =>
    refine ⟨fun _ => .inl hrunning, fun _ => .inr ⟨_, rfl⟩, by simp [answer], fun hm htaken => ?_⟩
    have hholds := horder.thread.holds_of_isLocked hm (ThreadDuty.isLocked_of_hasTaken htaken)
    simp_all [Run.isFree]

/-- The starter or the thread does something to a run. -/
theorem of_party {d : RunDuty} (h : run.Heeds r hs) (hd : d.perform? r run = some done)
    (hmode : ∀ on, d ≠ .setStepMode on)
    (hphase : ∀ phase, d = .setPhase phase → phase = .running ∨ phase = .terminated) :
    done.run.Heeds r hs := by
  refine h.of_run (RunDuty.pausePending_of_perform? hd) ?_ (RunDuty.stepMode_of_perform? hd hmode)
    (fun d' hm htaken => RunDuty.thread_mem_of_perform? hd hm ?_) id id
  · rcases RunDuty.phase_cases hd with heq | ⟨phase, rfl, heq⟩
    · exact .inl heq
    · rw [heq]
      exact .inr (hphase phase rfl)
  · rintro rfl
    cases htaken

/-- The thread does something. -/
theorem of_thread {d : ThreadDuty} (h : run.Heeds r hs) (hds : run.thread = .thread r d :: ds)
    (hd : d.perform? b s r { run with thread := ds } = some done) :
    Run.Heeds r hs { done.run with thread := done.next ++ done.run.thread } := by
  have hleaves := ThreadDuty.leaves_of_perform? hd
  by_cases htake : d = .takePending
  · subst htake
    rw [ThreadDuty.perform?_takePending] at hd
    obtain rfl := Option.some.inj hd
    exact .of_not_pending rfl
  have hpending : done.run.pausePending = run.pausePending := hleaves.pausePending htake
  by_cases hgone : run.pausePending = false
  · exact .of_not_pending (hpending.trans hgone)
  have htaken (d' : ThreadDuty) (hd' : d'.hasTaken = true) : .thread r d' ∉ run.thread := fun hm =>
    hgone (h.taken hm hd')
  refine h.of_run hpending (.inl (hleaves.phase ?_)) hleaves.stepMode (fun d' hm hd' => ?_) id id
  · rintro rfl
    exact htaken .markPaused rfl (by simp [hds])
  · rcases List.mem_append.1 hm with hm | hm
    · rcases (ThreadDuty.follows_of_mem_next hd hm).hasTaken hd' with rfl | hd
      · exact absurd rfl htake
      · exact absurd (by simp [hds]) (htaken d hd)
    · rw [hleaves.kept.thread] at hm
      rw [hds]
      exact List.mem_cons_of_mem _ hm

/-- How a run heeds a pending pause lasts, if no pause is pending for a run that is not started. -/
theorem lasting (b : Backend) (r : RunId) : Run.Lasting b r
    (fun e => ∀ run, e.1.runs[r]? = some run → run.started = false → run.pausePending = false)
    (Run.Heeds r) where
  fares {s p run run' hs} hfresh hr horder hfares h := by
    have hunstarted : run.started = false → run.pausePending = false := hfresh run hr
    have hstarter : Run.Heeds r s.handler run → ∀ starter : List Duty,
        Run.Heeds r s.handler { run with starter } := fun h _ => ⟨h.phase, h.mode, h.off, h.taken⟩
    cases hfares with
    | @aside d ds next hs hsub hnext =>
      rw [hs] at h
      exact h.of_handler rfl (.inl rfl) rfl (fun _ hm _ => hm) (fun heq => hsub (heq ▸ rfl))
        fun e he => Duty.continues_of_assigned (hnext e he)
    | duty hs hplan hd =>
      rw [hs] at h horder
      exact h.of_duty horder hplan hunstarted hd
    | request hs hd =>
      rw [hs] at h horder
      exact h.of_request horder hd
    | @starts d ds done hs hd =>
      have hplan := horder.starter
      rw [hs] at hplan
      have hdone := (hstarter h ds).of_party hd (by cases hplan <;> simp)
        (by cases hplan <;> simp)
      exact ⟨hdone.phase, hdone.mode, hdone.off, hdone.taken⟩
    | waits => exact hstarter h _
    | @tells d ds done hs hd =>
      have hplan := horder.thread
      rw [hs] at hplan
      generalize decide (run.lock = some (.thread r)) = holds at hplan
      have hthread : Run.Heeds r s.handler { run with thread := ds } :=
        ⟨h.phase, h.mode, h.off, fun hm => h.taken (by rw [hs]; exact List.mem_cons_of_mem _ hm)⟩
      have hdone := hthread.of_party hd (by cases hplan <;> simp) (by cases hplan <;> simp)
      refine ⟨hdone.phase, hdone.mode, hdone.off, fun hm => hdone.taken ?_⟩
      exact (List.mem_append.1 hm).resolve_left (RunDuty.thread_not_mem_next hd _)
    | works hs hd => exact h.of_thread hs hd
    | away => exact h
  asked d h := by
    refine h.of_run rfl (.inl rfl) rfl (fun _ hm _ => hm) ?_ (by simp)
    rintro ⟨ds, hds⟩
    cases hds
  givenUp hgive h := by
    cases hgive with
    | terminate => exact h.of_run rfl (.inr (.inr rfl)) rfl (fun _ hm _ => hm) id id
    | _ => exact h.of_run rfl (.inl rfl) rfl (fun _ hm _ => hm) id id

end Run.Heeds

/-- On every path, every run heeds its pending pause. -/
theorem State.Path.heeds (h : Path b {} es s) (hr : s.runs[r]? = some run) :
    run.Heeds r s.handler := by
  refine (Run.Heeds.lasting b r).of_path h orderly_empty (fun e he run hr hstarted => ?_)
    (fun _ _ _ _ hopens => Run.heeds_of_opens hopens) (by simp) hr
  obtain ⟨es', hpath⟩ := h.exists_of_mem he
  exact (hpath.unstarted.fresh hr hstarted).1.pausePending

/-- Whenever nobody holds the lock of a run that a pause is pending for, the run is stepping, and it
is running or over. -/
theorem State.Path.of_pausePending (h : Path b {} es s) (hr : s.runs[r]? = some run)
    (hfree : run.lock ≠ some .handler) (hpending : run.pausePending = true) :
    run.context.stepMode = true ∧ (run.phase = .running ∨ run.phase = .terminated) := by
  have hheeds := h.heeds hr
  refine ⟨?_, hheeds.phase hpending⟩
  rcases hheeds.mode hpending with hmode | ⟨ds, hds⟩
  · exact hmode
  · exact absurd (((h.orderly orderly_empty).runs hr).lock.2 (by simp [hds])) hfree

end DebugAdapter.Session
