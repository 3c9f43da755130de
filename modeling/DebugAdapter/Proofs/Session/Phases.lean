import DebugAdapter.Proofs.Session.PausedRun
import DebugAdapter.Proofs.Session.Staged
/-!
# The phases of a run

A run is launching, awaits breakpoints, is running, and then paused and running in turn, and over at
last (`Phase.Next`). There is one way out of this order (`terminated_left_startLate`): the starter
looks whether the run is live and marks it as running in two steps, and a run that is given up
between them is marked as running after it was over. Main statements: `phases_in_order`, for every
step that anybody takes, `over_for_good` and `set_to_work_once`.
-/

namespace DebugAdapter.Session

variable {b : Backend} {s t : State} {p : Party} {r : RunId} {run run' : Run} {done : Done}
  {hs ds : List Duty}

/-! ## Moves of the phase -/

/-- The phase that a run may come to next. -/
inductive Phase.Next : Phase → Phase → Prop where
  | opened : Next .launching .awaitingBreakpoints
  | started : Next .awaitingBreakpoints .running
  | stopped : Next .running .paused
  | resumed : Next .paused .running
  | ended (phase : Phase) : Next phase .terminated

theorem RunDuty.phase_cases {d : RunDuty} (hd : d.perform? r run = some done) :
    done.run.phase = run.phase ∨ ∃ phase, d = .setPhase phase ∧ done.run.phase = phase := by
  cases d <;> simp only [perform?] at hd <;> (repeat' split at hd) <;> cases hd <;>
    first | exact .inl rfl | exact .inr ⟨_, rfl, rfl⟩

/-- Whether run `r`, which was abandoned before its thread was at work, is started all the same. -/
structure Run.IsRevived (r : RunId) (run run' : Run) : Prop where
  ended : run.phase = .terminated
  abandoned : run.Abandoned
  idle : run.thread = []
  starting : .run r .spawn ∈ run.starter
  running : run'.phase = .running

namespace Run.Staged

/-- What the handler does to a run moves it on. -/
theorem next_of_handler {d : RunDuty} (h : run.Staged r (.run r d :: ds))
    (hplan : (Duty.run r d).Precedes ds) (hd : d.perform? r run = some done) :
    done.run.phase = run.phase ∨ run.phase.Next done.run.phase := by
  rcases RunDuty.phase_cases hd with hsame | ⟨phase, rfl, heq⟩
  · exact .inl hsame
  rw [heq]
  cases h.readied with
  | awaiting _ hphase => exact .inr (hphase ▸ .opened)
  | running hphase => exact .inr (hphase ▸ .started)
  | other _ hother =>
    have hduty := hother (.run r (.setPhase phase)) (by simp)
    cases phase with
    | launching | paused => exact hplan.elim
    | awaitingBreakpoints | running => simp [Duty.readies] at hduty
    | terminated => exact .inr (.ended _)

/-- What the starter does to a run moves it on, if the run was not abandoned. -/
theorem next_of_starter {d : RunDuty} (h : run.Staged r hs) (horder : run.Orderly r hs)
    (hds : run.starter = .run r d :: ds)
    (hd : d.perform? r { run with starter := ds } = some done) :
    done.run.phase = run.phase ∨ run.phase.Next done.run.phase ∨ run.IsRevived r done.run := by
  rcases RunDuty.phase_cases hd with hsame | ⟨phase, rfl, heq⟩
  · exact .inl hsame
  have hplan := horder.starter
  rw [hds] at hplan
  cases hplan
  have hspawn : .run r .spawn ∈ run.starter := by simp [hds]
  rw [heq]
  rcases h.starter (by simp [hds]) with hphase | hphase
  · exact .inr (.inl (hphase ▸ .started))
  · rcases h.ended hphase with hdone | ⟨hbegun, -⟩
    · exact .inr (.inr ⟨hphase, hdone, horder.spawned (.inr hspawn), hspawn, heq⟩)
    · exact absurd hspawn hbegun.starter

/-- What the thread does to a run moves it on. -/
theorem next_of_thread {d : Duty} (h : run.Staged r hs) (horder : run.Orderly r hs)
    (hstop : run.phase = .paused → run.IsStopping r ∨ run.IsUnwinding r)
    (hds : run.thread = d :: ds) (hd : d.stroke? b s r { run with thread := ds } = some done) :
    done.run.phase = run.phase ∨ run.phase.Next done.run.phase := by
  have hunder := h.working (by simp [hds])
  have hplan := horder.thread
  rw [hds] at hplan
  generalize decide (run.lock = some (.thread r)) = holds at hplan
  cases hplan with
  | emit | unlock =>
    obtain rfl := Option.some.inj hd
    exact .inl rfl
  | finish =>
    simp only [Duty.stroke?, RunDuty.perform?] at hd
    split at hd <;> cases hd
    exact .inr (.ended _)
  | claim =>
    simp only [Duty.stroke?, RunDuty.perform?] at hd
    split at hd <;> cases hd <;> exact .inl rfl
  | markPaused e e' =>
    have hd : ThreadDuty.markPaused.perform? b s r _ = some done := hd
    rw [ThreadDuty.perform?_markPaused] at hd
    obtain rfl := Option.some.inj hd
    have hmem : .thread r .markPaused ∈ run.thread := by simp [hds]
    have hpaused : run.phase ≠ .paused := fun hphase => by
      rcases hstop hphase with ⟨ds', heq, hds'⟩ | ⟨-, hends⟩
      · rw [heq] at hmem
        simpa using (List.mem_append.1 hmem).imp_left (hds' _)
      · obtain ⟨e, he⟩ := hends _ hmem
        cases he
    have hover := h.locked .markPaused hmem rfl (by simp)
    have hrunning : run.phase = .running := by
      cases hp : run.phase <;> simp_all [Phase.isUnderWay]
    exact .inr (hrunning ▸ .stopped)
  | stall | capture =>
    exact .inl ((ThreadDuty.leaves_of_perform? hd).phase (by simp))
  | last hlast =>
    refine .inl ((ThreadDuty.leaves_of_perform? hd).phase ?_)
    rintro rfl
    cases hlast

end Run.Staged

/-- Every step of anybody leaves a run in its phase or moves it on to a next one, but for a step of
the starter of a run that was abandoned. -/
theorem phases_in_order (h : State.Reachable b s) (hp : s.advance? b p = some t)
    (hr : s.runs[r]? = some run) (hr' : t.runs[r]? = some run') :
    run'.phase = run.phase ∨ run.phase.Next run'.phase ∨
      p = .starter r ∧ run.IsRevived r run' := by
  obtain ⟨es, hpath⟩ := h.exists_path
  have horder := hpath.orderly State.orderly_empty
  have hstaged := h.staged hr
  have hrun := horder.runs hr
  obtain ⟨run₁, hr₁, hfares⟩ := (horder.stride hp).fares horder hr
  obtain rfl := Option.some.inj (hr'.symm.trans hr₁)
  generalize t.handler = hs at hfares
  cases hfares with
  | aside | waits | away => exact .inl rfl
  | duty hds hplan hd =>
    rw [hds] at hstaged
    exact (hstaged.next_of_handler hplan hd).imp_right .inl
  | request _ hd =>
    cases hd with
    | release _ _ _ hpaused => exact .inr (.inl (hpaused ▸ .resumed))
    | _ => exact .inl rfl
  | starts hds hd =>
    exact (hstaged.next_of_starter hrun hds hd).imp_right (Or.imp_right fun h => ⟨rfl, h.ended,
      h.abandoned, h.idle, h.starting, h.running⟩)
  | tells hds hd | works hds hd =>
    have hstop := hpath.stopping_or_unwinding hr
    exact (hstaged.next_of_thread (b := b) (s := s) hrun hstop hds hd).imp_right .inl

/-- A run whose thread was set to work stays over once it is over. -/
theorem over_for_good {es : List (State × Party)} (h : State.Path b s es t)
    (hreach : State.Reachable b s) (hes : ∀ e ∈ es, State.Reachable b e.1) (hbegun : s.Begun r)
    (hr : s.runs[r]? = some run) (hover : run.phase = .terminated) :
    ∃ run', t.runs[r]? = some run' ∧ run'.phase = .terminated := by
  obtain ⟨es₀, hpath₀⟩ := hreach.exists_path
  have horder := hpath₀.orderly State.orderly_empty
  induction h with
  | refl => exact ⟨run, hr, hover⟩
  | @step es t u p hpath hp ih =>
    obtain ⟨run₁, hr₁, hover₁⟩ := ih fun e he => hes e (by simp [he])
    obtain ⟨⟨run₂, hr₂, -⟩, -⟩ := (hpath.step hp).not_spawn horder hbegun
    obtain ⟨⟨run₃, hr₃, hbegun₃⟩, -⟩ := hpath.not_spawn horder hbegun
    obtain rfl := Option.some.inj (hr₁.symm.trans hr₃)
    refine ⟨run₂, hr₂, ?_⟩
    rcases phases_in_order (hes (t, p) (by simp)) hp hr₁ hr₂ with hsame | hnext | ⟨-, hrevived⟩
    · exact hsame.trans hover₁
    · rw [hover₁] at hnext
      generalize run₂.phase = phase at hnext
      cases hnext
      rfl
    · exact absurd hrevived.starting hbegun₃.starter
  | accept i _ _ ih =>
    obtain ⟨run₁, hr₁, hover₁⟩ := ih hes
    exact ⟨run₁, by cases i <;> exact hr₁, hover₁⟩
  | @giveUp es t r' run₁ run₂ hpath hr₁ hgive ih =>
    obtain ⟨run₃, hr₃, hover₃⟩ := ih hes
    have hlt : r' < t.runs.length := (List.getElem?_eq_some_iff.1 hr₁).1
    by_cases heq : r' = r
    · subst heq
      obtain rfl := Option.some.inj (hr₁.symm.trans hr₃)
      refine ⟨run₂, by simp [State.setRun, hlt], ?_⟩
      cases hgive <;> first | exact hover₃ | rfl
    · exact ⟨run₃, by simpa [State.setRun, heq] using hr₃, hover₃⟩

open State (asked taken) in
/-- A run is given up after its starter found it live, and before it was started. -/
def startLate : List State.Turn :=
  asked "launch" (.object [("path", .string "a")]) :: taken 6 .handler ++ taken 6 (.starter 0) ++
    asked "terminate" .null :: taken 9 .handler ++ taken 2 (.starter 0)

/-- A run that is over may be marked as running by its starter. -/
theorem terminated_left_startLate : ∃ s t run run', State.Reachable promptBackend s ∧
    s.advance? promptBackend (.starter 0) = some t ∧ s.runs[0]? = some run ∧
    t.runs[0]? = some run' ∧ run.phase = .terminated ∧ run'.phase = .running := by
  have hwalk : (({} : State).walk? promptBackend startLate).any (fun w =>
      (w.2.advance? promptBackend (.starter 0)).any fun t => w.2.runs[0]?.any fun run =>
        t.runs[0]?.any fun run' => run.phase == .terminated && run'.phase == .running) = true := by
    decide +kernel
  obtain ⟨⟨es, s⟩, hw, hrest⟩ := (Option.any_eq_true ..).1 hwalk
  obtain ⟨t, hp, hrest⟩ := (Option.any_eq_true ..).1 hrest
  obtain ⟨run, hr, hrest⟩ := (Option.any_eq_true ..).1 hrest
  obtain ⟨run', hr', hphases⟩ := (Option.any_eq_true ..).1 hrest
  simp only [Bool.and_eq_true, beq_iff_eq] at hphases
  exact ⟨s, t, run, run', State.Reachable.initial.walk hw, hp, hr, hr', hphases⟩

/-! ## The thread is set to work once -/

/-- Whether a step sets the thread of run `r` to work. -/
def setsToWork (r : RunId) (e : State × Party) : Bool :=
  match e.1.agenda e.2 with
  | .run r' .spawn :: _ => r' == r
  | _ => false

theorem agenda_of_setsToWork {e : State × Party} (h : setsToWork r e = true) :
    ∃ ds, e.1.agenda e.2 = .run r .spawn :: ds := by
  unfold setsToWork at h
  split at h
  next r' ds heq => exact ⟨ds, by rw [heq, beq_iff_eq.1 h]⟩
  · cases h

/-- A run has begun once its thread is set to work. -/
theorem State.Orderly.begun_of_setsToWork (horder : s.Orderly) (hp : s.advance? b p = some t)
    (h : setsToWork r (s, p) = true) : t.Begun r := by
  obtain ⟨ds, hds⟩ : ∃ ds, s.agenda p = .run r .spawn :: ds := agenda_of_setsToWork h
  have hst := horder.stride hp
  have hbegun {run : Run} (hr : t.runs[r]? = some run) (hthread : run.thread ≠ []) : t.Begun r :=
    ⟨run, hr, ((horder.of_stride hst).runs hr).begun hthread⟩
  have hown := horder.belongsTo hds
  cases hst with
  | session hs => cases (show s.handler = _ from hds).symm.trans hs
  | @handler r₀ run d ds' done hs hsub hr hd ht =>
    obtain ⟨rfl, rfl⟩ := List.cons.inj ((show s.handler = _ from hds).symm.trans hs)
    obtain rfl : r = r₀ := Option.some.inj hsub
    have hlt : r < s.runs.length := (List.getElem?_eq_some_iff.1 hr).1
    obtain rfl := Option.some.inj hd
    exact hbegun (by rw [ht]; simp [State.setRun, State.send, hlt]; rfl) (by simp)
  | @starter r₀ run d ds' done hs hr hd ht =>
    obtain rfl : r = r₀ := hown
    have hlt : r < s.runs.length := (List.getElem?_eq_some_iff.1 hr).1
    obtain ⟨rfl, rfl⟩ := List.cons.inj (hds.symm.trans (by simpa [State.agenda, hr] using hs))
    obtain rfl := Option.some.inj hd
    exact hbegun (by rw [ht]; simp [State.setRun, State.send, hlt]; rfl) (by simp)
  | @thread r₀ run d ds' done hs hr hd ht =>
    obtain ⟨rfl, rfl⟩ := List.cons.inj (hds.symm.trans (by simpa [State.agenda, hr] using hs))
    have hplan := (horder.runs hr).thread
    rw [hs] at hplan
    generalize decide (run.lock = some (.thread r₀)) = holds at hplan
    cases hplan

/-- On every path, the thread of a run is set to work at most once. -/
theorem set_to_work_once {es : List (State × Party)} (h : State.Path b {} es s) (r : RunId) :
    es.countP (setsToWork r) ≤ 1 := by
  have hcount : es.countP (setsToWork r) = 0 ∨ es.countP (setsToWork r) = 1 ∧ s.Begun r := by
    induction h with
    | refl => exact .inl rfl
    | @step es s t p hpath hp ih =>
      have horder := hpath.orderly State.orderly_empty
      have hstep := (State.Path.refl (b := b)).step hp
      rw [List.countP_append, List.countP_singleton]
      cases hsets : setsToWork r (s, p) with
      | false =>
        simp only [Bool.false_eq_true, if_false, Nat.add_zero]
        exact ih.imp_right fun hone => ⟨hone.1, (hstep.not_spawn horder hone.2).1⟩
      | true =>
        refine .inr ⟨?_, horder.begun_of_setsToWork hp hsets⟩
        rcases ih with hnone | ⟨-, hbegun⟩
        · simp [hnone]
        · obtain ⟨ds, hds⟩ := agenda_of_setsToWork hsets
          exact absurd (by simp [hds]) ((hstep.not_spawn horder hbegun).2 (s, p) (by simp))
    | accept i hpath hi ih =>
      have horder := hpath.orderly State.orderly_empty
      have hsingle := (State.Path.refl (b := b)).accept i hi
      exact ih.imp_right fun hone => ⟨hone.1, (hsingle.not_spawn horder hone.2).1⟩
    | giveUp hpath hr hgive ih =>
      have horder := hpath.orderly State.orderly_empty
      have hsingle := (State.Path.refl (b := b)).giveUp hr hgive
      exact ih.imp_right fun hone => ⟨hone.1, (hsingle.not_spawn horder hone.2).1⟩
  omega

end DebugAdapter.Session
