import DebugAdapter.Proofs.Session.Stable
import DebugAdapter.Proofs.Session.Follows
import DebugAdapter.Proofs.Session.Phases
/-!
# The end of a thread

A thread that was set to work has its end before it until it says that it is over
(`Run.IsToEnd.lasting`), so the thread of a run that is running or paused does
(`State.Path.goesOn`). Once it said so, the run stays over (`Run.IsOver.lasting`).
-/

namespace DebugAdapter.Session

variable {b : Backend} {s t : State} {p : Party} {r : RunId} {run run' : Run} {done : Done}
  {hs ds : List Duty} {es : List (State × Party)}

/-! ## Until the end of the thread -/

/-- Whether a duty of the thread of run `r` comes before its end, or is that. -/
def Duty.IsWork (r : RunId) (d : Duty) : Prop :=
  d = .run r (.setPhase .terminated) ∨ ∃ d', d = .thread r d'

/-- Whether the thread of run `r` has its end before it, or is about to be set to work. -/
def Run.IsToEnd (r : RunId) (hs : List Duty) (run : Run) : Prop :=
  (∃ d ∈ run.thread, d.IsWork r) ∨ .run r .spawn ∈ hs ∨ .run r .spawn ∈ run.starter

/-- A thread that does what nothing else follows is given more to do. -/
theorem ThreadDuty.exists_isWork {d : ThreadDuty} (hlast : d.isLast = true)
    (hd : d.perform? b s r run = some done) : ∃ e ∈ done.next, e.IsWork r := by
  have hthread {ds : List Duty} {d' : ThreadDuty} (hm : .thread r d' ∈ ds) :
      ∃ e ∈ ds, e.IsWork r := ⟨_, hm, .inr ⟨d', rfl⟩⟩
  have hstall (line : UInt32) (late : Bool) (d' : ThreadDuty) :
      ∃ e ∈ stallThen b s r line late d', e.IsWork r := by
    have hm : .thread r d' ∈ stallThen b s r line late d' := by
      unfold stallThen
      split <;> simp
    exact hthread hm
  have hcheck (line : UInt32) (suspends : Bool) (d' : ThreadDuty) :
      ∃ e ∈ afterCheck b s r line suspends d', e.IsWork r := by
    unfold afterCheck
    split
    · exact hstall line true .suspend
    · exact hthread (List.mem_singleton_self _)
  have hend (ending : Ending) : ∃ e ∈ endDuties r run ending, e.IsWork r :=
    ⟨.run r (.setPhase .terminated), by simp [endDuties], .inl rfl⟩
  unfold perform? at hd
  split at hd
  · cases d
    case conclude ending =>
      cases hd
      exact hend ending
    all_goals
      simp only [performIdle?] at hd
      (repeat' split at hd) <;> cases hd <;> first
        | exact hthread (List.mem_singleton_self _)
        | exact hthread (List.mem_cons_of_mem _ (List.mem_singleton_self _))
        | cases hlast
  · cases d
    case reach =>
      cases hd
      exact hstall _ _ _
    case checkClosed | checkStep | checkLine =>
      cases hd
      exact hcheck _ _ _
    case conclude ending =>
      cases hd
      exact hend ending
    case perform =>
      simp only [performAt?] at hd
      split at hd <;> cases hd
      · exact hthread (List.mem_singleton_self _)
      · exact hthread (List.mem_append_right _ (List.mem_singleton_self _))
      · exact hthread (List.mem_singleton_self _)
    all_goals
      simp only [performAt?, performIdle?] at hd
      (repeat' split at hd) <;> cases hd <;> first
        | exact hthread (List.mem_singleton_self _)
        | exact hthread (List.mem_cons_of_mem _ (List.mem_singleton_self _))
        | exact hthread List.mem_cons_self
        | exact hthread (List.mem_cons_of_mem _ (List.mem_cons_of_mem _ List.mem_cons_self))
        | cases hlast

/-- Whether in a step the thread of run `r` says that it is over. -/
def EndsThread (r : RunId) (e : State × Party) : Prop :=
  e.2 = .thread r ∧ (e.1.agenda e.2).head? = some (.run r (.setPhase .terminated))

theorem ThreadPlan.exists_isWork {holds : Bool} {d : ThreadDuty} (hlast : d.isLast = false)
    (h : ThreadPlan r holds (.thread r d :: ds)) : ∃ e ∈ ds, e.IsWork r := by
  cases h with
  | stall => exact ⟨_, List.mem_singleton_self _, .inr ⟨_, rfl⟩⟩
  | capture => exact ⟨_, List.mem_cons_self, .inr ⟨_, rfl⟩⟩
  | markPaused => exact ⟨.thread r .park, by simp [publication], .inr ⟨_, rfl⟩⟩
  | last hlast' => cases hlast.symm.trans hlast'

namespace Run.IsToEnd

/-- The thread that is set to work has its end before it. -/
theorem of_spawn {done : Done} (hd : RunDuty.spawn.perform? r run = some done) (hs : List Duty) :
    done.run.IsToEnd r hs := by
  obtain rfl := Option.some.inj hd
  exact .inl ⟨.thread r .reach, by simp, .inr ⟨_, rfl⟩⟩

/-- The handler or the starter does something to a run. -/
theorem of_duty {d : RunDuty} (hd : d.perform? r run = some done)
    (hthread : d ≠ .spawn → (∃ e ∈ run.thread, e.IsWork r) ∨ .run r .spawn ∈ hs ∨
      .run r .spawn ∈ done.run.starter) : done.run.IsToEnd r hs := by
  by_cases hspawn : d = .spawn
  · subst hspawn
    exact of_spawn hd hs
  · unfold IsToEnd
    rw [RunDuty.thread_of_perform? hd hspawn]
    exact hthread hspawn

/-- The thread does something. -/
theorem of_thread {d : Duty} (h : run.IsToEnd r hs) (horder : run.Orderly r hs)
    (hds : run.thread = d :: ds) (hends : d ≠ .run r (.setPhase .terminated))
    (hd : d.stroke? b s r { run with thread := ds } = some done) :
    ∃ e ∈ done.next ++ done.run.thread, e.IsWork r := by
  have hplan := horder.thread
  rw [hds] at hplan
  obtain ⟨d, rfl⟩ | ⟨d, rfl⟩ := hplan.head_cases
  · have hspawn : d ≠ .spawn := by
      rintro rfl
      generalize decide (run.lock = some (.thread r)) = holds at hplan
      cases hplan
    have hwork : ∃ e ∈ run.thread, e.IsWork r := by
      rcases h with hwork | hspawn
      · exact hwork
      · cases hds.symm.trans (horder.spawned hspawn)
    obtain ⟨e, he, hwork⟩ := hwork
    rw [RunDuty.thread_of_perform? hd hspawn]
    rcases List.mem_cons.1 (hds ▸ he) with rfl | he
    · rcases hwork with heq | ⟨d', heq⟩
      · exact absurd heq hends
      · cases heq
    · exact ⟨e, List.mem_append_right _ he, hwork⟩
  · rw [(ThreadDuty.leaves_of_perform? hd).kept.thread]
    cases hlast : d.isLast with
    | true =>
      obtain ⟨e, he, hwork⟩ := ThreadDuty.exists_isWork hlast hd
      exact ⟨e, List.mem_append_left _ he, hwork⟩
    | false =>
      obtain ⟨e, he, hwork⟩ := hplan.exists_isWork hlast
      exact ⟨e, List.mem_append_right _ he, hwork⟩

/-- A thread that has its end before it comes to it. -/
theorem lasting (b : Backend) (r : RunId) :
    Run.Lasting b r (fun e => ¬EndsThread r e) (Run.IsToEnd r) where
  fares {s p run run' hs} hends hr horder hfares h := by
    cases hfares with
    | away => exact h
    | waits hspawn => exact h.imp_right fun h => h.imp_right hspawn.2
    | @aside d ds next hs hsub =>
      refine h.imp_right fun h => h.imp_left fun hm => List.mem_append_right _ ?_
      rw [hs] at hm
      refine (List.mem_cons.1 hm).resolve_left ?_
      rintro rfl
      exact hsub rfl
    | @duty d ds done hs _ hd =>
      refine of_duty hd fun hspawn => h.imp_right fun h => ?_
      rcases h with hm | hm
      · rw [hs] at hm
        refine .inl (List.mem_append_right _ ((List.mem_cons.1 hm).resolve_left ?_))
        rintro heq
        exact hspawn (by simpa using heq.symm)
      · have hschedule : d ≠ .schedule := by
          rintro rfl
          rw [(horder.scheduled (by simp [hs])).2] at hm
          cases hm
        exact .inr (RunDuty.starter_of_perform? hd hschedule ▸ hm)
    | @request d done hs hd =>
      have hthread : done.run.thread = run.thread := by cases hd <;> rfl
      unfold IsToEnd
      rw [hthread, hd.starter]
      exact h.imp_right fun h => .inr (h.resolve_left (by simp [hs]))
    | @starts d ds done hs hd =>
      have hplan := horder.starter
      rw [hs] at hplan
      have hstarter := RunDuty.starter_of_perform? hd (by cases hplan <;> simp)
      have hdone : Run.IsToEnd r (s.handler) done.run := by
        refine of_duty hd fun hspawn => h.imp_right fun h => h.imp_right fun hm => ?_
        rw [hstarter]
        rw [hs] at hm
        exact (List.mem_cons.1 hm).resolve_left (by simpa using hspawn.symm)
      exact hdone.imp_right fun h => h.imp_right fun hm => List.mem_append_right _ hm
    | @tells d ds done hs hd =>
      refine .inl (h.of_thread (b := b) (s := s) horder hs (fun heq => hends ⟨rfl, ?_⟩) hd)
      simp [State.agenda, hr, hs, heq]
    | @works d ds done hs hd => exact .inl (h.of_thread (b := b) (s := s) horder hs (by simp) hd)
  asked d h := h.imp_right fun h => .inr (h.resolve_left (by simp))
  givenUp hgive h := by cases hgive <;> exact h

end Run.IsToEnd

/-- A thread that says that it is over has nothing of its own left to do. -/
theorem Run.Fares.of_endsThread (hfares : run.Fares b s r p run' hs) (hr : s.runs[r]? = some run)
    (horder : run.Orderly r s.handler) (hends : EndsThread r (s, p)) : run' = run ∧ hs = s.handler ∨
      run'.phase = .terminated ∧ run'.thread = [.run r .claimTerminated] := by
  obtain ⟨rfl, hhead⟩ := hends
  cases hfares with
  | away => exact .inl ⟨rfl, rfl⟩
  | @tells d ds done hs hd =>
    obtain rfl : d = .setPhase .terminated := by simpa [State.agenda, hr, hs] using hhead
    have hplan := horder.thread
    rw [hs] at hplan
    generalize decide (run.lock = some (.thread r)) = holds at hplan
    cases hplan
    simp only [RunDuty.perform?] at hd
    split at hd <;> cases hd
    exact .inr ⟨rfl, rfl⟩
  | works hs hd => simp [State.agenda, hr, hs] at hhead

/-- Whether a run that is running or paused has its end before it. -/
def Run.GoesOn (r : RunId) (hs : List Duty) (run : Run) : Prop :=
  run.phase = .running ∨ run.phase = .paused → run.IsToEnd r hs

/-- A step makes a run run, or pause, only when its thread has its end before it. -/
theorem Run.Fares.goesOn {phase : Phase} (hfares : run.Fares b s r p run' hs)
    (horder : run.Orderly r s.handler) (hbefore : ¬(run.phase = .running ∨ run.phase = .paused))
    (hphase : run'.phase = phase) (hafter : phase = .running ∨ phase = .paused) :
    run'.IsToEnd r hs := by
  have hchanged (hsame : run'.phase = run.phase) : run'.IsToEnd r hs :=
    absurd (hsame ▸ hphase ▸ hafter) hbefore
  cases hfares with
  | aside | away | waits => exact hchanged rfl
  | @duty d ds done hs hplan hd =>
    rcases RunDuty.phase_cases hd with heq | ⟨phase', rfl, heq⟩
    · exact hchanged heq
    · obtain rfl := hphase.symm.trans heq
      rcases hafter with rfl | rfl
      · obtain rfl : ds = _ := hplan
        exact .inr (.inl (by simp))
      · exact hplan.elim
  | request hs hd =>
    cases hd with
    | release _ _ _ hpaused => exact absurd (.inr hpaused) hbefore
    | _ => exact hchanged rfl
  | @starts d ds done hs hd =>
    rcases RunDuty.phase_cases hd with heq | ⟨phase', rfl, heq⟩
    · exact hchanged heq
    · have hplan := horder.starter
      rw [hs] at hplan
      have hstarter := RunDuty.starter_of_perform? hd (by simp)
      cases hplan with
      | running => exact .inr (.inr (by simp [hstarter]))
  | @tells d ds done hs hd =>
    rcases RunDuty.phase_cases hd with heq | ⟨phase', rfl, heq⟩
    · exact hchanged heq
    · obtain rfl := hphase.symm.trans heq
      have hplan := horder.thread
      rw [hs] at hplan
      generalize decide (run.lock = some (.thread r)) = holds at hplan
      cases hplan with
      | finish => rcases hafter with h | h <;> cases h
  | @works d ds done hs hd =>
    have hleaves := ThreadDuty.leaves_of_perform? hd
    by_cases hmark : d = .markPaused
    · subst hmark
      have hplan := horder.thread
      rw [hs] at hplan
      obtain ⟨e, he, hwork⟩ := hplan.exists_isWork rfl
      exact .inl ⟨e, List.mem_append_right _ (hleaves.kept.thread ▸ he), hwork⟩
    · exact hchanged (hleaves.phase hmark)

/-- The thread of a run that is running or paused comes to its end. -/
theorem Run.GoesOn.lasting (b : Backend) (r : RunId) :
    Run.Lasting b r (fun _ => True) (Run.GoesOn r) where
  fares {s p run run' hs} _ hr horder hfares h hafter := by
    by_cases hbefore : run.phase = .running ∨ run.phase = .paused
    · by_cases hends : EndsThread r (s, p)
      · rcases hfares.of_endsThread hr horder hends with ⟨rfl, rfl⟩ | ⟨hover, -⟩
        · exact h hbefore
        · rw [hover] at hafter
          rcases hafter with heq | heq <;> cases heq
      · exact (Run.IsToEnd.lasting b r).fares hends hr horder hfares (h hbefore)
    · exact hfares.goesOn horder hbefore rfl hafter
  asked d h hphase := (Run.IsToEnd.lasting b r).asked d (h hphase)
  givenUp hgive h hphase := by
    cases hgive with
    | terminate => rcases hphase with h | h <;> cases h
    | _ => exact h hphase

theorem State.Path.goesOn (h : Path b {} es s) (hr : s.runs[r]? = some run) :
    run.GoesOn r s.handler := by
  refine (Run.GoesOn.lasting b r).of_path h orderly_empty (fun _ _ => trivial)
    (fun _ _ _ _ hopens => ?_) (by simp) hr
  cases hopens
  rintro (hphase | hphase) <;> cases hphase

/-! ## Over for good -/

/-- Whether the thread of run `r` said that it is over. -/
structure Run.IsOver (r : RunId) (run : Run) : Prop where
  phase : run.phase = .terminated
  thread : ∀ d ∈ run.thread, ¬d.IsWork r

/-- Whether a step does not set the thread of run `r` to work, as that was done. -/
structure LeavesBegun (r : RunId) (e : State × Party) : Prop where
  begun : ∀ run, e.1.runs[r]? = some run → run.Begun r e.1.handler
  spawn : (e.1.agenda e.2).head? ≠ some (.run r .spawn)

theorem State.Path.leavesBegun (h : Path b s es t) (horder : s.Orderly) (hbegun : s.Begun r)
    {e : State × Party} (he : e ∈ es) : LeavesBegun r e where
  begun run hr := by
    obtain ⟨es₁, es₂, v, -, h₁, -, -⟩ := h.exists_split he
    obtain ⟨run', hr', hbegun'⟩ := (h₁.not_spawn horder hbegun).1
    obtain rfl := Option.some.inj (hr.symm.trans hr')
    exact hbegun'
  spawn := (h.not_spawn horder hbegun).2 e he

/-- A thread that is over stays so. -/
theorem Run.IsOver.lasting (b : Backend) (r : RunId) :
    Run.Lasting b r (LeavesBegun r) fun _ run => run.IsOver r where
  fares {s p run run' hs} hleaves hr horder hfares h := by
    have hbegun := hleaves.begun run hr
    have hnot {d : RunDuty} (hhead : (s.agenda p).head? = some (.run r d)) : d ≠ .spawn := by
      rintro rfl
      exact hleaves.spawn hhead
    cases hfares with
    | aside | away => exact h
    | waits => exact ⟨h.phase, h.thread⟩
    | @duty d ds done hs hplan hd =>
      refine ⟨?_, RunDuty.thread_of_perform? hd (hnot (by simp [State.agenda, hs])) ▸ h.thread⟩
      rcases RunDuty.phase_cases hd with heq | ⟨phase, rfl, heq⟩
      · exact heq.trans h.phase
      · rw [heq]
        cases phase with
        | launching | paused => exact hplan.elim
        | terminated => rfl
        | running =>
          obtain rfl : ds = _ := hplan
          exact absurd (by simp [hs]) hbegun.handler
        | awaitingBreakpoints =>
          obtain ⟨m, rfl⟩ := hplan
          cases hbegun.started.symm.trans (horder.scheduled (by simp [hs])).1
    | request hs hd =>
      cases hd with
      | release _ _ _ hphase | skip _ _ _ hphase | pause _ _ hphase =>
        cases hphase.symm.trans h.phase
      | _ => exact ⟨h.phase, h.thread⟩
    | @starts d ds done hs hd =>
      have hplan := horder.starter
      rw [hs] at hplan
      have hthread := RunDuty.thread_of_perform? hd (hnot (by simp [State.agenda, hr, hs]))
      refine ⟨?_, fun d hm => h.thread d (hthread ▸ hm)⟩
      rcases RunDuty.phase_cases hd with heq | ⟨phase, rfl, heq⟩
      · exact heq.trans h.phase
      · cases hplan with
        | running => exact absurd (by simp [hs]) hbegun.starter
    | @tells d ds done hs hd =>
      have hplan := horder.thread
      rw [hs] at hplan
      generalize decide (run.lock = some (.thread r)) = holds at hplan
      have hds : ∀ d ∈ ds, ¬d.IsWork r := fun d hm => h.thread d (by simp [hs, hm])
      cases hplan with
      | finish => exact absurd (.inl rfl) (h.thread (.run r (.setPhase .terminated)) (by simp [hs]))
      | emit | unlock =>
        obtain rfl := Option.some.inj hd
        exact ⟨h.phase, hds⟩
      | claim =>
        simp only [RunDuty.perform?] at hd
        split at hd <;> cases hd <;> exact ⟨h.phase, by simp [Duty.IsWork]⟩
    | @works d ds done hs hd => exact absurd (.inr ⟨d, rfl⟩) (h.thread (.thread r d) (by simp [hs]))
  asked _ h := h
  givenUp hgive h := by
    cases hgive <;> exact ⟨by first | exact h.phase | rfl, h.thread⟩

end DebugAdapter.Session
