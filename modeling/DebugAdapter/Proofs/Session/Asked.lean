import DebugAdapter.Proofs.Session.PausedVariables
import DebugAdapter.Proofs.Variables.Calls
/-!
# What steps make of a snapshot

Most steps leave the execution of a run alone and ask at most one thing of its snapshot (`callIn`).
The others are the thread's: it captures its variables (`captures`), takes over the client's
changes, or executes a statement. `Run.Moves` lists these cases for what a step makes of a run, with
what becomes of a thread that holds on to what it captured (`Run.Holds`). Main statement:
`State.Stride.moves`.
-/

namespace DebugAdapter.Session

/-! ## Calls of steps -/

/-- What a duty asks of the snapshot of its run. -/
def Duty.call? (run : Run) : Duty → Option Snapshot.Call
  | .run _ .invalidate => some .invalidate
  | request _ (.showVariables _ reference) => some (.list reference)
  | request _ (.assign _ args) =>
    if run.phase = .paused then
      some (.assign args.reference args.name (parseUserValue args.value))
    else none
  | request _ (.showValue _ value) => some (.refer value)
  | _ => none

/-- What a step asks of the snapshot of run `r`. -/
def callIn (r : RunId) (e : State × Party) : Option Snapshot.Call :=
  (e.1.runs[r]?).bind fun run => (e.1.agenda e.2).head?.bind fun d =>
    if d.subject? = some r then d.call? run else none

/-- Whether in a step the thread of run `r` captures its variables. -/
def captures (r : RunId) (e : State × Party) : Bool :=
  match e.1.agenda e.2 with
  | .thread r' .capture :: _ => r' == r
  | _ => false

/-- Whether a run goes on as before, when `c` is all that is asked of its snapshot. -/
structure Run.Asked (c : Option Snapshot.Call) (run run' : Run) : Prop where
  rest : run'.rest = run.rest
  vars : run'.vars = run.vars
  key : run'.key = run.key
  clientPath : run'.clientPath = run.clientPath
  snapshot : run'.snapshot = run.snapshot.calls c.toList

theorem Run.Asked.refl (run : Run) : run.Asked none run :=
  ⟨rfl, rfl, rfl, rfl, rfl⟩

variable {b : Backend} {s t : State} {p : Party} {r : RunId} {run run' : Run} {done : Done}

theorem RunDuty.asked {d : RunDuty} (hd : d.perform? r run = some done) :
    run.Asked ((Duty.run r d).call? run) done.run := by
  cases d <;> simp only [perform?] at hd <;> (repeat' split at hd) <;> cases hd <;>
    exact ⟨rfl, rfl, rfl, rfl, rfl⟩

theorem RequestDuty.asked {d : RequestDuty} (hd : d.perform? b r run = some done) :
    run.Asked ((Duty.request r d).call? run) done.run := by
  cases d with
  | showVariables request reference =>
    obtain rfl := Option.some.inj hd
    unfold listStep
    split
    all_goals next heq => exact ⟨rfl, rfl, rfl, rfl, by simp [Duty.call?, Snapshot.calls,
      Snapshot.call, heq, Except.toOption]⟩
  | assign request args =>
    simp only [perform?] at hd
    split at hd
    case isFalse => cases hd
    obtain rfl := Option.some.inj hd
    unfold assignStep
    split
    next hp =>
      split
      all_goals next heq => exact ⟨rfl, rfl, rfl, rfl, by simp [Duty.call?, hp, Snapshot.calls,
        Snapshot.call, heq, Except.toOption]⟩
    next hp => exact ⟨rfl, rfl, rfl, rfl, by simp [Duty.call?, hp, Snapshot.calls]⟩
  | resume request how =>
    simp only [perform?, resumeStep] at hd
    (repeat' split at hd) <;> cases hd <;> exact ⟨rfl, rfl, rfl, rfl, rfl⟩
  | pause request =>
    simp only [perform?, pauseStep] at hd
    (repeat' split at hd) <;> cases hd <;> exact ⟨rfl, rfl, rfl, rfl, rfl⟩
  | _ =>
    obtain rfl := Option.some.inj hd
    exact ⟨rfl, rfl, rfl, rfl, rfl⟩

theorem ThreadDuty.Leaves.asked {d : ThreadDuty} (h : d.Leaves r run run')
    (hcapture : d ≠ .capture) (htake : d ≠ .takeOverrides) (hperform : d ≠ .perform) :
    run.Asked none run' := by
  cases h with
  | capture => exact absurd rfl hcapture
  | takeOverrides => exact absurd rfl htake
  | perform => exact absurd rfl hperform
  | _ => exact ⟨rfl, rfl, rfl, rfl, rfl⟩

theorem Run.GivenUp.asked (h : run.GivenUp run') : run.Asked none run' := by
  cases h <;> exact ⟨rfl, rfl, rfl, rfl, rfl⟩

/-! ## Steps of the parties -/

/-- Whether the thread of run `r` did not yet let go of what it captured: it is still to park, or
the run is still marked as paused. -/
def Run.Holds (r : RunId) (run : Run) : Prop :=
  run.phase = .paused ∨ .thread r .capture ∉ run.thread ∧ .thread r .park ∈ run.thread

/-- What the step `e` makes of run `r`. -/
inductive Run.Moves (r : RunId) (e : State × Party) (run run' : Run) : Prop where
  | asked (hasked : run.Asked (callIn r e) run') (hcaptures : captures r e = false)
      (hholds : run'.Holds r → run.Holds r)
  | captured {stmt : Script.Statement} {rest : Script.Program} (hrest : run.rest = stmt :: rest)
      (hparty : e.2 = .thread r) (hcaptures : captures r e = true) (hrest' : run'.rest = run.rest)
      (hvars : run'.vars = run.vars) (hkey : run'.key = run.key)
      (hpath : run'.clientPath = run.clientPath)
      (hsnapshot : run'.snapshot = .capture run.vars [frameAt run.clientPath stmt.span])
  | wentOn {d : ThreadDuty} (hd : d = .takeOverrides ∨ d = .perform)
      (hthread : run.thread = [.thread r d]) (hphase : run'.phase = run.phase)
      (hpark : .thread r .park ∈ run'.thread → .thread r .capture ∈ run'.thread)
      (hkey : run'.key = run.key) (hpath : run'.clientPath = run.clientPath)
      (hframes : run'.snapshot.frames = run.snapshot.frames)

theorem Duty.call?_congr (d : Duty) (h : run'.phase = run.phase) : d.call? run' = d.call? run := by
  unfold call?
  rw [h]

theorem callIn_eq {d : Duty} {ds : List Duty} (hr : s.runs[r]? = some run)
    (hds : s.agenda p = d :: ds) (hsub : d.subject? = some r) : callIn r (s, p) = d.call? run := by
  simp [callIn, hr, hds, hsub]

theorem captures_eq_false {d : Duty} {ds : List Duty} (hds : s.agenda p = d :: ds)
    (hd : d ≠ .thread r .capture) : captures r (s, p) = false := by
  simp only [captures, hds]
  split
  next r' _ heq =>
    obtain ⟨rfl, -⟩ := List.cons.inj heq
    exact beq_eq_false_iff_ne.2 fun heq => hd (heq ▸ rfl)
  · rfl

/-- A step that is not about a run leaves it as it is. -/
theorem Run.Moves.of_other {d : Duty} {ds : List Duty} (hds : s.agenda p = d :: ds)
    (hsub : d.subject? ≠ some r) (run : Run) : run.Moves r (s, p) run := by
  have hcall : callIn r (s, p) = none := by
    simp only [callIn, hds, List.head?_cons, Option.bind_some, if_neg hsub]
    cases s.runs[r]? <;> rfl
  refine .asked (hcall ▸ .refl run) (captures_eq_false hds ?_) id
  rintro rfl
  exact hsub rfl

/-- What a step of a run's thread makes of the run. -/
theorem Run.Moves.of_thread {d : Duty} {ds : List Duty} (hrun : run.Orderly r s.handler)
    (hr : s.runs[r]? = some run) (hthread : run.thread = d :: ds)
    (hd : d.stroke? b s r { run with thread := ds } = some done) :
    run.Moves r (s, .thread r) { done.run with thread := done.next ++ done.run.thread } := by
  have hds : s.agenda (.thread r) = d :: ds := by simp [State.agenda, hr, hthread]
  have hplan := hrun.thread
  rw [hthread] at hplan
  have hcalm {run' : Run} (hsub : d.subject? = some r) (hcapture : d ≠ .thread r .capture)
      (hcall : d.call? run = none) (hasked : run.Asked none run')
      (hholds : run'.Holds r → run.Holds r) : run.Moves r (s, .thread r) run' :=
    .asked (by rwa [callIn_eq hr hds hsub, hcall]) (captures_eq_false hds hcapture) hholds
  generalize decide (run.lock = some (.thread r)) = holds at hplan
  cases hplan with
  | emit | unlock =>
    obtain rfl := Option.some.inj hd
    refine hcalm rfl (by simp) rfl ⟨rfl, rfl, rfl, rfl, rfl⟩ ?_
    exact Or.imp_right fun h => by simpa [hthread] using h
  | finish =>
    simp only [Duty.stroke?, RunDuty.perform?] at hd
    split at hd <;> cases hd
    refine hcalm rfl (by simp) rfl ⟨rfl, rfl, rfl, rfl, rfl⟩ ?_
    simp [Holds]
  | claim =>
    simp only [Duty.stroke?, RunDuty.perform?] at hd
    split at hd <;> cases hd <;> refine hcalm rfl (by simp) rfl ⟨rfl, rfl, rfl, rfl, rfl⟩ ?_ <;>
      simp +contextual [Holds]
  | stall since hafter =>
    obtain rfl := ThreadDuty.eq_of_stall hd
    refine hcalm rfl (by simp) rfl ⟨rfl, rfl, rfl, rfl, rfl⟩ ?_
    rcases hafter with rfl | rfl <;> simp +contextual [Holds]
  | capture e e' =>
    have hrest : run.rest ≠ [] := fun hnil => by
      cases hrun.statement hnil .capture (by simp [hthread])
    obtain ⟨stmt, rest, hcons, rfl⟩ := ThreadDuty.eq_of_capture hd hrest
    exact .captured hcons rfl (by simp [captures, hds]) rfl rfl rfl rfl rfl
  | markPaused e e' =>
    have hd : ThreadDuty.markPaused.perform? b s r _ = some done := hd
    rw [ThreadDuty.perform?_markPaused] at hd
    obtain rfl := Option.some.inj hd
    refine hcalm rfl (by simp) rfl ⟨rfl, rfl, rfl, rfl, rfl⟩ fun _ => .inr ?_
    simp [hthread, publication]
  | @last _ d hlast =>
    have hd : d.perform? b s r { run with thread := [] } = some done := hd
    have hleaves := ThreadDuty.leaves_of_perform? hd
    have hmark : d ≠ .markPaused := by
      rintro rfl
      cases hlast
    have hcapture : d ≠ .capture := by
      rintro rfl
      cases hlast
    have hphase := hleaves.phase hmark
    -- A thread that is about to park again is about to capture before.
    have hpark : .thread r .park ∈ done.next ++ done.run.thread →
        .thread r .capture ∈ done.next ++ done.run.thread := by
      rw [hleaves.kept.thread]
      simpa using fun h => (ThreadDuty.stop_mem_next hd h).1
    by_cases hon : d = .takeOverrides ∨ d = .perform
    · exact .wentOn hon hthread hphase hpark hleaves.name.1 hleaves.name.2.1
        (hleaves.frames hcapture)
    · obtain ⟨htake, hperform⟩ := not_or.1 hon
      have hasked := hleaves.asked hcapture htake hperform
      refine hcalm rfl (by simpa using hcapture) rfl ⟨hasked.rest, hasked.vars, hasked.key,
        hasked.clientPath, hasked.snapshot⟩ ?_
      rintro (hpaused | ⟨hnone, hmem⟩)
      · exact .inl (hphase.symm.trans hpaused)
      · exact absurd (hpark hmem) hnone

theorem Run.Holds.of_duty {d : RunDuty} (h : done.run.Holds r) (hapt : d.Apt run)
    (hd : d.perform? r run = some done) : run.Holds r := by
  cases d with
  | setPhase phase =>
    simp only [RunDuty.perform?] at hd
    split at hd <;> cases hd
    refine h.imp_left ?_
    rintro rfl
    exact hapt.elim
  | spawn =>
    obtain rfl := Option.some.inj hd
    exact h.imp_right (by simp)
  | claimTerminated | claimStart =>
    simp only [RunDuty.perform?] at hd
    split at hd <;> cases hd <;> exact h
  | _ =>
    obtain rfl := Option.some.inj hd
    exact h

theorem Run.Holds.of_request {d : RequestDuty} (h : done.run.Holds r) (hd : d.Leads r run done) :
    run.Holds r := by
  cases hd with
  | release => exact h.imp_left (by simp)
  | _ => exact h

/-- What the handler makes of the run its next duty is about. -/
theorem Run.Moves.of_handler {d : Duty} {ds : List Duty} (horder : s.Orderly)
    (hr : s.runs[r]? = some run) (hds : s.handler = d :: ds) (hsub : d.subject? = some r)
    (hd : d.stroke? b s r run = some done) : run.Moves r (s, .handler) done.run := by
  have hagenda : s.agenda .handler = d :: ds := hds
  have hown : d.BelongsTo .handler := horder.belongsTo hagenda
  have hcall := callIn_eq hr hagenda hsub
  cases d with
  | session d => cases hd
  | starter _ d | thread _ d => exact hown.elim
  | run _ d =>
    cases hsub
    have hplan := horder.handler
    have hrun := horder.runs hr
    rw [hds] at hplan hrun
    exact .asked (hcall ▸ RunDuty.asked hd) (captures_eq_false hagenda (by simp)) fun h =>
      h.of_duty (hrun.apt_of_handler hplan.1) hd
  | request _ d =>
    cases hsub
    exact .asked (hcall ▸ RequestDuty.asked hd) (captures_eq_false hagenda (by simp)) fun h =>
      h.of_request (RequestDuty.leads_of_perform? hd)

/-- What a step of a run's starter makes of the run. -/
theorem Run.Moves.of_starter {d : Duty} {ds : List Duty} (horder : s.Orderly)
    (hr : s.runs[r]? = some run) (hds : run.starter = d :: ds)
    (hd : d.stroke? b s r { run with starter := ds } = some done) :
    run.Moves r (s, .starter r) { done.run with starter := done.next ++ done.run.starter } := by
  have hagenda : s.agenda (.starter r) = d :: ds := by simp [State.agenda, hr, hds]
  have hown : d.BelongsTo (.starter r) := horder.belongsTo hagenda
  have hcall := callIn_eq hr hagenda (Duty.subject_of_belongsTo (.inl hown))
  cases d with
  | session d | request _ d | thread _ d => exact hown.elim
  | run _ d =>
    obtain rfl : r = _ := hown.symm
    have hasked := RunDuty.asked hd
    have hcall' : (Duty.run r d).call? { run with starter := ds } = callIn r _ :=
      (Duty.call?_congr _ rfl).trans hcall.symm
    rw [hcall'] at hasked
    refine .asked ⟨hasked.rest, hasked.vars, hasked.key, hasked.clientPath, hasked.snapshot⟩
      (captures_eq_false hagenda (by simp)) fun h => ?_
    have hapt : d.Apt { run with starter := ds } := by
      cases d <;> exact (horder.runs hr).apt_of_starter hds
    have hholds : Run.Holds r { run with starter := ds } := Run.Holds.of_duty h hapt hd
    exact hholds
  | starter _ d =>
    obtain ⟨hdone, -, -⟩ := StarterDuty.plan_of_perform? hd
    refine .asked (hcall ▸ ?_) (captures_eq_false hagenda (by simp)) ?_
    · rw [hdone]
      exact ⟨rfl, rfl, rfl, rfl, rfl⟩
    · rw [hdone]
      exact id

/-- What a step makes of a run that there was before, and what a run is that was not. -/
theorem State.Stride.moves (hst : s.Stride b t p) (horder : s.Orderly)
    (hr' : t.runs[r]? = some run') : (s.runs[r]? = none ∧ ∃ s' : State, s'.Opens b run') ∨
      ∃ run, s.runs[r]? = some run ∧ run.Moves r (s, p) run' := by
  cases hr : s.runs[r]? with
  | none => exact .inl ⟨rfl, hst.exists_opens hr hr'⟩
  | some run =>
    refine .inr ⟨run, rfl, ?_⟩
    -- a step that leaves the run as it is
    have hother {d : Duty} {ds : List Duty} (hagenda : s.agenda p = d :: ds)
        (hsub : d.subject? ≠ some r) (hr' : s.runs[r]? = some run') : run.Moves r (s, p) run' := by
      obtain rfl := Option.some.inj (hr.symm.trans hr')
      exact .of_other hagenda hsub run
    cases hst with
    | @session d ds hds ht =>
      subst ht
      have hlt : r < s.runs.length := (List.getElem?_eq_some_iff.1 hr).1
      refine hother hds (by simp [Duty.subject?]) ?_
      rcases d.runs_cases b { s with handler := ds } with hruns | ⟨_, -, hruns⟩
      · simpa [hruns] using hr'
      · simpa [hruns, List.getElem?_append_left hlt] using hr'
    | @handler r₀ run₀ d ds done hds hsub hr₀ hd ht =>
      subst ht
      rcases State.getElem?_setRun hr' with ⟨rfl, rfl⟩ | ⟨hne, hr'⟩
      · obtain rfl := Option.some.inj (hr.symm.trans hr₀)
        exact .of_handler horder hr hds hsub hd
      · exact hother hds (by simpa [hsub] using hne) hr'
    | @starter r₀ run₀ d ds done hds hr₀ hd ht =>
      subst ht
      have hagenda : s.agenda (.starter r₀) = d :: ds := by simp [State.agenda, hr₀, hds]
      have hsub := Duty.subject_of_belongsTo (.inl (horder.belongsTo hagenda))
      rcases State.getElem?_setRun hr' with ⟨rfl, rfl⟩ | ⟨hne, hr'⟩
      · obtain rfl := Option.some.inj (hr.symm.trans hr₀)
        exact .of_starter horder hr hds hd
      · exact hother hagenda (by simpa [hsub] using hne) hr'
    | @thread r₀ run₀ d ds done hds hr₀ hd ht =>
      subst ht
      have hagenda : s.agenda (.thread r₀) = d :: ds := by simp [State.agenda, hr₀, hds]
      have hsub := Duty.subject_of_belongsTo (.inr (horder.belongsTo hagenda))
      rcases State.getElem?_setRun hr' with ⟨rfl, rfl⟩ | ⟨hne, hr'⟩
      · obtain rfl := Option.some.inj (hr.symm.trans hr₀)
        exact .of_thread (horder.runs hr) hr hds hd
      · exact hother hagenda (by simpa [hsub] using hne) hr'

end DebugAdapter.Session
