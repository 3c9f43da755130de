import DebugAdapter.Proofs.Session.Debugger
import DebugAdapter.Proofs.Session.Queued
/-!
# Abandoned runs

The handler abandons a run in four steps, and in between the starter and the thread of the run may
be anywhere. Once it is done the run is `Run.Abandoned` for good, and winds down (`Run.WindsDown`) :
its thread executes at most the statement that it was about to, and its execution ends. Main
statement: `abandoned_run_ends`.
-/

namespace DebugAdapter.Session

open Protocol (Outgoing)

/-! ## What the handler is about to do -/

namespace State

variable {b : Backend} {s t : State} {r : RunId} {ds : List Duty}

/-- What the handler had to do first was done in one of the steps, if it has not to do it any
more. -/
theorem Path.exists_handled {es : List (State × Party)} {d : Duty} (h : Path b s es t)
    (horder : s.Orderly) (hs : s.handler = d :: ds) (ht : t.handler ≠ d :: ds) :
    ∃ es₁ es₂ v w, Path b s es₁ v ∧ v.handler = d :: ds ∧ v.advance? b .handler = some w ∧
      Path b w es₂ t := by
  induction h with
  | refl => exact absurd hs ht
  | @step es u t p hpath hp ih =>
    by_cases hu : u.handler = d :: ds
    · have hst := (hpath.orderly horder).stride hp
      by_cases hparty : p = .handler
      · subst hparty
        exact ⟨es, [], u, t, hpath, hu, hp, .refl⟩
      · exact absurd ((hst.handler_eq hparty).trans hu) ht
    · obtain ⟨es₁, es₂, v, w, h₁, hv, hw, h₂⟩ := ih hu
      exact ⟨es₁, _, v, w, h₁, hv, hw, h₂.step hp⟩
  | @accept es u i hpath hi ih =>
    have hu : u.handler ≠ d :: ds := by
      intro hu
      cases i with
      | request | hangUp => cases hu.symm.trans hi
      | elapse | release => exact ht hu
    obtain ⟨es₁, es₂, v, w, h₁, hv, hw, h₂⟩ := ih hu
    exact ⟨es₁, _, v, w, h₁, hv, hw, h₂.accept i hi⟩
  | giveUp hpath hr hgive ih =>
    obtain ⟨es₁, es₂, v, w, h₁, hv, hw, h₂⟩ := ih ht
    exact ⟨es₁, _, v, w, h₁, hv, hw, h₂.giveUp hr hgive⟩

/-- What a duty of the handler on a run leaves. -/
theorem Orderly.exists_of_duty {d : RunDuty} (horder : s.Orderly)
    (hp : s.advance? b .handler = some t) (hs : s.handler = .run r d :: ds) :
    ∃ run done, s.runs[r]? = some run ∧ d.perform? r run = some done ∧
      t.runs[r]? = some done.run ∧ t.handler = done.next ++ ds := by
  cases horder.stride hp with
  | session hs' => cases hs.symm.trans hs'
  | @handler r' run d' ds' done hs' hsub hr hd ht =>
    obtain ⟨rfl, rfl⟩ := List.cons.inj (hs.symm.trans hs')
    obtain rfl : r = r' := Option.some.inj hsub
    have hlt : r < s.runs.length := (List.getElem?_eq_some_iff.1 hr).1
    exact ⟨run, done, hr, hd, by rw [ht]; simp [setRun, send, hlt], by rw [ht]⟩

end State

/-! ## What abandons a run -/

/-- Whether a run was abandoned : it sends nothing any more, and no wait in it lasts. -/
structure Run.Abandoned (run : Run) : Prop where
  silent : run.isLive = false
  closed : run.context.isClosed = true

theorem ThreadDuty.Leaves.isLive {r : RunId} {run run' : Run} {d : ThreadDuty}
    (h : d.Leaves r run run') : run'.isLive = run.isLive := by
  cases h <;> rfl

/-- A run that sends nothing goes on to send nothing. -/
theorem Run.silent_stable (b : Backend) (r : RunId) :
    Run.Stable b r (fun _ => True) fun run => run.isLive = false := by
  refine .of_steps (fun _ _ h => h) (fun {run d done} hd h => ?_) (fun hd h => ?_)
    (fun hleaves h => hleaves.isLive.trans h) (fun hgive h => ?_)
  · cases d <;> simp only [RunDuty.perform?] at hd <;> (repeat' split at hd) <;> cases hd <;>
      first | exact h | rfl
  · cases hd <;> exact h
  · cases hgive <;> first | exact h | rfl

/-- A closed context stays closed. -/
theorem Run.closed_stable (b : Backend) (r : RunId) :
    Run.Stable b r (fun _ => True) fun run => run.context.isClosed = true := by
  refine .of_steps (fun _ _ h => h) (fun {run d done} hd h => ?_) (fun hd h => ?_)
    (fun hleaves h => hleaves.kept.closed.trans h) (fun hgive h => ?_)
  · cases d <;> simp only [RunDuty.perform?] at hd <;> (repeat' split at hd) <;> cases hd <;>
      first | exact h | exact (Context.isClosed_signal _).trans h | rfl
  · cases hd <;> exact h
  · cases hgive <;> first | exact h | rfl

theorem Run.Abandoned.stable (b : Backend) (r : RunId) :
    Run.Stable b r (fun _ => True) Run.Abandoned where
  starter _ h := ⟨h.silent, h.closed⟩
  duty hA hhead hapt hd h := ⟨(silent_stable b r).duty hA hhead hapt hd h.silent,
    (closed_stable b r).duty hA hhead hapt hd h.closed⟩
  request hd h := ⟨(silent_stable b r).request hd h.silent, (closed_stable b r).request hd h.closed⟩
  thread hA hr horder hds hd h := ⟨(silent_stable b r).thread hA hr horder hds hd h.silent,
    (closed_stable b r).thread hA hr horder hds hd h.closed⟩
  givenUp hgive h := ⟨(silent_stable b r).givenUp hgive h.silent,
    (closed_stable b r).givenUp hgive h.closed⟩

namespace State

variable {b : Backend} {s t : State} {r : RunId} {run : Run} {ds : List Duty}
  {es : List (State × Party)}

/-- A duty of the handler on a run that is done at the end of a path was done on the way. -/
theorem Path.after_duty {d : RunDuty} (h : Path b s es t) (horder : s.Orderly)
    (hs : s.handler = .run r d :: ds) (ht : t.handler.length ≤ ds.length) :
    ∃ es' u run done, Path b u es' t ∧ u.Orderly ∧ d.perform? r run = some done ∧
      u.runs[r]? = some done.run ∧ u.handler = done.next ++ ds := by
  have hne : t.handler ≠ .run r d :: ds := by
    intro heq
    rw [heq, List.length_cons] at ht
    omega
  obtain ⟨es₁, es₂, v, u, hv, hvs, hu, h'⟩ := h.exists_handled horder hs hne
  have hstep := hv.step hu
  obtain ⟨run, done, -, hd, hr, hhandler⟩ := (hv.orderly horder).exists_of_duty hu hvs
  exact ⟨es₂, u, run, done, h', hstep.orderly horder, hd, hr, hhandler⟩

/-- A run is abandoned once the handler has done what it does to abandon it. -/
theorem Path.abandoned (h : Path b s es t) (horder : s.Orderly)
    (hs : s.handler = abandon r ++ ds) (ht : t.handler = ds) :
    ∃ run, t.runs[r]? = some run ∧ run.Abandoned := by
  have hlength (ds' : List Duty) : t.handler.length ≤ (ds' ++ ds).length := by
    rw [ht, List.length_append]
    omega
  obtain ⟨_, _, _, _, h, horder, hd, -, hs⟩ := h.after_duty horder hs (hlength (abandon r).tail)
  obtain rfl := Option.some.inj hd
  obtain ⟨_, _, _, _, h, horder, hd, hr, hs⟩ :=
    h.after_duty horder hs (hlength (abandon r).tail.tail)
  obtain rfl := Option.some.inj hd
  obtain ⟨run, hrun, hsilent⟩ := h.keeps horder (Run.silent_stable b r) hr rfl
  obtain ⟨_, _, _, _, h, horder, hd, hr, -⟩ :=
    h.after_duty horder hs (hlength (abandon r).tail.tail.tail)
  obtain rfl := Option.some.inj hd
  obtain ⟨run', hrun', hclosed⟩ := h.keeps horder (Run.closed_stable b r) hr rfl
  obtain rfl := Option.some.inj (hrun.symm.trans hrun')
  exact ⟨run, hrun, hsilent, hclosed⟩

end State

/-! ## Winding down -/

/-- Whether a thread with this duty has decided on its next statement while the execution was not
abandoned, or is about to. -/
def ThreadDuty.isUnderWay : ThreadDuty → Bool
  | checkStep | checkLine | takePending | readStep _ | readLine _ _ | readTemplate | takeOverrides
  | perform => true
  | _ => false

/-- Whether the thread of run `r` may be about to execute its next statement. -/
def Run.IsUnderWay (r : RunId) (run : Run) : Prop :=
  ∃ d, .thread r d ∈ run.thread ∧ d.isUnderWay = true

/-- How the execution of a run that was abandoned in this state may end once `rest` is left of its
script. -/
inductive Run.MayEnd (b : Backend) (r : RunId) (run : Run) (rest : Script.Program) : Ending → Prop
  | aborted : MayEnd b r run rest aborted
  /-- It was about to end so already. -/
  | ended {ending : Ending} (hmem : .thread r (.conclude ending) ∈ run.thread) :
      MayEnd b r run rest ending
  /-- The script was over. -/
  | over (hrest : rest = []) : MayEnd b r run rest (.outcome (.ok .null))
  /-- The statement that was under way ended the script. -/
  | statement {stmt : Script.Statement} {vars : Json.Fields} {o : Script.Outcome}
      (hrest : run.rest = stmt :: rest) (hperform : stmt.action.perform vars = .over o) :
      MayEnd b r run rest (.outcome o)
  /-- The engine crashed before it asked whether to go on. -/
  | crash {stmt : Script.Statement} {rest' : Script.Program} {c : Crash}
      (hrest : rest = stmt :: rest') (hcrash : b.engine.crashAt? stmt.line = some c) :
      MayEnd b r run rest (.crash c)

/-- Whether a run that was abandoned as `run₀` is now `run`. -/
structure Run.WindsDown (b : Backend) (r : RunId) (run₀ run : Run) : Prop where
  abandoned : run.Abandoned
  /-- At most the statement that was under way was executed. -/
  rest : run.rest = run₀.rest ∧ (run.IsUnderWay r → run₀.IsUnderWay r) ∨
    run₀.IsUnderWay r ∧ ¬run.IsUnderWay r ∧ ∃ stmt, run₀.rest = stmt :: run.rest
  ending {ending : Ending} (hmem : .thread r (.conclude ending) ∈ run.thread) :
    run₀.MayEnd b r run.rest ending

section Steps

variable {b : Backend} {s : State} {r : RunId} {run : Run} {d e : ThreadDuty} {done : Done}

theorem Run.Abandoned.wait? (h : run.Abandoned) :
    run.context.rendezvous.wait? = some (.closed, run.context.rendezvous) := by
  have hclosed : run.context.rendezvous.closed = true := h.closed
  simp [Rendezvous.wait?, hclosed]

theorem mem_stallThen {line : UInt32} {late : Bool}
    (he : .thread r e ∈ stallThen b s r line late d) (hunderWay : e.isUnderWay = true) : e = d := by
  unfold stallThen at he
  split at he
  · rcases List.mem_cons.1 he with heq | he
    · obtain rfl : e = .stall s.releases := by simpa using heq
      cases hunderWay
    · simpa using he
  · simpa using he

/-- A thread that was told not to suspend goes on as if it had not asked. -/
theorem mem_afterCheck {line : UInt32} {suspends : Bool}
    (he : .thread r e ∈ afterCheck b s r line suspends d) (hunderWay : e.isUnderWay = true) :
    suspends = false ∧ e = d := by
  unfold afterCheck at he
  split at he
  · cases mem_stallThen he hunderWay
    cases hunderWay
  next hsuspends => exact ⟨by simpa using hsuspends, by simpa using he⟩

/-- A thread in an abandoned run decides on no other statement. -/
theorem ThreadDuty.isUnderWay_of_mem_next (h : run.Abandoned)
    (hd : d.perform? b s r run = some done) (he : .thread r e ∈ done.next)
    (hunderWay : e.isUnderWay = true) : d.isUnderWay = true ∧ d ≠ .perform := by
  have hend (ending : Ending) := not_thread_mem_endDuties r run ending e
  have hwait := h.wait?
  have hclosed := h.closed
  have hsilent := h.silent
  unfold perform? at hd
  split at hd
  · cases d <;> simp only [performIdle?, hwait, hclosed, hsilent] at hd <;>
      (repeat' split at hd) <;> cases hd <;> simp_all [isUnderWay]
  next stmt _ _ =>
    cases d
    case reach =>
      cases hd
      cases mem_stallThen he hunderWay
      cases hunderWay
    case checkClosed =>
      cases hd
      obtain ⟨hopen, -⟩ := mem_afterCheck he hunderWay
      cases hclosed.symm.trans hopen
    case checkStep | checkLine => exact ⟨rfl, (by simp)⟩
    all_goals
      simp only [performAt?, performIdle?, hwait, hclosed, hsilent] at hd
      (repeat' split at hd) <;> cases hd <;> simp_all [isUnderWay, stopDuties]

/-- How a thread in an abandoned run comes to the end of the execution. -/
theorem ThreadDuty.cases_of_conclude {ending : Ending} (h : run.Abandoned)
    (hd : d.perform? b s r run = some done) (he : .thread r (.conclude ending) ∈ done.next) :
    ending = aborted ∨ ending = .outcome (.ok .null) ∧ done.run.rest = [] ∨
      (d = .perform ∧ ∃ stmt o, run.rest = stmt :: done.run.rest ∧
        stmt.action.perform run.vars = .over o ∧ ending = .outcome o) ∨
      ∃ stmt rest c, done.run.rest = stmt :: rest ∧ b.engine.crashAt? stmt.line = some c ∧
        ending = .crash c := by
  have hend (ending' : Ending) := not_thread_mem_endDuties r run ending' (.conclude ending)
  have hwait := h.wait?
  have hclosed := h.closed
  have hsilent := h.silent
  unfold perform? at hd
  split at hd
  · cases d <;> simp only [performIdle?, hwait, hclosed, hsilent] at hd <;>
      (repeat' split at hd) <;> cases hd <;> simp_all
  next stmt rest hrest =>
    cases d
    case reach =>
      cases hd
      exact absurd he (not_mem_stallThen (by simp) (by simp))
    case checkClosed | checkStep | checkLine =>
      cases hd
      exact absurd he (not_mem_afterCheck (by simp) (by simp) (by simp))
    case perform =>
      simp only [performAt?, hrest] at hd
      split at hd <;> cases hd <;> simp at he
      next o hover =>
        exact .inr (.inr (.inl ⟨rfl, stmt, o, by simpa using hrest, hover, he⟩))
    case enter =>
      cases hd
      simp only at he
      split at he
      next c hcrash =>
        exact .inr (.inr (.inr ⟨stmt, rest, c, hrest, hcrash, by simpa using he⟩))
      · simp at he
    all_goals
      simp only [performAt?, performIdle?, hwait, hclosed, hsilent] at hd
      (repeat' split at hd) <;> cases hd <;> simp_all [stopDuties]

end Steps

namespace Run.WindsDown

variable {b : Backend} {s : State} {r : RunId} {run₀ run run' : Run}

theorem refl (h : run.Abandoned) : run.WindsDown b r run :=
  ⟨h, .inl ⟨rfl, id⟩, fun hmem => .ended hmem⟩

/-- A run goes on to wind down when its thread is given nothing to decide on and no ending. -/
theorem of_run (h : run₀.WindsDown b r run) (habandoned : run'.Abandoned)
    (hrest : run'.rest = run.rest)
    (hthread : ∀ d, .thread r d ∈ run'.thread → .thread r d ∈ run.thread ∨
      d.isUnderWay = false ∧ ∀ ending, d ≠ .conclude ending) : run₀.WindsDown b r run' := by
  have hunderWay : run'.IsUnderWay r → run.IsUnderWay r := by
    rintro ⟨d, hmem, hd⟩
    rcases hthread d hmem with hmem | ⟨hnot, -⟩
    · exact ⟨d, hmem, hd⟩
    · cases hd.symm.trans hnot
  refine ⟨habandoned, ?_, fun {ending} hmem => ?_⟩
  · rw [hrest]
    rcases h.rest with ⟨hsame, hbefore⟩ | ⟨hbefore, hnot, hone⟩
    · exact .inl ⟨hsame, fun hd => hbefore (hunderWay hd)⟩
    · exact .inr ⟨hbefore, fun hd => hnot (hunderWay hd), hone⟩
  · rw [hrest]
    rcases hthread _ hmem with hmem | ⟨-, hnot⟩
    · exact h.ending hmem
    · exact absurd rfl (hnot ending)

/-- The statement that was under way is executed, and no other one will be. -/
theorem of_perform {ds : List Duty} {done : Done} (h : run₀.WindsDown b r run)
    (habandoned : { done.run with thread := done.next ++ done.run.thread }.Abandoned)
    (horder : run.Orderly r ds) (hthread : run.thread = [.thread r .perform])
    (hd : ThreadDuty.perform.perform? b s r { run with thread := [] } = some done) :
    run₀.WindsDown b r { done.run with thread := done.next ++ done.run.thread } := by
  have hnext : done.run.thread = [] := (ThreadDuty.leaves_of_perform? hd).kept.thread
  have hcleared : Run.Abandoned { run with thread := [] } :=
    ⟨h.abandoned.silent, h.abandoned.closed⟩
  have hrest : run.rest ≠ [] := by
    intro hnil
    cases horder.statement hnil .perform (by simp [hthread])
  obtain ⟨stmt, rest, hcons⟩ := List.exists_cons_of_ne_nil hrest
  have htail : done.run.rest = rest := by
    unfold ThreadDuty.perform? at hd
    simp only [hcons, ThreadDuty.performAt?, List.tail_cons] at hd
    split at hd <;> cases hd <;> rfl
  -- The statement was under way, so none was executed before it since the run was abandoned.
  have hunderWay : run.IsUnderWay r := ⟨.perform, by simp [hthread], rfl⟩
  obtain ⟨hsame, hbefore⟩ : run.rest = run₀.rest ∧ run₀.IsUnderWay r := by
    rcases h.rest with ⟨hsame, hbefore⟩ | ⟨-, hnot, -⟩
    · exact ⟨hsame, hbefore hunderWay⟩
    · exact absurd hunderWay hnot
  have hone : run₀.rest = stmt :: done.run.rest := by rw [← hsame, hcons, htail]
  refine ⟨habandoned, .inr ⟨hbefore, ?_, stmt, hone⟩, fun {ending} hmem => ?_⟩
  · rintro ⟨d, hmem, hd'⟩
    simp only [hnext, List.append_nil] at hmem
    exact (ThreadDuty.isUnderWay_of_mem_next hcleared hd hmem hd').2 rfl
  · simp only [hnext, List.append_nil] at hmem
    rcases ThreadDuty.cases_of_conclude hcleared hd hmem with
      rfl | ⟨rfl, hnil⟩ | ⟨-, stmt', o, hstmt', hover, rfl⟩ | ⟨stmt', rest', c, hstmt', hcrash, rfl⟩
    · exact .aborted
    · exact .over hnil
    · exact .statement (hsame.symm.trans hstmt') hover
    · exact .crash hstmt' hcrash

/-- A step of the thread that executes nothing leaves it winding down. -/
theorem of_look {ds : List Duty} {d : ThreadDuty} {done : Done} (h : run₀.WindsDown b r run)
    (habandoned : { done.run with thread := done.next ++ done.run.thread }.Abandoned)
    (hthread : run.thread = .thread r d :: ds) (hperform : d ≠ .perform)
    (hd : d.perform? b s r { run with thread := ds } = some done) :
    run₀.WindsDown b r { done.run with thread := done.next ++ done.run.thread } := by
  have hleaves := ThreadDuty.leaves_of_perform? hd
  have hnext : done.run.thread = ds := hleaves.kept.thread
  have hrest : done.run.rest = run.rest := hleaves.rest hperform
  have hcleared : Run.Abandoned { run with thread := ds } :=
    ⟨h.abandoned.silent, h.abandoned.closed⟩
  have hunderWay : Run.IsUnderWay r { done.run with thread := done.next ++ done.run.thread } →
      run.IsUnderWay r := by
    rintro ⟨e, hmem, he⟩
    simp only [hnext, List.mem_append] at hmem
    rcases hmem with hmem | hmem
    · have hd' := (ThreadDuty.isUnderWay_of_mem_next hcleared hd hmem he).1
      exact ⟨d, by simp [hthread], hd'⟩
    · exact ⟨e, by simp [hthread, hmem], he⟩
  refine ⟨habandoned, ?_, fun {ending} hmem => ?_⟩
  · simp only [hrest]
    rcases h.rest with ⟨hsame, hbefore⟩ | ⟨hbefore, hnot, hone⟩
    · exact .inl ⟨hsame, fun hafter => hbefore (hunderWay hafter)⟩
    · exact .inr ⟨hbefore, fun hafter => hnot (hunderWay hafter), hone⟩
  · simp only [hnext, List.mem_append] at hmem
    rcases hmem with hmem | hmem
    · rcases ThreadDuty.cases_of_conclude hcleared hd hmem with
        rfl | ⟨rfl, hnil⟩ | ⟨heq, -⟩ | ⟨stmt, rest, c, hstmt, hcrash, rfl⟩
      · exact .aborted
      · exact .over hnil
      · exact absurd heq hperform
      · exact .crash hstmt hcrash
    · simp only [hrest]
      exact h.ending (by simp [hthread, hmem])

theorem of_thread {hs ds : List Duty} {e : Duty} {done : Done} (h : run₀.WindsDown b r run)
    (habandoned : { done.run with thread := done.next ++ done.run.thread }.Abandoned)
    (horder : run.Orderly r hs) (hthread : run.thread = e :: ds)
    (hd : e.stroke? b s r { run with thread := ds } = some done) :
    run₀.WindsDown b r { done.run with thread := done.next ++ done.run.thread } := by
  have hplan := horder.thread
  rw [hthread] at hplan
  generalize decide (run.lock = some (.thread r)) = holds at hplan
  obtain ⟨d, rfl⟩ | ⟨d, rfl⟩ := hplan.head_cases
  · -- What the thread does to its run is to send, to unlock or to end it.
    obtain ⟨hrest, hkept⟩ : done.run.rest = run.rest ∧
        ∀ d', .thread r d' ∈ done.next ++ done.run.thread → .thread r d' ∈ ds := by
      cases hplan <;> simp only [Duty.stroke?, RunDuty.perform?] at hd <;>
        (repeat' split at hd) <;> cases hd <;> simp
    exact h.of_run habandoned hrest fun d' hmem => .inl (by simp [hthread, hkept d' hmem])
  · by_cases hperform : d = .perform
    · subst hperform
      obtain rfl : ds = [] := by
        cases hplan
        rfl
      exact h.of_perform habandoned horder hthread hd
    · exact h.of_look habandoned hthread hperform hd

/-- A run that was abandoned winds down, whoever takes which steps. -/
theorem stable (b : Backend) (r : RunId) (run₀ : Run) :
    Run.Stable b r (fun _ => True) (run₀.WindsDown b r) where
  starter ds h := h.of_run ((Run.Abandoned.stable b r).starter ds h.abandoned) rfl
    fun _ hmem => .inl hmem
  duty {s p run d done} hA hhead hapt hd h := by
    have habandoned := (Run.Abandoned.stable b r).duty hA hhead hapt hd h.abandoned
    refine h.of_run habandoned ?_ ?_
    all_goals
      cases d <;> simp only [RunDuty.perform?] at hd <;> (repeat' split at hd) <;> cases hd <;>
        simp +contextual [ThreadDuty.isUnderWay]
  request {run d done} hd h := by
    have habandoned := (Run.Abandoned.stable b r).request hd h.abandoned
    refine h.of_run habandoned ?_ ?_ <;> cases hd <;> simp +contextual
  thread hA hr horder hthread hd h :=
    h.of_thread ((Run.Abandoned.stable b r).thread hA hr horder hthread hd h.abandoned) horder
      hthread hd
  givenUp {run run'} hgive h := by
    have habandoned := (Run.Abandoned.stable b r).givenUp hgive h.abandoned
    refine h.of_run habandoned ?_ ?_ <;> cases hgive <;> simp +contextual

end Run.WindsDown

/-! ## Locks of the handler -/

theorem SessionDuty.unlock_not_mem {b : Backend} {s : State} {d : SessionDuty} {r : RunId} :
    .run r .unlock ∉ (d.perform b s).2 := by
  intro hm
  cases assigned_of_mem_perform hm rfl with
  | opening _ hd => simp at hd
  | giveUp hd => simp [abandon] at hd

/-- Whether an agenda of the handler begins with the release of a lock, if it has one : nothing that
the handler may have to wait for comes before. -/
def ReleasesFirst (hs : List Duty) : Prop :=
  ∀ r, .run r .unlock ∈ hs → hs.head? = some (.run r .unlock) ∨
    ∃ on ds, hs = .run r (.setStepMode on) :: .run r .unlock :: ds

namespace State

variable {b : Backend} {s t : State} {p : Party} {r : RunId} {run : Run}

theorem Stride.releasesFirst (hst : s.Stride b t p) (horder : s.Orderly)
    (h : ReleasesFirst s.handler) : ReleasesFirst t.handler := by
  cases hst with
  | @session d ds hs ht =>
    intro r hmem
    simp only [ht, List.mem_append] at hmem
    rcases hmem with hmem | hmem
    · exact absurd hmem SessionDuty.unlock_not_mem
    · rcases h r (by simp [hs, hmem]) with hhead | ⟨on, ds', heq⟩
      · simp [hs] at hhead
      · cases hs.symm.trans heq
  | @handler r' run' d ds done hs hsub hr hd ht =>
    have hplan := horder.handler
    rw [hs] at hplan
    have hown : d.BelongsTo .handler := horder.belongsTo hs
    intro r hmem
    simp only [ht, List.mem_append] at hmem ⊢
    cases d with
    | session d => cases hd
    | starter _ d | thread _ d => exact hown.elim
    | run _ d =>
      have hnext : .run r .unlock ∉ done.next := by
        cases d <;> simp only [Duty.stroke?, RunDuty.perform?] at hd <;> (repeat' split at hd) <;>
          cases hd <;> simp
      have hds : .run r .unlock ∈ ds := hmem.resolve_left hnext
      rcases h r (by simp [hs, hds]) with hhead | ⟨on, ds', heq⟩
      · obtain ⟨rfl, rfl⟩ : _ = r ∧ d = .unlock := by simpa [hs] using hhead
        exact absurd hds (hplan.1.2 _)
      · obtain ⟨hduty, rfl⟩ := List.cons.inj (hs.symm.trans heq)
        obtain ⟨rfl, rfl⟩ := Duty.run.inj hduty
        obtain rfl := Option.some.inj hd
        exact .inl rfl
    | request _ d =>
      obtain rfl : ds = [] := hplan.1
      simp only [List.not_mem_nil, or_false, List.append_nil] at hmem ⊢
      cases RequestDuty.leads_of_perform? hd with
      | look _ hnext | assign _ _ hnext => exact absurd hmem (not_mem_of_isAside hnext _ _)
      | start | release => simp [answer] at hmem
      | skip | pause =>
        obtain rfl : r = r' := by simpa [answer] using hmem
        exact .inr ⟨_, _, rfl⟩
  | starter _ _ _ ht | thread _ _ _ ht =>
    rw [ht]
    exact h

theorem Path.releasesFirst {es : List (State × Party)} (h : Path b {} es s) :
    ReleasesFirst s.handler := by
  induction h with
  | refl => exact fun _ hmem => by simp at hmem
  | step hpath hp ih =>
    have horder := hpath.orderly orderly_empty
    exact (horder.stride hp).releasesFirst horder ih
  | @accept es t i _ hi ih =>
    cases i with
    | request | hangUp =>
      have hnil : t.handler = [] := hi
      intro r hmem
      simp [State.accept, hnil] at hmem
    | elapse | release => exact ih
  | giveUp _ _ _ ih => exact ih

/-- A handler that cannot go on is not about to release the lock of a run. -/
theorem Path.unlock_not_mem {es : List (State × Party)} (h : Path b {} es s)
    (hr : s.runs[r]? = some run) (hnone : s.advance? b .handler = none) :
    .run r .unlock ∉ s.handler := by
  intro hmem
  rcases h.releasesFirst r hmem with hhead | ⟨on, ds, hs⟩
  · obtain ⟨ds, hs⟩ : ∃ ds, s.handler = .run r .unlock :: ds := by
      cases hds : s.handler with
      | nil => simp [hds] at hmem
      | cons d ds => exact ⟨ds, by simpa [hds] using hhead⟩
    simp [advance?, agenda, hs, Duty.perform?, onRun, setAgenda, hr, RunDuty.perform?] at hnone
  · simp [advance?, agenda, hs, Duty.perform?, onRun, setAgenda, hr, RunDuty.perform?] at hnone

end State

/-! ## The end of an abandoned run -/

namespace State

variable {b : Backend} {s t : State} {es : List (State × Party)} {r : RunId} {run : Run}

/-- Nothing is queued on behalf of a run that is not live. -/
theorem Path.queuedBy_eq_nil (h : Path b s es t) (horder : s.Orderly) (hr : s.runs[r]? = some run)
    (hsilent : run.isLive = false) : queuedBy b r es = [] := by
  induction h with
  | refl => rfl
  | @step es t u p hpath hp ih =>
    obtain ⟨run', hr', hsilent'⟩ := hpath.keeps horder (Run.silent_stable b r) hr hsilent
    rw [queuedBy_append, ih, queuedBy_singleton]
    cases hagenda : t.agenda p with
    | nil => simp [advance?, hagenda] at hp
    | cons d ds =>
      rw [(hpath.orderly horder).queuedIn_eq hp hagenda hr', Duty.sends_eq_nil hsilent']
      simp
  | accept _ _ _ ih => exact ih
  | giveUp _ _ _ ih => exact ih

/-- A thread that waits in an abandoned run is told to abort. -/
theorem Path.aborts_of_isParked (h : Path b {} es s) (hr : s.runs[r]? = some run)
    (habandoned : run.Abandoned) (hparked : run.IsParked r) :
    ∃ t, s.advance? b (.thread r) = some t ∧
      t.runs[r]? = some { run with thread := [.thread r (.conclude aborted)] } := by
  obtain ⟨ds, hthread⟩ := hparked
  have horder := h.orderly orderly_empty
  have hplan := (horder.runs hr).thread
  rw [hthread] at hplan
  generalize decide (run.lock = some (.thread r)) = holds at hplan
  obtain rfl : ds = [] := by
    cases hplan
    rfl
  have hagenda : s.agenda (.thread r) = [.thread r .park] := by simp [agenda, hr, hthread]
  cases hp : s.advance? b (.thread r) with
  | none =>
    have hstroke := stroke?_of_advance?_none horder hr hthread hp
    rcases ThreadDuty.cases_of_blocked hstroke with ⟨hlock, -⟩ | ⟨-, hwait⟩ | ⟨since, hstall⟩
    · cases hlock
    · cases habandoned.wait?.symm.trans hwait
    · cases hstall
  | some t =>
    refine ⟨t, rfl, ?_⟩
    cases horder.stride hp with
    | @thread _ run' d ds' done hs hr' hd ht =>
      obtain rfl := Option.some.inj (hr.symm.trans hr')
      obtain ⟨rfl, rfl⟩ := List.cons.inj (hthread.symm.trans hs)
      have hlt : r < s.runs.length := (List.getElem?_eq_some_iff.1 hr).1
      rcases ThreadDuty.cases_of_park hd with ⟨_, hwait, -⟩ | ⟨-, rfl⟩
      · cases habandoned.wait?.symm.trans hwait
      · rw [ht]
        simp [setRun, send, hlt]

end State

/-- Once the handler has abandoned a run, whoever takes which steps : no event of the run is queued
any more; a thread that is parked leaves to abort; a run that was not started executes no statement;
any other executes at most the one that was under way, and ends as abandoned or as that statement,
the end of the script or a crash of the engine has it; and its thread is not kept from its end,
unless the engine stalls. -/
theorem abandoned_run_ends {b : Backend} {es es' es'' : List (State × Party)} {s t u : State}
    {r : RunId} {ds : List Duty} (h : State.Path b {} es s) (hs : s.handler = abandon r ++ ds)
    (h' : State.Path b s es' t) (ht : t.handler = ds) (h'' : State.Path b t es'' u) :
    ∃ run run', t.runs[r]? = some run ∧ u.runs[r]? = some run' ∧
      queuedBy b r es'' = [] ∧
      (run'.IsParked r → ∃ v, u.advance? b (.thread r) = some v ∧
        v.runs[r]? = some { run' with thread := [.thread r (.conclude aborted)] }) ∧
      (run.started = false → run'.rest = run.rest) ∧
      (run'.rest = run.rest ∨ run.IsUnderWay r ∧ ∃ stmt, run.rest = stmt :: run'.rest) ∧
      (∀ ending, .thread r (.conclude ending) ∈ run'.thread → run.MayEnd b r run'.rest ending) ∧
      (u.advance? b .handler = none → u.advance? b (.thread r) = none →
        run'.thread = [] ∨ ∃ since, .thread r (.stall since) ∈ run'.thread) := by
  have horder := h.orderly State.orderly_empty
  obtain ⟨run, hr, habandoned⟩ := h'.abandoned horder hs ht
  have horder' := h'.orderly horder
  obtain ⟨run', hr', hwinds⟩ :=
    h''.keeps horder' (Run.WindsDown.stable b r run) hr (.refl habandoned)
  have hpath := (h.trans h').trans h''
  refine ⟨run, run', hr, hr', h''.queuedBy_eq_nil horder' hr habandoned.silent,
    hpath.aborts_of_isParked hr' hwinds.abandoned, fun hstarted => ?_, ?_,
    fun _ => hwinds.ending, fun hhandler hthread => ?_⟩
  · rcases hwinds.rest with ⟨hrest, -⟩ | ⟨⟨d, hmem, -⟩, -⟩
    · exact hrest
    · simp [((horder'.runs hr).unstarted hstarted).1] at hmem
  · rcases hwinds.rest with ⟨hrest, -⟩ | ⟨hunderWay, -, hone⟩
    · exact .inl hrest
    · exact .inr ⟨hunderWay, hone⟩
  · rcases hpath.cases_of_blocked hr' (hpath.unlock_not_mem hr' hhandler) hthread with
      hnil | ⟨-, hwait⟩ | hstall
    · exact .inl hnil
    · cases hwinds.abandoned.wait?.symm.trans hwait
    · exact .inr hstall

/-- A backend with one script of two statements, which is started at once. -/
def assignBackend : Backend where
  library := .table [("a", ⟨"x = 1\nreturn x", "a", {}⟩)]
  settings := { startTimeout := 0 }
  crashText := ""

/-- Whether the handler is about to abandon run 0, and then to clear the registry. -/
def State.isAbandoning (s : State) : Bool :=
  match s.handler with
  | [.run 0 .cancel, .run 0 .closeGate, .run 0 .closeContext, .run 0 (.setPhase .terminated),
      .session .clearRegistry] => true
  | _ => false

/-- Whether the handler only is about to clear the registry. -/
def State.isClearing (s : State) : Bool :=
  match s.handler with
  | [.session .clearRegistry] => true
  | _ => false

theorem State.handler_of_isAbandoning {s : State} (h : s.isAbandoning = true) :
    s.handler = abandon 0 ++ [.session .clearRegistry] := by
  unfold isAbandoning at h
  split at h
  · assumption
  · cases h

theorem State.handler_of_isClearing {s : State} (h : s.isClearing = true) :
    s.handler = [.session .clearRegistry] := by
  unfold isClearing at h
  split at h
  · assumption
  · cases h

open State (asked taken) in
/-- A script that is about to execute its first statement is terminated. -/
def terminateOnce : List State.Turn :=
  asked "launch" (.object [("path", .string "a")]) :: taken 6 .handler ++ taken 10 (.starter 0) ++
    taken 6 (.thread 0) ++ asked "terminate" .null :: taken 4 .handler

open State (taken) in
/-- A script that was terminated executes a statement, and aborts. -/
theorem abandoned_run_ends_terminateOnce : ∃ es t es' u run run',
    State.Path assignBackend {} es t ∧ State.Path assignBackend t es' u ∧
      t.runs[0]? = some run ∧ u.runs[0]? = some run' ∧ run.rest.length = 2 ∧
      (∃ stmt, run.rest = stmt :: run'.rest) ∧ queuedBy assignBackend 0 es' = [] ∧
      run'.thread = [] := by
  have hwalk : (({} : State).walk? assignBackend terminateOnce).any (fun w => w.2.isAbandoning &&
      (w.2.walk? assignBackend (taken 4 .handler)).any fun w₁ => w₁.2.isClearing &&
        w₁.2.runs[0]?.any (fun run => run.rest.length == 2) &&
        (w₁.2.walk? assignBackend (taken 1 .handler ++ taken 8 (.thread 0))).any fun w₂ =>
          (w₂.2.advance? assignBackend .handler).isNone &&
            (w₂.2.advance? assignBackend (.thread 0)).isNone &&
            w₂.2.runs[0]?.any fun run => run.rest.length == 1 && run.thread.isEmpty) = true := by
    decide +kernel
  obtain ⟨⟨es, s⟩, hw, hfacts⟩ := (Option.any_eq_true ..).1 hwalk
  simp only [Bool.and_eq_true] at hfacts
  obtain ⟨habandoning, hfacts⟩ := hfacts
  obtain ⟨⟨es₁, t⟩, hw₁, hfacts⟩ := (Option.any_eq_true ..).1 hfacts
  simp only [Bool.and_eq_true] at hfacts
  obtain ⟨⟨hclearing, hbefore⟩, hfacts⟩ := hfacts
  obtain ⟨⟨es₂, u⟩, hw₂, hfacts⟩ := (Option.any_eq_true ..).1 hfacts
  simp only [Bool.and_eq_true, Option.isNone_iff_eq_none] at hfacts
  obtain ⟨⟨hhandler, hthread⟩, hafter⟩ := hfacts
  have hs : State.Path assignBackend {} es s := State.Path.refl.walk hw
  have ht : State.Path assignBackend s es₁ t := State.Path.refl.walk hw₁
  have hu : State.Path assignBackend t es₂ u := State.Path.refl.walk hw₂
  obtain ⟨run, run', hr, hr', hsilent, -, -, hrest, -, hend⟩ := abandoned_run_ends hs
    (State.handler_of_isAbandoning habandoning) ht (State.handler_of_isClearing hclearing) hu
  simp only [hr, Option.any_some, beq_iff_eq] at hbefore
  simp only [hr', Option.any_some, Bool.and_eq_true, beq_iff_eq, List.isEmpty_iff] at hafter
  refine ⟨_, t, es₂, u, run, run', hs.trans ht, hu, hr, hr', hbefore, ?_, hsilent, ?_⟩
  · rcases hrest with hsame | ⟨-, hone⟩
    · rw [hsame, hbefore] at hafter
      cases hafter.1
    · exact hone
  · rcases hend hhandler hthread with hnil | ⟨since, hstall⟩
    · exact hnil
    · simp [hafter.2] at hstall

end DebugAdapter.Session
