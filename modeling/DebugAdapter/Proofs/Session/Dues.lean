import DebugAdapter.Proofs.Session.Queued
/-!
# What is to be done about a run

The duties of all parties that are about one run, taken together, are its dues (`State.dues`). A
step on the run pays one of them and leaves what comes next; any other step leaves the run and its
dues alone, unless it gives the handler something to do about the run (`State.Spends`,
`State.Orderly.spends`). So the dues of a kind can be counted along a path, whoever has them.
-/

namespace DebugAdapter.Session

/-- Whether a duty is about run `r`. -/
def Duty.isAbout (r : RunId) (d : Duty) : Bool :=
  d.subject? == some r

/-- What the parties have to do about run `r`. -/
def State.dues (s : State) (r : RunId) : List Duty :=
  s.handler.filter (Duty.isAbout r) ++ (s.agenda (.starter r) ++ s.agenda (.thread r))

/-- What a duty gives a party to do that had nothing to do. -/
def Duty.wakes (run : Run) : Duty → List Duty
  | .run r .spawn => [.run r (.emit (startNote run.clientPath run.key)), .thread r .reach]
  | .run r .schedule => [.starter r .begin]
  | _ => []

/-- A run whose parties have nothing to do. -/
def Run.idle (run : Run) : Run :=
  { run with starter := [], thread := [] }

/-- What a step makes of run `r` and of its dues. -/
inductive State.Spends (b : Backend) (s t : State) (p : Party) (r : RunId) : Prop where
  /-- The step is on the run. -/
  | own {run run₀ run' : Run} {d : Duty} {ds : List Duty} {done : Done}
      (hagenda : s.agenda p = d :: ds) (hsub : d.subject? = some r)
      (hr : s.runs[r]? = some run) (hr' : t.runs[r]? = some run') (hrun : run₀.idle = run.idle)
      (hd : d.stroke? b s r run₀ = some done) (hrun' : run'.idle = done.run.idle)
      (hdues : (d :: t.dues r).Perm
        (d.wakes run₀ ++ done.next.filter (Duty.isAbout r) ++ s.dues r)) : Spends b s t p r
  /-- The step is on another run. -/
  | other {d : Duty} {ds : List Duty} (hagenda : s.agenda p = d :: ds)
      (hsub : d.subject? ≠ some r) (hr : t.runs[r]? = s.runs[r]?) (hdues : t.dues r = s.dues r) :
      Spends b s t p r
  /-- The step is on the session. -/
  | session {d : SessionDuty} {ds : List Duty} (hagenda : s.agenda p = .session d :: ds)
      (hr : t.runs[r]? = s.runs[r]? ∨
        s.runs[r]? = none ∧ ∃ (s' : State) (run : Run), s'.Opens b run ∧ t.runs[r]? = some run)
      (hdues : t.dues r =
        (d.perform b { s with handler := ds }).2.filter (Duty.isAbout r) ++ s.dues r) :
      Spends b s t p r

/-! ## Dues -/

theorem Duty.isAbout_iff {r : RunId} {d : Duty} : d.isAbout r = true ↔ d.subject? = some r :=
  beq_iff_eq

theorem Duty.isAbout_eq_false {r : RunId} {d : Duty} : d.isAbout r = false ↔ d.subject? ≠ some r :=
  beq_eq_false_iff_ne

@[simp] theorem Duty.isAbout_session (r : RunId) (d : SessionDuty) :
    (Duty.session d).isAbout r = false := rfl

theorem State.dues_congr {s t : State} {r : RunId} (hhandler : t.handler = s.handler)
    (hrun : t.runs[r]? = s.runs[r]?) : t.dues r = s.dues r := by
  simp only [dues, agenda, hhandler, hrun]

theorem State.dues_accept {s : State} {i : Input} (hi : s.Admits i) (r : RunId) :
    (s.accept i).dues r = s.dues r := by
  cases i with
  | request | hangUp =>
    have hnil : s.handler = [] := hi
    simp [dues, accept, agenda, hnil]
  | elapse | release => rfl

/-- Giving up a run leaves its dues alone. -/
theorem State.dues_setRun {s : State} {r r' : RunId} {run run' : Run} (hr : s.runs[r]? = some run)
    (hstarter : run'.starter = run.starter) (hthread : run'.thread = run.thread) :
    (s.setRun r run').dues r' = s.dues r' := by
  obtain ⟨hlt, rfl⟩ := List.getElem?_eq_some_iff.1 hr
  by_cases heq : r = r'
  · subst heq
    simp [dues, setRun, agenda, hlt, hstarter, hthread]
  · simp [dues, setRun, agenda, heq]

/-- The dues of a run there is. -/
theorem State.dues_of_run {s : State} {r : RunId} {run : Run} (hr : s.runs[r]? = some run) :
    s.dues r = s.handler.filter (Duty.isAbout r) ++ (run.starter ++ run.thread) := by
  simp [dues, agenda, hr]

/-! ## Steps -/

variable {b : Backend} {s t : State} {p : Party} {r : RunId} {run : Run}

/-- The agendas of the parties of a run change only by what a duty gives them to do. -/
theorem Duty.agendas_of_stroke? {d : Duty} {done : Done} (hsub : d.subject? = some r)
    (hd : d.stroke? b s r run = some done) (hspawn : d = .run r .spawn → run.thread = [])
    (hschedule : d = .run r .schedule → run.starter = []) :
    (done.run.starter ++ done.run.thread).Perm
      (d.wakes run ++ (run.starter ++ run.thread)) := by
  cases d with
  | session d => cases hd
  | starter r' d =>
    obtain ⟨hdone, -, -⟩ := StarterDuty.plan_of_perform? hd
    rw [hdone]
    exact .refl _
  | request r' d =>
    cases RequestDuty.leads_of_perform? hd <;> exact .refl _
  | thread r' d =>
    have hkept := (ThreadDuty.leaves_of_perform? hd).kept
    rw [hkept.starter, hkept.thread]
    exact .refl _
  | run r' d =>
    obtain rfl : r' = r := Option.some.inj hsub
    cases d <;> simp only [stroke?, RunDuty.perform?] at hd <;> (repeat' split at hd) <;> cases hd
    case run.spawn.refl =>
      rw [hspawn rfl, List.append_nil]
      exact List.perm_append_comm
    case run.schedule.refl => simp [wakes, hschedule rfl]
    all_goals exact .refl _

theorem StarterPlan.isAbout {ds : List Duty} (h : StarterPlan r ds) :
    ∀ d ∈ ds, d.isAbout r = true := by
  cases h <;> simp [Duty.isAbout, Duty.subject?]

theorem ThreadPlan.isAbout {holds : Bool} {ds : List Duty} (h : ThreadPlan r holds ds) :
    ∀ d ∈ ds, d.isAbout r = true := by
  induction h with
  | emit _ _ ih | unlock _ ih => simpa [Duty.isAbout, Duty.subject?] using ih
  | _ => simp [Duty.isAbout, Duty.subject?, publication]

/-- A duty that is done is paid, whoever had it. -/
theorem perm_of_paid {d : Duty} (hs : List Duty) {ds ds' wakes next dues dues' : List Duty}
    (hagendas : ds'.Perm (wakes ++ ds)) (hdues : dues.Perm (d :: (hs ++ ds)))
    (hdues' : dues'.Perm (next ++ (hs ++ ds'))) : (d :: dues').Perm (wakes ++ next ++ dues) := by
  classical
  refine List.perm_iff_count.2 fun e => ?_
  have hagendas := hagendas.count_eq e
  have hdues := hdues.count_eq e
  have hdues' := hdues'.count_eq e
  simp only [List.count_append, List.count_cons] at hagendas hdues hdues' ⊢
  omega

namespace State

theorem spends_of_session {d : SessionDuty} {ds : List Duty}
    (hs : s.handler = .session d :: ds)
    (ht : t = { (d.perform b { s with handler := ds }).1 with
      handler := (d.perform b { s with handler := ds }).2 ++ ds }) (r : RunId) :
    s.Spends b t .handler r := by
  subst ht
  rcases d.runs_cases b { s with handler := ds } with hruns | ⟨run, hopens, hruns⟩
  · refine .session hs (.inl (by simp [hruns])) ?_
    simp [dues, agenda, hruns, hs]
  by_cases hlt : r < s.runs.length
  · have hget : (s.runs ++ [run])[r]? = s.runs[r]? := List.getElem?_append_left hlt
    refine .session hs (.inl (by simp [hruns, hget])) ?_
    simp [dues, agenda, hruns, hs, hget]
  · have hnone : s.runs[r]? = none := List.getElem?_eq_none (Nat.le_of_not_lt hlt)
    cases hget : (s.runs ++ [run])[r]? with
    | none =>
      refine .session hs (.inl (by simp [hruns, hget, hnone])) ?_
      simp [dues, agenda, hruns, hs, hget, hnone]
    | some run' =>
      obtain rfl : run' = run := by
        rw [List.getElem?_append_right (Nat.le_of_not_lt hlt)] at hget
        simpa using List.mem_of_getElem? hget
      refine .session hs (.inr ⟨hnone, _, run', hopens, by simp [hruns, hget]⟩) ?_
      cases hopens
      simp [dues, agenda, hruns, hs, hget, hnone]

/-- Whoever takes a step, it pays its duty on a run, or leaves the run alone. -/
theorem Orderly.spends (horder : s.Orderly) (hp : s.advance? b p = some t) (r : RunId) :
    s.Spends b t p r := by
  have hst := horder.stride hp
  have horder' := horder.of_stride hst
  cases hst with
  | session hs ht => exact spends_of_session hs ht r
  | @handler r' run d ds done hs hsub hr hd ht =>
    have hlt : r' < s.runs.length := (List.getElem?_eq_some_iff.1 hr).1
    by_cases heq : r' = r
    case neg =>
      have hne : d.isAbout r = false := Duty.isAbout_eq_false.2 (by simpa [hsub] using heq)
      have hnext : done.next.filter (Duty.isAbout r) = [] := by
        refine List.filter_eq_nil_iff.2 fun e he habout => ?_
        exact Duty.subject_ne_of_mem_next (horder.belongsTo hs) hd heq he
          (Duty.isAbout_iff.1 habout)
      refine .other hs (Duty.isAbout_eq_false.1 hne) (by simp [ht, setRun, send, heq]) ?_
      simp [ht, dues, agenda, setRun, send, heq, hs, hne, hnext]
    subst heq
    have hr' : t.runs[r']? = some done.run := by simp [ht, setRun, send, hlt]
    have hrun := horder.runs hr
    rw [hs] at hrun
    have hagendas := Duty.agendas_of_stroke? hsub hd
      (fun h => hrun.spawned (.inl (by simp [h]))) (fun h => (hrun.scheduled (by simp [h])).2)
    refine .own hs hsub hr hr' rfl hd rfl
      (perm_of_paid (ds.filter (Duty.isAbout r')) hagendas ?_ ?_)
    · rw [dues_of_run hr, hs, List.filter_cons_of_pos (Duty.isAbout_iff.2 hsub)]
      exact .refl _
    · rw [dues_of_run hr', ht, List.filter_append, List.append_assoc]
  | @starter r' run d ds done hs hr hd ht =>
    have hlt : r' < s.runs.length := (List.getElem?_eq_some_iff.1 hr).1
    have hagenda : s.agenda (.starter r') = d :: ds := by simp [agenda, hr, hs]
    have hsub : d.subject? = some r' := Duty.subject_of_belongsTo (.inl (horder.belongsTo hagenda))
    by_cases heq : r' = r
    case neg =>
      have hsame : t.runs[r]? = s.runs[r]? := by simp [ht, setRun, send, heq]
      exact .other hagenda (by simpa [hsub] using heq) hsame (dues_congr (by rw [ht]; rfl) hsame)
    subst heq
    have hr' : t.runs[r']? = some { done.run with starter := done.next ++ done.run.starter } := by
      simp [ht, setRun, send, hlt]
    have hnext : done.next.filter (Duty.isAbout r') = done.next :=
      List.filter_eq_self.2 fun e he => (horder'.runs hr').starter.isAbout e (by simp [he])
    have hplan := (horder.runs hr).starter
    rw [hs] at hplan
    have hagendas := Duty.agendas_of_stroke? hsub hd
      (fun h => (horder.runs hr).spawned (.inr (by simp [hs, h])))
      (fun h => by subst h; cases hplan)
    have hidle : ({ run with starter := ds } : Run).idle = run.idle := rfl
    refine .own hagenda hsub hr hr' hidle hd rfl
      (perm_of_paid (s.handler.filter (Duty.isAbout r')) hagendas ?_ ?_)
    · rw [dues_of_run hr, hs]
      exact List.perm_middle
    · rw [dues_of_run hr', hnext, ht]
      simpa [setRun, send] using List.perm_append_comm_assoc
        (s.handler.filter (Duty.isAbout r')) done.next (done.run.starter ++ done.run.thread)
  | @thread r' run d ds done hs hr hd ht =>
    have hlt : r' < s.runs.length := (List.getElem?_eq_some_iff.1 hr).1
    have hagenda : s.agenda (.thread r') = d :: ds := by simp [agenda, hr, hs]
    have hsub : d.subject? = some r' := Duty.subject_of_belongsTo (.inr (horder.belongsTo hagenda))
    by_cases heq : r' = r
    case neg =>
      have hsame : t.runs[r]? = s.runs[r]? := by simp [ht, setRun, send, heq]
      exact .other hagenda (by simpa [hsub] using heq) hsame (dues_congr (by rw [ht]; rfl) hsame)
    subst heq
    have hr' : t.runs[r']? = some { done.run with thread := done.next ++ done.run.thread } := by
      simp [ht, setRun, send, hlt]
    have hnext : done.next.filter (Duty.isAbout r') = done.next :=
      List.filter_eq_self.2 fun e he => (horder'.runs hr').thread.isAbout e (by simp [he])
    have hplan := (horder.runs hr).thread
    rw [hs] at hplan
    generalize decide (run.lock = some (.thread r')) = holds at hplan
    have hagendas := Duty.agendas_of_stroke? hsub hd
      (fun h => by subst h; cases hplan) (fun h => by subst h; cases hplan)
    have hidle : ({ run with thread := ds } : Run).idle = run.idle := rfl
    refine .own hagenda hsub hr hr' hidle hd rfl
      (perm_of_paid (s.handler.filter (Duty.isAbout r')) hagendas ?_ ?_)
    · rw [dues_of_run hr, hs, ← List.append_assoc, ← List.append_assoc]
      exact List.perm_middle
    · rw [dues_of_run hr', hnext, ht]
      simpa [setRun, send] using List.perm_append_comm_assoc
        (s.handler.filter (Duty.isAbout r') ++ done.run.starter) done.next done.run.thread

end State

end DebugAdapter.Session
