import DebugAdapter.Proofs.Session.Order
/-!
# How a run fares

What a step of anybody makes of one run, and of what the handler has to do (`Run.Fares`). A run that
there was is not taken away (`State.Stride.fares`), and a run that there was not is opened by the
step (`State.Stride.exists_opens`).
-/

namespace DebugAdapter.Session

variable {b : Backend} {s t : State} {p : Party} {r : RunId} {run run' : Run} {done : Done}

/-- What a step of a party in state `s` makes of the run `run`, which is run `r`, and of what the
handler has to do. -/
inductive Run.Fares (b : Backend) (s : State) (r : RunId) (run : Run) :
    Party → Run → List Duty → Prop where
  /-- The handler does something about the session or about another run. -/
  | aside {d : Duty} {ds next : List Duty} (hs : s.handler = d :: ds) (hsub : d.subject? ≠ some r)
      (hnext : ∀ e ∈ next, e.subject? = some r → e.Assigned s.runs.length r) :
      Fares b s r run .handler run (next ++ ds)
  | duty {d : RunDuty} {ds : List Duty} {done : Done} (hs : s.handler = .run r d :: ds)
      (hplan : (Duty.run r d).Precedes ds) (hd : d.perform? r run = some done) :
      Fares b s r run .handler done.run (done.next ++ ds)
  | request {d : RequestDuty} {done : Done} (hs : s.handler = [.request r d])
      (hd : d.Leads r run done) : Fares b s r run .handler done.run done.next
  | starts {d : RunDuty} {ds : List Duty} {done : Done} (hs : run.starter = .run r d :: ds)
      (hd : d.perform? r { run with starter := ds } = some done) :
      Fares b s r run (.starter r) { done.run with starter := done.next ++ done.run.starter }
        s.handler
  | waits {starter : List Duty} (hspawn : .run r .spawn ∈ starter ↔ .run r .spawn ∈ run.starter) :
      Fares b s r run (.starter r) { run with starter } s.handler
  | tells {d : RunDuty} {ds : List Duty} {done : Done} (hs : run.thread = .run r d :: ds)
      (hd : d.perform? r { run with thread := ds } = some done) :
      Fares b s r run (.thread r) { done.run with thread := done.next ++ done.run.thread } s.handler
  | works {d : ThreadDuty} {ds : List Duty} {done : Done} (hs : run.thread = .thread r d :: ds)
      (hd : d.perform? b s r { run with thread := ds } = some done) :
      Fares b s r run (.thread r) { done.run with thread := done.next ++ done.run.thread } s.handler
  /-- The starter or the thread of another run does something. -/
  | away {p : Party} (hp : p ≠ .handler) : Fares b s r run p run s.handler

/-- A step of anybody makes of a run what it may. -/
theorem State.Stride.fares (hst : s.Stride b t p) (horder : s.Orderly)
    (hr : s.runs[r]? = some run) :
    ∃ run', t.runs[r]? = some run' ∧ run.Fares b s r p run' t.handler := by
  have hlt : r < s.runs.length := (List.getElem?_eq_some_iff.1 hr).1
  cases hst with
  | @session d ds hs ht =>
    refine ⟨run, ?_, ?_⟩
    · rw [ht]
      rcases d.runs_cases b { s with handler := ds } with hruns | ⟨_, -, hruns⟩
      · simpa [hruns] using hr
      · simpa [hruns, List.getElem?_append_left hlt] using hr
    · rw [ht]
      exact .aside hs (by simp [Duty.subject?]) fun e he hsub =>
        SessionDuty.assigned_of_mem_perform (s := { s with handler := ds }) he hsub
  | @handler r₀ run₀ d ds done hs hsub hr₀ hd ht =>
    have hown : d.BelongsTo .handler := horder.belongsTo hs
    have hplan := horder.handler
    rw [hs] at hplan
    by_cases heq : r₀ = r
    · subst heq
      obtain rfl := Option.some.inj (hr.symm.trans hr₀)
      refine ⟨done.run, by simp [ht, setRun, send, hlt], ?_⟩
      rw [ht]
      cases d with
      | session d => cases hd
      | starter _ d | thread _ d => exact hown.elim
      | run _ d =>
        cases hsub
        exact .duty hs hplan.1 hd
      | request _ d =>
        cases hsub
        obtain rfl : ds = [] := hplan.1
        simpa only [List.append_nil] using .request hs (RequestDuty.leads_of_perform? hd)
    · refine ⟨run, by simpa [ht, setRun, send, heq] using hr, ?_⟩
      rw [ht]
      refine .aside hs (by simpa [hsub] using heq) fun e he hsub' => ?_
      exact absurd hsub' (Duty.subject_ne_of_mem_next hown hd heq he)
  | @starter r₀ run₀ d ds done hs hr₀ hd ht =>
    by_cases heq : r₀ = r
    · subst heq
      obtain rfl := Option.some.inj (hr.symm.trans hr₀)
      refine ⟨_, by simp [ht, setRun, send, hlt]; rfl, ?_⟩
      rw [ht]
      have hown : d.BelongsTo (.starter r₀) :=
        horder.belongsTo (show s.agenda (.starter r₀) = d :: ds by simp [agenda, hr₀, hs])
      cases d with
      | session d | request _ d | thread _ d => exact hown.elim
      | run _ d =>
        obtain rfl : _ = r₀ := hown
        exact .starts hs hd
      | starter _ d =>
        obtain rfl : _ = r₀ := hown
        obtain ⟨hdone, -, hnot⟩ := StarterDuty.plan_of_perform? hd
        rw [hdone]
        exact .waits (by simp [hs, hnot])
    · exact ⟨run, by simpa [ht, setRun, send, heq] using hr, by rw [ht]; exact .away (by simp)⟩
  | @thread r₀ run₀ d ds done hs hr₀ hd ht =>
    by_cases heq : r₀ = r
    · subst heq
      obtain rfl := Option.some.inj (hr.symm.trans hr₀)
      refine ⟨_, by simp [ht, setRun, send, hlt]; rfl, ?_⟩
      rw [ht]
      have hown : d.BelongsTo (.thread r₀) :=
        horder.belongsTo (show s.agenda (.thread r₀) = d :: ds by simp [agenda, hr₀, hs])
      cases d with
      | session d | request _ d | starter _ d => exact hown.elim
      | run _ d =>
        obtain rfl : _ = r₀ := hown
        exact .tells hs hd
      | thread _ d =>
        obtain rfl : _ = r₀ := hown
        exact .works hs hd
    · exact ⟨run, by simpa [ht, setRun, send, heq] using hr, by rw [ht]; exact .away (by simp)⟩

/-- Only a duty of the handler to open a run makes one. -/
theorem State.Stride.openRun_of_new (hst : s.Stride b t p) (hr : s.runs[r]? = none)
    (hr' : t.runs[r]? = some run) : p = .handler ∧ ∃ request args ds,
      s.handler = .session (.openRun request args) :: ds ∧
      t = { ((SessionDuty.openRun request args).perform b { s with handler := ds }).1 with
        handler :=
          ((SessionDuty.openRun request args).perform b { s with handler := ds }).2 ++ ds } := by
  cases hst with
  | @session d ds hs ht =>
    by_cases hopen : ∃ request args, d = .openRun request args
    · obtain ⟨request, args, rfl⟩ := hopen
      exact ⟨rfl, request, args, ds, hs, ht⟩
    · rw [ht, SessionDuty.runs_of_perform fun request args heq => hopen ⟨request, args, heq⟩] at hr'
      cases hr.symm.trans hr'
  | handler _ _ _ _ ht | starter _ _ _ ht | thread _ _ _ ht =>
    rw [ht] at hr'
    obtain ⟨run', hs⟩ := exists_of_setRun hr'
    cases hr.symm.trans hs

/-- A run that there was not before a step is opened by it. -/
theorem State.Stride.exists_opens (hst : s.Stride b t p) (hr : s.runs[r]? = none)
    (hr' : t.runs[r]? = some run) : ∃ s' : State, s'.Opens b run := by
  obtain ⟨-, request, args, ds, -, ht⟩ := hst.openRun_of_new hr hr'
  subst ht
  rcases SessionDuty.runs_cases b { s with handler := ds } (.openRun request args) with
    hruns | ⟨run₀, hopens, hruns⟩
  · rw [hruns] at hr'
    cases hr.symm.trans hr'
  · simp only [hruns, List.getElem?_append] at hr'
    split at hr'
    · cases hr.symm.trans hr'
    · obtain rfl : run = run₀ := by simpa using List.mem_of_getElem? hr'
      exact ⟨_, hopens⟩

end DebugAdapter.Session
