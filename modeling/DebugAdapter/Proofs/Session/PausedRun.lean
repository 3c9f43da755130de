import DebugAdapter.Proofs.Session.Asked
/-!
# What a paused run shows

While a run is paused it shows the last stop of its thread: the statement that the thread captured
its variables before, and these variables with the assignments since then (`Run.Displays`). The
references are those that were handed out since. Main statement: `paused_run_displays`, on every
path.

Two things are not as one may think (`paused_run_apart`). A run that is being abandoned is still
paused when its thread has left the wait already, and the columns of a frame are those of the whole
line, also of what stands before the statement.
-/

namespace DebugAdapter.Session

/-! ## What is shown -/

/-- The assignment that a step makes to a variable that run `r` shows. -/
def assignedIn (r : RunId) (e : State × Party) : Option (String × Json) :=
  (e.1.runs[r]?).bind fun run => (callIn r e).bind run.snapshot.assignment?

/-- Whether in a step the handler acknowledges that it assigned to a variable of run `r`. -/
def Acknowledges (r : RunId) (e : State × Party) : Prop :=
  ∃ run request args v, e.1.runs[r]? = some run ∧
    (e.1.agenda e.2).head? = some (.request r (.assign request args)) ∧
    (assignStep run request args).next = [answer request (some (assignmentBody v))]

/-- Whether a step hands out a reference into the snapshot of run `r`. -/
def HandsOut (r : RunId) (p : Nat × Handle) (e : State × Party) : Prop :=
  ∃ run c, e.1.runs[r]? = some run ∧ callIn r e = some c ∧ p ∉ run.snapshot.handles ∧
    p ∈ (run.snapshot.call c).handles

/-- Whether run `r` shows what its thread captured before `stmt`, when the run was `run₀`, and what
became of it by the steps `es` since then. -/
structure Run.Displays (r : RunId) (run run₀ : Run) (stmt : Script.Statement)
    (es : List (State × Party)) : Prop where
  last : ∀ e ∈ es, captures r e = false
  rest : run.rest = run₀.rest
  vars : run.vars = run₀.vars
  clientPath : run.clientPath = run₀.clientPath
  frames : run.snapshot.frames.map (fun f => (f.source.path, f.line, f.column, f.endLine,
    f.endColumn)) = [(some run.clientPath, Script.toClientLine stmt.line, 1,
      Script.toClientLine stmt.line, stmt.width + 1)]
  snapshot : run.snapshot = (Snapshot.capture run₀.vars [frameAt run₀.clientPath stmt.span]).calls
    (es.filterMap (callIn r))
  shown : run.snapshot.vars = (es.filterMap (assignedIn r)).foldl Snapshot.assigned run₀.vars
  handles : ∀ p ∈ run.snapshot.handles, ∃ e ∈ es, HandsOut r p e

/-- Whether run `r` shows the last stop of its thread, when it took the steps `es`. -/
def Run.ShowsLast (r : RunId) (es : List (State × Party)) (run : Run) : Prop :=
  ∃ es₁ u run₀ stmt rest es₂, es = es₁ ++ (u, .thread r) :: es₂ ∧ u.runs[r]? = some run₀ ∧
    captures r (u, .thread r) = true ∧ run₀.rest = stmt :: rest ∧ run.Displays r run₀ stmt es₂

variable {b : Backend} {s : State} {p : Party} {r : RunId} {run run₀ run' : Run}
  {stmt : Script.Statement} {es : List (State × Party)}

theorem refuse_ne_answer (request : Protocol.Request) (e : DebugError) (body : Option Json) :
    refuse request e ≠ [answer request body] := by
  intro h
  have hresponse : Protocol.Response.failed request e.message = Protocol.Response.ok request body :=
    SessionDuty.send.inj (Duty.session.inj (List.cons.inj h).1)
  cases hresponse

/-- Only a request to set a variable of a paused script assigns. -/
theorem Duty.eq_of_assignment? {d : Duty} {c : Snapshot.Call} {q : String × Json}
    (hcall : d.call? run = some c) (h : run.snapshot.assignment? c = some q) :
    ∃ r request args, d = .request r (.assign request args) ∧ run.phase = .paused ∧
      c = .assign args.reference args.name (parseUserValue args.value) := by
  cases d with
  | run r d => cases d <;> cases hcall; cases h
  | request r d =>
    cases d with
    | assign request args =>
      simp only [call?] at hcall
      split at hcall
      next hpaused => exact ⟨r, request, args, rfl, hpaused, (Option.some.inj hcall).symm⟩
      · cases hcall
    | _ => cases hcall <;> cases h
  | _ => cases hcall

/-- An assignment is acknowledged just when it is made. -/
theorem acknowledges_iff (r : RunId) (e : State × Party) :
    Acknowledges r e ↔ (assignedIn r e).isSome := by
  constructor
  · rintro ⟨run, request, args, v, hr, hhead, hnext⟩
    unfold assignStep at hnext
    split at hnext
    case isFalse => exact (refuse_ne_answer _ _ _ hnext).elim
    next hpaused =>
      have hcall : callIn r e =
          some (.assign args.reference args.name (parseUserValue args.value)) := by
        simp [callIn, hr, hhead, Duty.subject?, Duty.call?, hpaused]
      rcases run.snapshot.assign_cases args.reference args.name (parseUserValue args.value) with
        ⟨e, he, -⟩ | ⟨v, t, p, -, hsome, -, -⟩
      · rw [he] at hnext
        exact (refuse_ne_answer _ _ _ hnext).elim
      · simp [assignedIn, hr, hcall, hsome]
  · intro h
    obtain ⟨q, hq⟩ := Option.isSome_iff_exists.1 h
    obtain ⟨run, hr, hassigned⟩ := Option.bind_eq_some_iff.1 hq
    obtain ⟨c, hcall, hassignment⟩ := Option.bind_eq_some_iff.1 hassigned
    simp only [callIn, hr, Option.bind_some, Option.bind_eq_some_iff] at hcall
    obtain ⟨d, hhead, hcall⟩ := hcall
    split at hcall
    case isFalse => cases hcall
    next hsub =>
      obtain ⟨r', request, args, rfl, hpaused, rfl⟩ := Duty.eq_of_assignment? hcall hassignment
      obtain rfl : r' = r := Option.some.inj hsub
      obtain ⟨v, t, hok⟩ :=
        (Snapshot.isOk_assign ..).2 (Option.isSome_iff_exists.2 ⟨q, hassignment⟩)
      exact ⟨run, request, args, v, hr, hhead, by simp [assignStep, hpaused, hok]⟩

namespace Run.Displays

theorem of_capture (hrest : run.rest = run₀.rest) (hvars : run.vars = run₀.vars)
    (hpath : run.clientPath = run₀.clientPath)
    (hsnapshot : run.snapshot = .capture run₀.vars [frameAt run₀.clientPath stmt.span]) :
    run.Displays r run₀ stmt [] where
  last := by simp
  rest := hrest
  vars := hvars
  clientPath := hpath
  frames := by
    rw [hsnapshot, hpath]
    rfl
  snapshot := hsnapshot
  shown := by
    rw [hsnapshot]
    rfl
  handles := by simp [hsnapshot, Snapshot.capture]

/-- A run that goes on as before shows the same stop. -/
theorem of_asked (h : run.Displays r run₀ stmt es) (hasked : run.Asked none run') :
    run'.Displays r run₀ stmt es where
  last := h.last
  rest := hasked.rest.trans h.rest
  vars := hasked.vars.trans h.vars
  clientPath := hasked.clientPath.trans h.clientPath
  frames := by
    rw [hasked.snapshot, hasked.clientPath]
    exact h.frames
  snapshot := hasked.snapshot.trans h.snapshot
  shown := by
    rw [hasked.snapshot]
    exact h.shown
  handles := by
    rw [hasked.snapshot]
    exact h.handles

/-- What a step asks of the snapshot is added to what is shown. -/
theorem concat (h : run.Displays r run₀ stmt es) (hr : s.runs[r]? = some run)
    (hasked : run.Asked (callIn r (s, p)) run') (hcaptures : captures r (s, p) = false) :
    run'.Displays r run₀ stmt (es ++ [(s, p)]) := by
  have hassigned : assignedIn r (s, p) = (callIn r (s, p)).bind run.snapshot.assignment? := by
    simp [assignedIn, hr]
  cases hcall : callIn r (s, p) with
  | none =>
    have hsame := h.of_asked (hcall ▸ hasked)
    rw [hcall] at hassigned
    refine ⟨?_, hsame.rest, hsame.vars, hsame.clientPath, hsame.frames, ?_, ?_, ?_⟩
    · simpa [or_imp, forall_and, hcaptures] using hsame.last
    · simpa [hcall] using hsame.snapshot
    · simpa [hassigned] using hsame.shown
    · intro p' hp'
      obtain ⟨e, he, hout⟩ := hsame.handles p' hp'
      exact ⟨e, List.mem_append_left _ he, hout⟩
  | some c =>
    have hsnapshot : run'.snapshot = run.snapshot.call c := by
      rw [hasked.snapshot, hcall]
      rfl
    rw [hcall] at hassigned
    refine ⟨?_, hasked.rest.trans h.rest, hasked.vars.trans h.vars,
      hasked.clientPath.trans h.clientPath, ?_, ?_, ?_, ?_⟩
    · simpa [or_imp, forall_and, hcaptures] using h.last
    · rw [hsnapshot, Snapshot.frames_call, hasked.clientPath]
      exact h.frames
    · rw [hsnapshot, List.filterMap_append, Snapshot.calls_append, ← h.snapshot]
      simp [hcall, Snapshot.calls]
    · rw [hsnapshot, Snapshot.vars_call, List.filterMap_append, List.foldl_append, ← h.shown]
      have hlast : [(s, p)].filterMap (assignedIn r) = (run.snapshot.assignment? c).toList := by
        simp only [List.filterMap_cons, hassigned, List.filterMap_nil, Option.bind_some]
        cases run.snapshot.assignment? c <;> rfl
      rw [hlast]
    · intro p' hp'
      by_cases hold : p' ∈ run.snapshot.handles
      · obtain ⟨e, he, hout⟩ := h.handles p' hold
        exact ⟨e, List.mem_append_left _ he, hout⟩
      · exact ⟨(s, p), by simp, run, c, hr, hcall, hold, hsnapshot ▸ hp'⟩

end Run.Displays

theorem Run.ShowsLast.of_asked (h : run.ShowsLast r es) (hasked : run.Asked none run') :
    run'.ShowsLast r es := by
  obtain ⟨es₁, u, run₀, stmt, rest, es₂, hes, hu, hcaptures, hrest, hdisplays⟩ := h
  exact ⟨es₁, u, run₀, stmt, rest, es₂, hes, hu, hcaptures, hrest, hdisplays.of_asked hasked⟩

theorem Run.ShowsLast.concat (h : run.ShowsLast r es) (hr : s.runs[r]? = some run)
    (hasked : run.Asked (callIn r (s, p)) run') (hcaptures : captures r (s, p) = false) :
    run'.ShowsLast r (es ++ [(s, p)]) := by
  obtain ⟨es₁, u, run₀, stmt, rest, es₂, rfl, hu, hcaptured, hrest, hdisplays⟩ := h
  refine ⟨es₁, u, run₀, stmt, rest, es₂ ++ [(s, p)], by simp, hu, hcaptured, hrest, ?_⟩
  exact hdisplays.concat hr hasked hcaptures

/-- A run that holds on to what its thread captured shows the last stop. -/
theorem State.Path.showsLast (h : Path b {} es s) (hr : s.runs[r]? = some run)
    (hholds : run.Holds r) : run.ShowsLast r es := by
  induction h generalizing run with
  | refl => simp at hr
  | @step es s t p hpath hp ih =>
    have horder := hpath.orderly orderly_empty
    rcases (horder.stride hp).moves horder hr with ⟨-, _, hopens⟩ | ⟨run₁, hr₁, hmoves⟩
    · cases hopens
      simp [Run.Holds] at hholds
    cases hmoves with
    | asked hasked hcaptures hheld => exact (ih hr₁ (hheld hholds)).concat hr₁ hasked hcaptures
    | @captured stmt rest hrest hparty hcaptures hrest' hvars hkey hpath' hsnapshot =>
      obtain rfl : p = .thread r := hparty
      exact ⟨es, s, run₁, stmt, rest, [], rfl, hr₁, hcaptures, hrest,
        .of_capture hrest' hvars hpath' hsnapshot⟩
    | @wentOn d hd hthread hphase hpark =>
      -- A paused run does not go on.
      rcases hholds with hpaused | ⟨hnone, hmem⟩
      · rcases hpath.halts hr₁ (hphase.symm.trans hpaused) with ⟨hmem, -⟩ | ⟨e, hends⟩ | hends <;>
          rcases hd with rfl | rfl <;> simp_all
      · exact absurd (hpark hmem) hnone
  | accept i _ _ ih => exact ih (by cases i <;> exact hr) hholds
  | @giveUp es s r' run₁ run₂ hpath hr' hgive ih =>
    rcases getElem?_setRun hr with ⟨rfl, rfl⟩ | ⟨-, hr⟩
    case inr => exact ih hr hholds
    refine (ih hr' ?_).of_asked hgive.asked
    cases hgive with
    | terminate => exact hholds.imp_left (by simp)
    | _ => exact hholds

/-! ## Where the thread is -/

/-- Whether the thread of run `r` waits for the client, or only tells of its stop before. -/
def Run.IsStopping (r : RunId) (run : Run) : Prop :=
  ∃ ds, run.thread = ds ++ [.thread r .park] ∧
    ∀ d ∈ ds, d = .run r .unlock ∨ ∃ e, d = .run r (.emit e)

/-- Whether run `r` was abandoned and its thread executes nothing more. -/
def Run.IsUnwinding (r : RunId) (run : Run) : Prop :=
  run.context.isClosed = true ∧ ∀ d, .thread r d ∈ run.thread → ∃ e, d = .conclude e

theorem ThreadPlan.stopping {holds : Bool} {ds : List Duty} (h : ThreadPlan r holds ds)
    (hpark : .thread r .park ∈ ds) (hmark : .thread r .markPaused ∉ ds) :
    ∃ ds', ds = ds' ++ [.thread r .park] ∧
      ∀ d ∈ ds', d = .run r .unlock ∨ ∃ e, d = .run r (.emit e) := by
  induction h with
  | out | finish | claim => simp at hpark
  | emit e _ ih | unlock _ ih =>
    obtain ⟨ds', rfl, hds'⟩ := ih (by simpa using hpark) (by simpa using hmark)
    refine ⟨_ :: ds', rfl, ?_⟩
    simpa using hds'
  | stall since hafter => rcases hafter with rfl | rfl <;> simp at hpark
  | capture | markPaused => simp at hmark
  | last =>
    obtain rfl : ThreadDuty.park = _ := by simpa using hpark
    exact ⟨[], rfl, by simp⟩

theorem State.Path.stopping_or_unwinding (h : Path b {} es s) (hr : s.runs[r]? = some run)
    (hphase : run.phase = .paused) : run.IsStopping r ∨ run.IsUnwinding r := by
  have hplan := ((h.orderly orderly_empty).runs hr).thread
  cases hclosed : run.context.isClosed with
  | false =>
    obtain ⟨hpark, hmark⟩ := (h.balanced.runs hr).paused hclosed hphase
    exact .inl (hplan.stopping hpark hmark)
  | true =>
    rcases h.halts hr hphase with ⟨hpark, hmark⟩ | hends
    · exact .inl (hplan.stopping hpark hmark)
    · exact .inr ⟨hclosed, hplan.eq_conclude hends⟩

/-- While a run is paused, whoever takes which step and whoever gives it up, it shows the stop of
its thread that came last : the place of the statement that comes next, and the variables that were
captured with the assignments acknowledged since. No reference is older. Its thread is in the wait
of this stop or on the way into it, or was abandoned there and executes nothing more. -/
theorem paused_run_displays (h : State.Path b {} es s) (hr : s.runs[r]? = some run)
    (hphase : run.phase = .paused) :
    (∃ es₁ u run₀ stmt rest es₂, es = es₁ ++ (u, .thread r) :: es₂ ∧ u.runs[r]? = some run₀ ∧
      captures r (u, .thread r) = true ∧ run₀.rest = stmt :: rest ∧
      run.Displays r run₀ stmt es₂ ∧ ∀ e ∈ es₂, Acknowledges r e ↔ (assignedIn r e).isSome) ∧
    (run.IsStopping r ∨ run.IsUnwinding r) := by
  obtain ⟨es₁, u, run₀, stmt, rest, es₂, hes, hu, hcaptures, hrest, hdisplays⟩ :=
    h.showsLast hr (.inl hphase)
  exact ⟨⟨es₁, u, run₀, stmt, rest, es₂, hes, hu, hcaptures, hrest, hdisplays,
    fun e _ => acknowledges_iff r e⟩, h.stopping_or_unwinding hr hphase⟩

open State (asked taken) in
/-- A variable of a stopped script is set, and the script stays stopped. -/
def setOnly : List State.Turn :=
  stopOnce ++
    asked "setVariable" (.object [("variablesReference", Json.ofInt 1), ("name", .string "x"),
      ("value", .string "new")]) :: taken 3 .handler

/-- A script that stopped before a statement shows the variable that was set since. -/
theorem paused_run_displays_setOnly : ∃ es s run, State.Path promptBackend {} es s ∧
    s.runs[0]? = some run ∧ run.phase = .paused ∧ ∃ es₁ u run₀ stmt rest es₂,
      es = es₁ ++ (u, .thread 0) :: es₂ ∧ run₀.rest = stmt :: rest ∧
      run.Displays 0 run₀ stmt es₂ ∧ (run.snapshot.vars.find? "x").bind Json.text? = some "new" ∧
      (run₀.vars.get? "x").isNone ∧ (run.IsStopping 0 ∨ run.IsUnwinding 0) := by
  have hwalk : (({} : State).walk? promptBackend setOnly).any (fun w => w.2.runs[0]?.any fun run =>
      run.phase == .paused && (run.vars.get? "x").isNone &&
        (run.snapshot.vars.find? "x").bind Json.text? == some "new") = true := by decide +kernel
  obtain ⟨⟨es, s⟩, hw, hrun⟩ := (Option.any_eq_true ..).1 hwalk
  obtain ⟨run, hr, hfacts⟩ := (Option.any_eq_true ..).1 hrun
  simp only [Bool.and_eq_true, beq_iff_eq] at hfacts
  obtain ⟨⟨hphase, hnone⟩, hx⟩ := hfacts
  have hpath : State.Path promptBackend {} es s := State.Path.refl.walk hw
  obtain ⟨⟨es₁, u, run₀, stmt, rest, es₂, hes, -, -, hrest, hdisplays, -⟩, hthread⟩ :=
    paused_run_displays hpath hr hphase
  exact ⟨es, s, run, hpath, hr, hphase, es₁, u, run₀, stmt, rest, es₂, hes, hrest, hdisplays, hx,
    hdisplays.vars ▸ hnone, hthread⟩

open State (asked taken) in
/-- A stopped script is abandoned, and its thread wakes up before the run is marked as over. -/
def wakeEarly : List State.Turn :=
  stopOnce ++ asked "terminate" .null :: taken 7 .handler ++ taken 1 (.thread 0)

/-- A backend with one script, whose statement does not begin at the margin. -/
def indentedBackend : Backend :=
  { promptBackend with library := .table [("a", ⟨"  return 1", "a", {}⟩)] }

/-- Whether the duty is the wait of a stopped script. -/
def Duty.isPark : Duty → Bool
  | .thread _ .park => true
  | _ => false

/-- A run may be paused when its thread is not in its wait nor on the way into it, and a frame may
begin before the statement that it is about. -/
theorem paused_run_apart :
    (∃ es s run, State.Path promptBackend {} es s ∧ s.runs[0]? = some run ∧
      run.phase = .paused ∧ .thread 0 .park ∉ run.thread) ∧
    ∃ es s run frame, State.Path indentedBackend {} es s ∧ s.runs[0]? = some run ∧
      run.phase = .paused ∧ run.snapshot.frames = [frame] ∧ frame.line = 1 ∧ frame.column = 1 ∧
      "  return 1".toList.takeWhile (· = ' ') = [' ', ' '] := by
  constructor
  · have hwalk : (({} : State).walk? promptBackend wakeEarly).any (fun w => w.2.runs[0]?.any
        fun run => run.phase == .paused && run.thread.all (!·.isPark)) = true := by
      decide +kernel
    obtain ⟨⟨es, s⟩, hw, hrun⟩ := (Option.any_eq_true ..).1 hwalk
    obtain ⟨run, hr, hfacts⟩ := (Option.any_eq_true ..).1 hrun
    simp only [Bool.and_eq_true, beq_iff_eq, List.all_eq_true] at hfacts
    refine ⟨es, s, run, State.Path.refl.walk hw, hr, hfacts.1, fun hpark => ?_⟩
    cases hfacts.2 _ hpark
  · have hwalk : (({} : State).walk? indentedBackend stopOnce).any (fun w => w.2.runs[0]?.any
        fun run => run.phase == .paused &&
          (run.snapshot.frames.map fun frame => (frame.line, frame.column)) == [(1, 1)]) =
            true := by decide +kernel
    obtain ⟨⟨es, s⟩, hw, hrun⟩ := (Option.any_eq_true ..).1 hwalk
    obtain ⟨run, hr, hfacts⟩ := (Option.any_eq_true ..).1 hrun
    simp only [Bool.and_eq_true, beq_iff_eq] at hfacts
    obtain ⟨hphase, hframes⟩ := hfacts
    obtain ⟨frame, hone, hplace⟩ := List.map_eq_singleton_iff.1 hframes
    obtain ⟨hline, hcolumn⟩ := Prod.mk.inj hplace
    exact ⟨es, s, run, frame, State.Path.refl.walk hw, hr, hphase, hone, hline, hcolumn, by decide⟩

end DebugAdapter.Session
