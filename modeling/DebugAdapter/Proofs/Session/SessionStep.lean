import DebugAdapter.Proofs.Session.RequestStep
/-!
# Steps on the session

What the handler makes of the session : a launch either opens a run or only answers
(`State.prepare_cases`), and nothing else makes a run (`SessionDuty.runs_of_perform`) or sets one to
work (`SessionDuty.mild_of_perform`). `SessionDuty.assigned_of_mem_perform` lists what the handler
may be given to do about a run.
-/

namespace DebugAdapter.Session

open Protocol (LaunchArguments Request)

/-! ## Mild agendas -/

/-- Whether a duty releases no lock and no script and sets nobody to work. -/
def Duty.isPlain : Duty → Bool
  | run _ .unlock | run _ .signal | run _ .spawn | run _ .schedule => false
  | _ => true

/-- Whether an agenda releases nothing, sets nobody to work and does not begin with the end of a
run. -/
structure Mild (ds : List Duty) : Prop where
  plain : ∀ d ∈ ds, d.isPlain = true
  notEnds (r : RunId) : ¬EndsRun r ds

theorem Mild.nil : Mild [] :=
  ⟨by simp, not_endsRun_nil⟩

theorem Mild.append {ds ds' : List Duty} (h : Mild ds) (h' : Mild ds') : Mild (ds ++ ds') := by
  refine ⟨fun d hd => ?_, fun r hr => ?_⟩
  · rcases List.mem_append.1 hd with hd | hd
    · exact h.plain d hd
    · exact h'.plain d hd
  · cases ds with
    | nil => exact h'.notEnds r hr
    | cons d ds => exact h.notEnds r ((endsRun_cons ..).2 ((endsRun_cons ..).1 hr))

theorem mild_of_isAside {ds : List Duty} (h : ∀ d ∈ ds, d.isAside = true) : Mild ds := by
  refine ⟨fun d hd => ?_, ?_⟩
  · have haside := h d hd
    cases d with
    | run r d => cases haside
    | _ => rfl
  · rintro r ⟨ds', rfl⟩
    cases h (.run r (.setPhase .terminated)) (by simp)

theorem mild_refuse (request : Request) (e : DebugError) : Mild (refuse request e) :=
  mild_of_isAside isAside_of_mem_refuse

theorem mild_answer (request : Request) (body : Option Json) : Mild [answer request body] :=
  mild_of_isAside (by simp [answer, Duty.isAside])

theorem mild_session (d : SessionDuty) : Mild [.session d] :=
  ⟨by simp [Duty.isPlain], by simp⟩

theorem mild_abandonAny (r : Option RunId) : Mild (abandonAny r) := by
  cases r with
  | none => exact .nil
  | some r => exact ⟨by simp [abandonAny, abandon, Duty.isPlain], by simp [abandonAny, abandon]⟩

theorem mild_tearDown (r : Option RunId) : Mild (tearDown r) := by
  cases r with
  | none => exact mild_session _
  | some r => exact ⟨by simp [tearDown, abandon, Duty.isPlain], by simp [tearDown]⟩

theorem mild_withArguments {α : Type} (request : Request) (decoder : Json.Decoder α)
    {duties : α → List Duty} (h : ∀ args, Mild (duties args)) :
    Mild (withArguments request decoder duties) := by
  unfold withArguments
  split
  · exact h _
  · exact mild_refuse request _

theorem mild_forCurrent (s : State) (duty : RequestDuty) {ds : List Duty} (h : Mild ds) :
    Mild (s.forCurrent duty ds) := by
  unfold State.forCurrent
  split
  · exact ⟨by simp [Duty.isPlain], by simp⟩
  · exact h

theorem mild_handle (s : State) (request : Request) (c : Protocol.Command) :
    Mild (s.handle request c).2 := by
  have hrelaunch (args) : Mild (s.relaunch request args).2 :=
    (mild_abandonAny s.current).append (mild_session _)
  cases c with
  | launch | restart =>
    simp only [State.handle]
    split
    · exact hrelaunch _
    · exact mild_refuse request _
  | setBreakpoints => exact mild_withArguments request _ fun _ => mild_session _
  | resume how =>
    exact mild_withArguments request _ fun _ => mild_forCurrent s _ (mild_answer request _)
  | pause | stackTrace => exact mild_forCurrent s _ (mild_answer request _)
  | listVariables =>
    refine mild_withArguments request _ fun _ => mild_forCurrent s _ ?_
    split
    · exact mild_answer request _
    · exact mild_refuse request _
  | setVariable =>
    exact mild_withArguments request _ fun _ => mild_forCurrent s _ (mild_refuse request _)
  | evaluate =>
    exact mild_withArguments request _ fun _ => mild_forCurrent s _ (mild_answer request _)
  | terminate =>
    exact (mild_answer request _).append ((mild_tearDown s.current).append (mild_session _))
  | disconnect =>
    exact (mild_answer request _).append ((mild_tearDown s.current).append
      ((mild_session _).append (mild_session _)))
  | _ => exact mild_answer request _

/-! ## Launches and other steps -/

/-- A launch opens a run of a script of the library, or only answers. -/
theorem State.prepare_cases (b : Backend) (s : State) (request : Request) (args : LaunchArguments) :
    (∃ ds, (∀ d ∈ ds, d.isAside = true) ∧ s.prepare b request args = (s, ds)) ∨
      ∃ id script program, args.scriptId? = some id ∧ b.library.resolve id = .ok (some script) ∧
        b.engine.compile script.text = some (.ok program) ∧
        s.prepare b request args = s.openRun request script
          (SourceKey.normalize (script.name ++ Script.scriptExtension)) program := by
  unfold prepare
  split
  · exact .inl ⟨_, isAside_of_mem_refuse, rfl⟩
  next id hid =>
    split
    · exact .inl ⟨_, isAside_of_mem_refuse, rfl⟩
    · exact .inl ⟨_, isAside_of_mem_refuse, rfl⟩
    next script hscript =>
      split
      · exact .inl ⟨_, by simp [answerCrash, Duty.isAside], rfl⟩
      · exact .inl ⟨_, isAside_of_mem_refuse, rfl⟩
      next program hprogram => exact .inr ⟨id, script, program, hid, hscript, hprogram, rfl⟩

theorem State.runs_handle (s : State) (request : Request) (c : Protocol.Command) :
    (s.handle request c).1.runs = s.runs := by
  cases c with
  | launch | restart =>
    simp only [handle]
    split <;> rfl
  | _ => rfl

/-- Only a launch makes a run. -/
theorem SessionDuty.runs_of_perform {b : Backend} {s : State} {d : SessionDuty}
    (hopen : ∀ request args, d ≠ .openRun request args) : (d.perform b s).1.runs = s.runs := by
  cases d with
  | handle request =>
    simp only [perform]
    split
    · exact s.runs_handle request _
    · rfl
  | openRun request args => exact absurd rfl (hopen request args)
  | reportTermination =>
    simp only [perform]
    split <;> rfl
  | _ => simp only [perform, State.send]

/-- Only a launch sets anybody to work. -/
theorem SessionDuty.mild_of_perform {b : Backend} {s : State} {d : SessionDuty}
    (hopen : ∀ request args, d ≠ .openRun request args) : Mild (d.perform b s).2 := by
  cases d with
  | handle request =>
    simp only [perform]
    split
    · exact mild_handle s request _
    · exact mild_refuse request _
  | openRun request args => exact absurd rfl (hopen request args)
  | reportTermination =>
    simp only [perform]
    split <;> exact .nil
  | send | clearRegistry => exact .nil
  | replaceBreakpoints => exact mild_session _
  | passOn replaced m =>
    have hpair (r : RunId) :
        Mild [.run r (.setLines replaced.lines), .request r (.answerThenStart m)] :=
      ⟨by simp [Duty.isPlain], by simp⟩
    simp only [perform, State.passOn]
    repeat' split
    · exact hpair _
    · exact mild_session _
    · exact mild_session _
  | shutdown => exact (mild_abandonAny s.current).append (mild_session _)

/-- A run that a launch may make. -/
inductive State.Opens (b : Backend) (s : State) : Run → Prop where
  | opened (script : Script.StoredScript) (program : Script.Program)
      (hcompile : b.engine.compile script.text = some (.ok program)) (key : String) :
      Opens b s {
        key
        clientPath := SourceKey.clientPath key
        context := { lines := s.registry.lines key }
        rest := program
        vars := script.request.environment }

/-- A duty on the session leaves the runs alone, or makes another one. -/
theorem SessionDuty.runs_cases (b : Backend) (s : State) (d : SessionDuty) :
    (d.perform b s).1.runs = s.runs ∨
      ∃ run, s.Opens b run ∧ (d.perform b s).1.runs = s.runs ++ [run] := by
  by_cases hopen : ∃ request args, d = .openRun request args
  · obtain ⟨request, args, rfl⟩ := hopen
    rcases s.prepare_cases b request args with
      ⟨ds, -, heq⟩ | ⟨id, script, program, -, -, hcompile, heq⟩
    · simp only [perform, heq]
      exact .inl trivial
    · simp only [perform, heq]
      exact .inr ⟨_, .opened script program hcompile _, rfl⟩
  · exact .inl (runs_of_perform fun request args heq => hopen ⟨request, args, heq⟩)

/-- No step takes a run away. -/
theorem State.Stride.runs_none {b : Backend} {s t : State} {p : Party} (h : s.Stride b t p)
    {r : RunId} (hr : t.runs[r]? = none) : s.runs[r]? = none := by
  cases h with
  | @session d ds hs ht =>
    subst ht
    rcases d.runs_cases b { s with handler := ds } with hruns | ⟨run, -, hruns⟩
    · simpa [hruns] using hr
    · simp only [hruns, List.getElem?_eq_none_iff, List.length_append] at hr
      exact List.getElem?_eq_none (Nat.le_trans (Nat.le_add_right _ _) hr)
  | handler _ _ _ _ ht | starter _ _ _ ht | thread _ _ _ ht =>
    subst ht
    simpa [setRun, send] using hr

/-! ## What a step on the session gives to do -/

variable {b : Backend} {s : State} {r : RunId}

/-- What the handler may be given to do about run `r` by a step on a session with `n` runs. -/
inductive Duty.Assigned (n : Nat) (r : RunId) : Duty → Prop where
  | opening {d : Duty} (hnew : r = n) (hd : d ∈ [.run r (.emit initialized),
      .run r (.setPhase .awaitingBreakpoints), .run r .schedule]) : Assigned n r d
  | claim : Assigned n r (.run r .claimTerminated)
  | giveUp {d : Duty} (hd : d ∈ abandon r) : Assigned n r d
  | setLines (lines : List UInt32) : Assigned n r (.run r (.setLines lines))
  | request (d : RequestDuty) : Assigned n r (.request r d)

theorem Duty.Assigned.of_isAside {n : Nat} {e : Duty} (h : e.isAside = true)
    (hsub : e.subject? = some r) : e.Assigned n r := by
  cases e with
  | request r' d =>
    obtain rfl : r' = r := Option.some.inj hsub
    exact .request d
  | session d => cases hsub
  | _ => cases h

theorem subject_of_mem_abandon {e : Duty} (he : e ∈ abandon r) : e.subject? = some r := by
  simp only [abandon, List.mem_cons, List.not_mem_nil, or_false] at he
  rcases he with rfl | rfl | rfl | rfl <;> rfl

theorem Duty.Assigned.of_mem_abandonAny {n : Nat} {o : Option RunId} {e : Duty}
    (he : e ∈ abandonAny o) (hsub : e.subject? = some r) : e.Assigned n r := by
  cases o with
  | none => cases he
  | some r' =>
    obtain rfl : r' = r := Option.some.inj ((subject_of_mem_abandon he).symm.trans hsub)
    exact .giveUp he

theorem assigned_of_mem_handle {request : Request} {c : Protocol.Command} {e : Duty}
    (he : e ∈ (s.handle request c).2) (hsub : e.subject? = some r) :
    e.Assigned s.runs.length r := by
  cases c <;>
    simp only [State.handle, State.relaunch, withArguments, State.forCurrent, refuse, answer,
      tearDown] at he <;>
    (repeat' split at he) <;>
    grind [Duty.Assigned, Duty.subject?, Duty.Assigned.of_mem_abandonAny, subject_of_mem_abandon]

/-- What a step on the session gives to do about a run. -/
theorem SessionDuty.assigned_of_mem_perform {d : SessionDuty} {e : Duty}
    (he : e ∈ (d.perform b s).2) (hsub : e.subject? = some r) : e.Assigned s.runs.length r := by
  cases d with
  | handle request =>
    simp only [perform] at he
    split at he
    · exact assigned_of_mem_handle he hsub
    · exact .of_isAside (isAside_of_mem_refuse e he) hsub
  | openRun request args =>
    rcases s.prepare_cases b request args with ⟨ds, haside, heq⟩ | ⟨_, _, _, -, -, -, heq⟩
    · simp only [perform, heq] at he
      exact .of_isAside (haside e he) hsub
    · simp only [perform, heq, State.openRun] at he
      grind [Duty.Assigned, Duty.subject?, answer]
  | passOn replaced m =>
    simp only [perform, State.passOn] at he
    repeat' split at he
    all_goals grind [Duty.Assigned, Duty.subject?]
  | reportTermination =>
    simp only [perform] at he
    split at he <;> cases he
  | shutdown =>
    rcases List.mem_append.1 he with he | he
    · exact .of_mem_abandonAny he hsub
    · obtain rfl : e = _ := by simpa using he
      cases hsub
  | send | clearRegistry => cases he
  | replaceBreakpoints =>
    obtain rfl : e = _ := by simpa [perform] using he
    cases hsub

end DebugAdapter.Session
