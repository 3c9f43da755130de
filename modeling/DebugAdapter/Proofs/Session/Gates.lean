import DebugAdapter.Proofs.Session.SessionStep
/-!
# The gate closes first

A handler that gives up a run closes its gate before it closes its context and marks the run as over
(`GateFirst`). Whatever the handler is given to do keeps to this order (`SessionDuty.gateFirst`), so
a run that a handler is about to mark as over sends nothing any more.
-/

namespace DebugAdapter.Session

open Protocol (Request)

variable {r : RunId} {ds ds' : List Duty} {live : Bool}

/-! ## Orders of duties -/

/-- Whether a duty closes the gate of run `r`. -/
def Duty.closesGate (r : RunId) : Duty → Bool
  | .run r' .closeGate => r' == r
  | _ => false

/-- Whether a duty abandons the execution of run `r` or marks the run as over. -/
def Duty.ends (r : RunId) : Duty → Bool
  | .run r' .closeContext | .run r' (.setPhase .terminated) => r' == r
  | _ => false

/-- Whether an agenda closes the gate of run `r` before it ends the run, when the gate is open just
if `live`. -/
def GateFirst (r : RunId) (live : Bool) : List Duty → Prop
  | [] => True
  | d :: ds => (d.ends r = true → live = false) ∧ GateFirst r (live && !d.closesGate r) ds

theorem gateFirst_false (r : RunId) (ds : List Duty) : GateFirst r false ds := by
  induction ds with
  | nil => trivial
  | cons d ds ih => exact ⟨fun _ => rfl, ih⟩

theorem gateFirst_of_not_ends (h : ∀ d ∈ ds, d.ends r = false) : GateFirst r live ds := by
  induction ds generalizing live with
  | nil => trivial
  | cons d ds ih =>
    refine ⟨fun hends => ?_, ih fun e he => h e (by simp [he])⟩
    cases hends.symm.trans (h d (by simp))

theorem GateFirst.append (h : GateFirst r live ds) (h' : GateFirst r live ds') :
    GateFirst r live (ds ++ ds') := by
  induction ds generalizing live with
  | nil => exact h'
  | cons d ds ih =>
    refine ⟨h.1, ih h.2 ?_⟩
    cases d.closesGate r with
    | true => simpa using gateFirst_false r ds'
    | false => simpa using h'

theorem Duty.ends_of_subject {d : Duty} (h : d.subject? ≠ some r) : d.ends r = false := by
  cases d with
  | run r' d =>
    have hne : r' ≠ r := fun heq => h (by rw [heq]; rfl)
    cases d with
    | setPhase phase => cases phase <;> simp [ends, hne]
    | _ => simp [ends, hne]
  | _ => rfl

theorem Duty.ends_of_isAside {d : Duty} (h : d.isAside = true) : d.ends r = false := by
  cases d with
  | run r' d => cases h
  | _ => rfl

theorem gateFirst_of_isAside (h : ∀ d ∈ ds, d.isAside = true) : GateFirst r live ds :=
  gateFirst_of_not_ends fun d hd => Duty.ends_of_isAside (h d hd)

/-! ## What the handler is given to do -/

theorem gateFirst_session (r : RunId) (live : Bool) (d : SessionDuty) :
    GateFirst r live [.session d] :=
  gateFirst_of_not_ends (by simp [Duty.ends])

theorem gateFirst_answer (r : RunId) (live : Bool) (request : Request) (body : Option Json) :
    GateFirst r live [answer request body] :=
  gateFirst_session r live _

theorem gateFirst_refuse (r : RunId) (live : Bool) (request : Request) (e : DebugError) :
    GateFirst r live (refuse request e) :=
  gateFirst_of_isAside isAside_of_mem_refuse

theorem gateFirst_abandon (r r' : RunId) (live : Bool) : GateFirst r live (abandon r') := by
  by_cases heq : r' = r
  · subst heq
    simp [abandon, GateFirst, Duty.ends, Duty.closesGate]
  · exact gateFirst_of_not_ends fun d hd =>
      Duty.ends_of_subject (by simp [subject_of_mem_abandon hd, heq])

theorem gateFirst_abandonAny (r : RunId) (live : Bool) (o : Option RunId) :
    GateFirst r live (abandonAny o) := by
  cases o with
  | none => trivial
  | some r' => exact gateFirst_abandon r r' live

theorem gateFirst_tearDown (r : RunId) (live : Bool) (o : Option RunId) :
    GateFirst r live (tearDown o) := by
  cases o with
  | none => exact gateFirst_session r live _
  | some r' =>
    have hclaim : GateFirst r live [.run r' .claimTerminated] :=
      gateFirst_of_not_ends (by simp [Duty.ends])
    exact hclaim.append (gateFirst_abandon r r' live)

theorem gateFirst_withArguments {α : Type} (request : Request) (decoder : Json.Decoder α)
    {duties : α → List Duty} (h : ∀ args, GateFirst r live (duties args)) :
    GateFirst r live (withArguments request decoder duties) := by
  unfold withArguments
  split
  · exact h _
  · exact gateFirst_refuse r live request _

theorem gateFirst_forCurrent (s : State) (duty : RequestDuty) (h : GateFirst r live ds) :
    GateFirst r live (s.forCurrent duty ds) := by
  unfold State.forCurrent
  split
  · exact gateFirst_of_not_ends (by simp [Duty.ends])
  · exact h

theorem gateFirst_handle (r : RunId) (live : Bool) (s : State) (request : Request)
    (c : Protocol.Command) : GateFirst r live (s.handle request c).2 := by
  have hrelaunch (args) : GateFirst r live (s.relaunch request args).2 :=
    (gateFirst_abandonAny r live s.current).append (gateFirst_session r live _)
  have hanswer := gateFirst_answer r live request
  have hrefuse := gateFirst_refuse r live request
  cases c with
  | launch | restart =>
    simp only [State.handle]
    split
    · exact hrelaunch _
    · exact hrefuse _
  | setBreakpoints =>
    exact gateFirst_withArguments request _ fun _ => gateFirst_session r live _
  | resume how =>
    exact gateFirst_withArguments request _ fun _ => gateFirst_forCurrent s _ (hanswer _)
  | pause | stackTrace => exact gateFirst_forCurrent s _ (hanswer _)
  | listVariables =>
    refine gateFirst_withArguments request _ fun _ => gateFirst_forCurrent s _ ?_
    split
    · exact hanswer _
    · exact hrefuse _
  | setVariable =>
    exact gateFirst_withArguments request _ fun _ => gateFirst_forCurrent s _ (hrefuse _)
  | evaluate =>
    exact gateFirst_withArguments request _ fun _ => gateFirst_forCurrent s _ (hanswer _)
  | terminate =>
    exact (hanswer _).append ((gateFirst_tearDown r live s.current).append
      (gateFirst_session r live _))
  | disconnect =>
    exact (hanswer _).append ((gateFirst_tearDown r live s.current).append
      ((gateFirst_session r live _).append (gateFirst_session r live _)))
  | _ => exact hanswer _

theorem SessionDuty.gateFirst (b : Backend) (s : State) (d : SessionDuty) (r : RunId)
    (live : Bool) : GateFirst r live (d.perform b s).2 := by
  cases d with
  | handle request =>
    simp only [perform]
    split
    · exact gateFirst_handle r live s request _
    · exact gateFirst_refuse r live request _
  | openRun request args =>
    rcases s.prepare_cases b request args with ⟨ds, haside, heq⟩ | ⟨_, _, _, -, -, -, heq⟩
    · simp only [perform, heq]
      exact gateFirst_of_isAside haside
    · simp only [perform, heq, State.openRun]
      exact gateFirst_of_not_ends (by simp [Duty.ends, answer])
  | reportTermination =>
    simp only [perform]
    split <;> trivial
  | send | clearRegistry => trivial
  | replaceBreakpoints => exact gateFirst_session r live _
  | passOn replaced m =>
    simp only [perform, State.passOn]
    repeat' split
    all_goals exact gateFirst_of_not_ends (by simp [Duty.ends])
  | shutdown => exact (gateFirst_abandonAny r live s.current).append (gateFirst_session r live _)

end DebugAdapter.Session
