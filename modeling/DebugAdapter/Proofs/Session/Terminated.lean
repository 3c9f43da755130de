import DebugAdapter.Proofs.Session.Abandoned
import DebugAdapter.Proofs.Session.Dues
/-!
# Telling that a script is over

The thread of a run and the handler that tears the run down both may tell the client that the run is
over. Whoever claims it first does (`Run.terminated`), in a step of its own, so the run may be
silent by then. Main statements: `end_told_or_lost`, that the client is told once unless that
happens, and `over_run_tells_no_more`, that a run whose thread is done tells nothing new.
-/

namespace DebugAdapter.Session

open Protocol (Event Outgoing)

/-! ## Who tells it -/

/-- Whether a message tells that a script is over. -/
def tellsEnd : Outgoing → Bool
  | .event e => e.name == terminated.name
  | .response _ => false

/-- Whether a duty is to tell that a script is over. -/
def Duty.tellsEnd (d : Duty) : Bool :=
  d.event?.any fun e => Session.tellsEnd (.event e)

/-- How often these steps told the client that run `r` is over. -/
def endsTold (b : Backend) (r : RunId) (es : List (State × Party)) : Nat :=
  (queuedBy b r es).countP tellsEnd

/-- Whether a step comes too late to tell that run `r` is over. -/
def losesEnd (r : RunId) (e : State × Party) : Bool :=
  (e.1.agenda e.2).head?.any fun d => d.isAbout r && d.tellsEnd &&
    e.1.runs[r]?.any fun run => !run.isLive

/-- How often these steps came too late to tell that run `r` is over. -/
def endsLost (r : RunId) (es : List (State × Party)) : Nat :=
  es.countP (losesEnd r)

variable {b : Backend} {s t : State} {p : Party} {r : RunId} {run : Run} {d : Duty}
  {ds : List Duty} {done : Done} {es : List (State × Party)}

theorem endsTold_concat (e : State × Party) :
    endsTold b r (es ++ [e]) = endsTold b r es + (queuedIn b r e).countP tellsEnd := by
  simp [endsTold]

theorem endsLost_concat (e : State × Party) :
    endsLost r (es ++ [e]) = endsLost r es + (losesEnd r e).toNat := by
  cases h : losesEnd r e <;> simp [endsLost, h]

/-- A step that is to tell the end of a run tells it or loses it. -/
theorem State.Orderly.told_or_lost (horder : s.Orderly) (hp : s.advance? b p = some t)
    (hagenda : s.agenda p = d :: ds) (hr : s.runs[r]? = some run) :
    (queuedIn b r (s, p)).countP tellsEnd + (losesEnd r (s, p)).toNat =
      (d.isAbout r && d.tellsEnd).toNat := by
  rw [horder.queuedIn_eq hp hagenda hr]
  cases habout : d.isAbout r with
  | false =>
    rw [if_neg (Duty.isAbout_eq_false.1 habout)]
    simp [losesEnd, hagenda, habout]
  | true =>
    rw [if_pos (Duty.isAbout_iff.1 habout)]
    cases hevent : d.event? with
    | none => simp [losesEnd, hagenda, Duty.sends, Duty.tellsEnd, hevent]
    | some e =>
      cases hlive : run.isLive <;> cases hend : tellsEnd (.event e) <;>
        simp [losesEnd, hagenda, habout, hr, Duty.sends, Duty.tellsEnd, hevent, gated, hlive, hend]

/-! ## Who claims to tell it -/

@[simp] theorem Duty.tellsEnd_emit (r : RunId) (e : Event) :
    (Duty.run r (.emit e)).tellsEnd = Session.tellsEnd (.event e) := rfl

@[simp] theorem Duty.tellsEnd_thread (r : RunId) (d : ThreadDuty) :
    (Duty.thread r d).tellsEnd = false := rfl

@[simp] theorem Duty.tellsEnd_unlock (r : RunId) : (Duty.run r .unlock).tellsEnd = false := rfl

@[simp] theorem tellsEnd_output (category text : String) :
    tellsEnd (.event (output category text)) = false := by
  simp [tellsEnd, output, terminated]

@[simp] theorem tellsEnd_consoleText (text : String) :
    tellsEnd (.event (consoleText text)) = false :=
  tellsEnd_output _ _

@[simp] theorem tellsEnd_written (channel : Channel) (text : String) :
    tellsEnd (.event (written channel text)) = false :=
  tellsEnd_output _ _

@[simp] theorem tellsEnd_console (clientPath name : String) (data : Json) :
    tellsEnd (.event (console clientPath name data)) = false :=
  tellsEnd_output _ _

@[simp] theorem tellsEnd_stopped (reason : StopReason) :
    tellsEnd (.event (stopped reason)) = false := by
  simp [tellsEnd, stopped, terminated]

@[simp] theorem tellsEnd_continued : tellsEnd (.event continued) = false := by
  simp [tellsEnd, continued, terminated]

theorem tellsEnd_initialized : tellsEnd (.event initialized) = false := by
  simp [tellsEnd, initialized, terminated]

@[simp] theorem tellsEnd_terminated : tellsEnd (.event terminated) = true := by
  simp [tellsEnd]

theorem tellsEnd_of_mem_stallThen {line : UInt32} {late : Bool} {d : ThreadDuty} :
    ∀ e ∈ stallThen b s r line late d, e.tellsEnd = false := by
  unfold stallThen
  split <;> simp

theorem tellsEnd_of_mem_afterCheck {line : UInt32} {suspends : Bool} {d : ThreadDuty} :
    ∀ e ∈ afterCheck b s r line suspends d, e.tellsEnd = false := by
  unfold afterCheck
  split
  · exact tellsEnd_of_mem_stallThen
  · simp

theorem tellsEnd_of_mem_stopDuties {span : Script.Span} {reason : StopReason} :
    ∀ e ∈ stopDuties r run span reason, e.tellsEnd = false := by
  simp [stopDuties, pauseNote, Duty.tellsEnd, Duty.event?]

theorem tellsEnd_of_mem_endDuties {ending : Ending} :
    ∀ e ∈ endDuties r run ending, e.tellsEnd = false := by
  have hheld (channel : Channel) : ∀ e ∈ heldNotes run channel, tellsEnd (.event e) = false := by
    simp [heldNotes]
  have hnote : ∀ e ∈ endingNote run.clientPath ending, tellsEnd (.event e) = false := by
    unfold endingNote
    split <;> simp [resultNote, errorNote]
  intro e he
  simp only [endDuties, List.mem_append, List.mem_map, List.mem_cons, List.not_mem_nil,
    or_false] at he
  rcases he with ⟨note, (hmem | hmem) | hmem, rfl⟩ | rfl | rfl
  · exact hheld _ note hmem
  · exact hheld _ note hmem
  · exact hnote note hmem
  · rfl
  · rfl

/-- What comes next for a thread does not tell its end. -/
theorem ThreadDuty.tellsEnd_of_mem_next {d : ThreadDuty} (hd : d.perform? b s r run = some done) :
    ∀ e ∈ done.next, e.tellsEnd = false := by
  unfold perform? at hd
  split at hd
  · cases d <;> simp only [performIdle?] at hd <;> (repeat' split at hd) <;> cases hd
    all_goals first
      | exact tellsEnd_of_mem_endDuties
      | simp
  · cases d
    case perform =>
      simp only [performAt?] at hd
      split at hd <;> cases hd
      · simp
      · simp only [List.forall_mem_append, List.forall_mem_map]
        simp
      · simp
    all_goals
      simp only [performAt?, performIdle?] at hd
      (repeat' split at hd) <;> cases hd <;> first
        | exact tellsEnd_of_mem_stallThen
        | exact tellsEnd_of_mem_afterCheck
        | exact tellsEnd_of_mem_stopDuties
        | exact tellsEnd_of_mem_endDuties
        | simp

theorem ThreadDuty.Leaves.terminated {run' : Run} {d : ThreadDuty} (h : d.Leaves r run run') :
    run'.terminated = run.terminated := by
  cases h <;> rfl

theorem countP_tellsEnd_eq_zero {ds : List Duty} (h : ∀ e ∈ ds, e.tellsEnd = false) :
    ds.countP Duty.tellsEnd = 0 :=
  List.countP_eq_zero.2 fun e he hend => Bool.false_ne_true ((h e he).symm.trans hend)

theorem Duty.tellsEnd_of_isAside {d : Duty} (h : d.isAside = true) : d.tellsEnd = false := by
  cases d with
  | run r d => cases h
  | _ => rfl

/-- What comes next for a request does not tell the end of a run. -/
theorem RequestDuty.Leads.tellsEnd_of_mem_next {d : RequestDuty} (h : d.Leads r run done) :
    ∀ e ∈ done.next, e.tellsEnd = false := by
  cases h with
  | look _ hnext | assign _ _ hnext => exact fun e he => Duty.tellsEnd_of_isAside (hnext e he)
  | start | release | skip | pause =>
    simp +contextual [or_imp, Duty.tellsEnd, Duty.event?, answer]

/-- Only who claims to tell the end of a run is to tell it. -/
theorem Duty.claims_of_stroke? (hsub : d.subject? = some r)
    (hd : d.stroke? b s r run = some done) :
    (done.next.filter (isAbout r)).countP tellsEnd + run.terminated.toNat =
      done.run.terminated.toNat := by
  have hquiet (hnext : ∀ e ∈ done.next, e.tellsEnd = false)
      (hrun : done.run.terminated = run.terminated) :
      (done.next.filter (isAbout r)).countP tellsEnd + run.terminated.toNat =
        done.run.terminated.toNat := by
    rw [countP_tellsEnd_eq_zero fun e he => hnext e (List.mem_filter.1 he).1, hrun, Nat.zero_add]
  cases d with
  | session d => cases hd
  | starter r' d =>
    obtain ⟨hdone, -, -⟩ := StarterDuty.plan_of_perform? hd
    refine hquiet ?_ (by rw [hdone])
    cases d <;> simp only [stroke?, StarterDuty.perform?] at hd <;> (repeat' split at hd) <;>
      cases hd <;> simp [Duty.tellsEnd, Duty.event?, lateNote]
  | request r' d =>
    have hleads := RequestDuty.leads_of_perform? hd
    exact hquiet hleads.tellsEnd_of_mem_next (by cases hleads <;> rfl)
  | thread r' d =>
    exact hquiet (ThreadDuty.tellsEnd_of_mem_next hd) (ThreadDuty.leaves_of_perform? hd).terminated
  | run r' d =>
    cases d <;> simp only [stroke?, RunDuty.perform?] at hd <;> (repeat' split at hd) <;>
      cases hd <;> simp_all [Duty.tellsEnd, Duty.event?, Duty.isAbout, Duty.subject?]

/-! ## Told once or lost -/

theorem Duty.Assigned.tellsEnd {n : Nat} (h : d.Assigned n r) : d.tellsEnd = false := by
  cases h with
  | opening _ hd =>
    simp only [List.mem_cons, List.not_mem_nil, or_false] at hd
    rcases hd with rfl | rfl | rfl
    · exact tellsEnd_initialized
    · rfl
    · rfl
  | giveUp hd =>
    simp only [abandon, List.mem_cons, List.not_mem_nil, or_false] at hd
    rcases hd with rfl | rfl | rfl | rfl <;> rfl
  | _ => rfl

theorem Duty.tellsEnd_of_mem_wakes : ∀ e ∈ d.wakes run, e.tellsEnd = false := by
  unfold wakes
  split <;> simp [Duty.tellsEnd, Duty.event?, startNote]

/-- Whether the end of run `r` was told, lost or is still to be told as often as somebody claimed to
tell it. -/
def State.Accounts (b : Backend) (r : RunId) (es : List (State × Party)) (s : State) : Prop :=
  endsTold b r es + endsLost r es + (s.dues r).countP Duty.tellsEnd =
    (s.runs[r]?.any Run.terminated).toNat

/-- A step that is not on a run tells nothing of it. -/
theorem quiet_of_subject (hagenda : s.agenda p = d :: ds) (hsub : d.subject? ≠ some r) :
    queuedIn b r (s, p) = [] ∧ losesEnd r (s, p) = false := by
  have habout : d.isAbout r = false := Duty.isAbout_eq_false.2 hsub
  simp [queuedIn, losesEnd, hagenda, hsub, habout]

namespace State.Accounts

theorem of_step (h : s.Accounts b r es) (horder : s.Orderly) (hp : s.advance? b p = some t) :
    t.Accounts b r (es ++ [(s, p)]) := by
  unfold Accounts at h ⊢
  rw [endsTold_concat, endsLost_concat]
  cases horder.spends hp r with
  | @own run run₀ run' d ds done hagenda hsub hr hr' hrun hd hrun' hdues =>
    -- The duty that is paid tells the end or loses it, and a claim leaves one more to tell it.
    have htold := horder.told_or_lost hp hagenda hr
    have hclaims := Duty.claims_of_stroke? hsub hd
    have hcount := hdues.countP_eq Duty.tellsEnd
    have hflag : run₀.terminated = run.terminated :=
      (congrArg Run.terminated hrun :)
    have hflag' : run'.terminated = done.run.terminated :=
      (congrArg Run.terminated hrun' :)
    rw [List.countP_cons, List.countP_append, List.countP_append,
      countP_tellsEnd_eq_zero Duty.tellsEnd_of_mem_wakes] at hcount
    rw [Duty.isAbout_iff.2 hsub, Bool.true_and] at htold
    rw [hr, Option.any_some] at h
    rw [hr', Option.any_some, hflag']
    rw [hflag] at hclaims
    cases hend : d.tellsEnd <;>
      simp only [hend, Bool.false_eq_true, reduceIte, Bool.toNat_true, Bool.toNat_false]
        at hcount htold <;>
      omega
  | other hagenda hsub hr hdues =>
    obtain ⟨hqueued, hloses⟩ := quiet_of_subject (b := b) hagenda hsub
    rw [hqueued, hloses, hdues, hr]
    exact h
  | @session d ds hagenda hr hdues =>
    obtain ⟨hqueued, hloses⟩ :=
      quiet_of_subject (b := b) hagenda (by simp [Duty.subject?] : _ ≠ some r)
    have hnew : ∀ e ∈ (d.perform b { s with handler := ds }).2.filter (Duty.isAbout r),
        e.tellsEnd = false := by
      intro e he
      obtain ⟨hmem, habout⟩ := List.mem_filter.1 he
      exact (SessionDuty.assigned_of_mem_perform hmem (Duty.isAbout_iff.1 habout)).tellsEnd
    rw [hqueued, hloses, hdues, List.countP_append, countP_tellsEnd_eq_zero hnew, Nat.zero_add]
    rcases hr with hr | ⟨hnone, _, run, hopens, hr⟩
    · rw [hr]
      exact h
    · rw [hnone] at h
      rw [hr]
      cases hopens
      exact h

theorem of_path (h : State.Path b {} es s) (r : RunId) : s.Accounts b r es := by
  induction h with
  | refl => rfl
  | step hpath hp ih => exact ih.of_step (hpath.orderly orderly_empty) hp
  | accept i _ hi ih =>
    unfold Accounts at ih ⊢
    rw [dues_accept hi]
    cases i <;> exact ih
  | @giveUp es s r' run run' _ hr hgive ih =>
    unfold Accounts at ih ⊢
    rw [dues_setRun hr (by cases hgive <;> rfl) (by cases hgive <;> rfl)]
    have hflag : run'.terminated = run.terminated := by cases hgive <;> rfl
    obtain ⟨hlt, rfl⟩ := List.getElem?_eq_some_iff.1 hr
    by_cases heq : r' = r
    · subst heq
      simpa [setRun, hlt, hflag] using ih
    · simpa [setRun, heq] using ih

end State.Accounts

/-- A run whose end somebody claimed to tell stays so. -/
theorem Run.claimed_stable (b : Backend) (r : RunId) :
    Run.Stable b r (fun _ => True) fun run => run.terminated = true := by
  refine .of_steps (fun _ _ h => h) (fun {run d done} hd h => ?_) (fun hd h => ?_)
    (fun hleaves h => hleaves.terminated.trans h) (fun hgive h => ?_)
  · cases d <;> simp only [RunDuty.perform?] at hd <;> (repeat' split at hd) <;> cases hd <;>
      exact h
  · cases hd <;> exact h
  · cases hgive <;> exact h

/-- Whether a step claims to tell that run `r` is over. -/
def claimsEnd (r : RunId) (e : State × Party) : Bool :=
  match e.1.agenda e.2 with
  | .run r' .claimTerminated :: _ => r' == r
  | _ => false

theorem exists_of_claimsEnd {e : State × Party} (h : claimsEnd r e = true) :
    ∃ ds, e.1.agenda e.2 = .run r .claimTerminated :: ds := by
  unfold claimsEnd at h
  split at h
  next r' ds hagenda =>
    obtain rfl : r' = r := beq_iff_eq.1 h
    exact ⟨ds, hagenda⟩
  · cases h

/-- A claim to tell the end of a run is remembered. -/
theorem State.Path.claimed (h : Path b s es t) (horder : s.Orderly)
    (hclaim : ∃ e ∈ es, claimsEnd r e = true) :
    ∃ run, t.runs[r]? = some run ∧ run.terminated = true := by
  obtain ⟨⟨u, p⟩, he, hclaim⟩ := hclaim
  obtain ⟨ds, hagenda⟩ := exists_of_claimsEnd hclaim
  obtain ⟨es₁, es₂, v, -, h₁, hv, h₂⟩ := h.exists_split he
  have horder := h₁.orderly horder
  suffices hflag : ∃ run, v.runs[r]? = some run ∧ run.terminated = true by
    obtain ⟨run, hr, hflag⟩ := hflag
    exact h₂.keeps (horder.of_stride (horder.stride hv)) (Run.claimed_stable b r) hr hflag
  cases horder.spends hv r with
  | own hagenda' _ _ hr' _ hd hrun' =>
    obtain ⟨rfl, -⟩ := List.cons.inj (hagenda.symm.trans hagenda')
    refine ⟨_, hr', (congrArg Run.terminated hrun' :).trans ?_⟩
    simp only [Duty.stroke?, RunDuty.perform?] at hd
    split at hd <;> obtain rfl := Option.some.inj hd
    · assumption
    · rfl
  | other hagenda' hsub =>
    obtain ⟨rfl, -⟩ := List.cons.inj (hagenda.symm.trans hagenda')
    exact absurd rfl hsub
  | session hagenda' => cases hagenda.symm.trans hagenda'

/-- Whoever takes which step, the client is told at most once that a run is over. Once somebody
claimed to tell it and nobody has it to do any more, the client was told, unless the run was silent
by then. -/
theorem end_told_or_lost (h : State.Path b {} es s) (r : RunId) :
    endsTold b r es ≤ 1 ∧
      ((∃ e ∈ es, claimsEnd r e = true) → (∀ d ∈ s.dues r, d.tellsEnd = false) →
        (endsTold b r es = 1 ↔ ∀ e ∈ es, losesEnd r e = false)) := by
  have haccounts := State.Accounts.of_path h r
  unfold State.Accounts at haccounts
  refine ⟨?_, fun hclaim hdone => ?_⟩
  · have hle := Bool.toNat_le (s.runs[r]?.any Run.terminated)
    omega
  · obtain ⟨run, hr, hflag⟩ := h.claimed State.orderly_empty hclaim
    rw [hr, Option.any_some, hflag, countP_tellsEnd_eq_zero hdone, Bool.toNat_true] at haccounts
    have hlost : endsLost r es = 0 ↔ ∀ e ∈ es, losesEnd r e = false := by
      simp [endsLost, List.countP_eq_zero]
    rw [← hlost]
    omega

open State (asked taken) in
/-- A script runs to its end, and claims to tell so. -/
def endOnce : List State.Turn :=
  asked "launch" (.object [("path", .string "a")]) :: taken 6 .handler ++ taken 10 (.starter 0) ++
    taken 11 (.thread 0)

open State (asked taken) in
/-- A request to terminate is handled before the script that ended tells so, and nobody does. -/
theorem end_lost_terminateLate : ∃ es s run, State.Path promptBackend {} es s ∧
    (∃ e ∈ es, claimsEnd 0 e = true ∧ e.2 = .thread 0) ∧
    (∃ e ∈ es, claimsEnd 0 e = true ∧ e.2 = .handler) ∧
    s.handler = [] ∧ s.runs[0]? = some run ∧ run.starter = [] ∧ run.thread = [] ∧
    endsTold promptBackend 0 es = 0 := by
  have hwalk : (({} : State).walk? promptBackend
      (endOnce ++ asked "terminate" .null :: taken 8 .handler ++ taken 1 (.thread 0))).any
      (fun w => w.1.any (fun e => claimsEnd 0 e && e.2 == .thread 0) &&
        w.1.any (fun e => claimsEnd 0 e && e.2 == .handler) && w.2.handler.isEmpty &&
        w.2.runs[0]?.any (fun run => run.starter.isEmpty && run.thread.isEmpty) &&
        endsTold promptBackend 0 w.1 == 0) = true := by
    decide +kernel
  obtain ⟨⟨es, s⟩, hw, hfacts⟩ := (Option.any_eq_true ..).1 hwalk
  simp only [Bool.and_eq_true, List.any_eq_true, beq_iff_eq, List.isEmpty_iff] at hfacts
  obtain ⟨⟨⟨⟨hthread, hhandler⟩, hidle⟩, hrun⟩, htold⟩ := hfacts
  obtain ⟨run, hr, hdone⟩ := (Option.any_eq_true ..).1 hrun
  simp only [Bool.and_eq_true, List.isEmpty_iff] at hdone
  exact ⟨es, s, run, State.Path.refl.walk hw, hthread, hhandler, hidle, hr, hdone.1, hdone.2, htold⟩

/-! ## After the end -/

/-- Whether a duty sends an event, or may lead to one even when its script is over. -/
def Duty.mayTell : Duty → Bool
  | .run _ (.emit _) | .starter _ (.lookEntry _) | .starter _ (.lookClock _) => true
  | _ => false

/-- Whether the script of run `r` is over, but for its thread to tell so. -/
structure Run.Over (r : RunId) (run : Run) : Prop where
  phase : run.phase = .terminated
  thread : run.thread = [.run r .claimTerminated] ∨
    run.terminated = true ∧ (run.thread = [.run r (.emit Session.terminated)] ∨ run.thread = [])

/-- Whether a step leaves the script of run `r` over. -/
def leavesOver (r : RunId) (e : State × Party) : Prop :=
  ∀ d, (e.1.agenda e.2).head? = some (.run r d) →
    d ≠ .spawn ∧ ∀ phase, d = .setPhase phase → phase = .terminated

theorem Run.Over.stable (b : Backend) (r : RunId) : Run.Stable b r (leavesOver r) (Run.Over r) where
  starter _ h := ⟨h.phase, h.thread⟩
  duty {s p run d done} hA hhead _ hd h := by
    obtain ⟨hspawn, hphase⟩ := hA d hhead
    cases d <;> simp only [RunDuty.perform?] at hd <;> (repeat' split at hd) <;> cases hd
    case spawn => exact absurd rfl hspawn
    case setPhase => exact ⟨hphase _ rfl, h.thread⟩
    all_goals exact ⟨h.phase, h.thread.imp_right fun ht => ⟨by first | exact ht.1 | rfl, ht.2⟩⟩
  request {run d done} hd h := by
    cases hd with
    | release request how hfree hpaused => cases h.phase.symm.trans hpaused
    | _ => exact ⟨h.phase, h.thread⟩
  thread {s run d ds done} _ _ _ hds hd h := by
    rcases h.thread with hclaim | ⟨hflag, htell | hnil⟩
    · obtain ⟨rfl, rfl⟩ := List.cons.inj (hds.symm.trans hclaim)
      simp only [Duty.stroke?, RunDuty.perform?] at hd
      split at hd <;> obtain rfl := Option.some.inj hd
      next hflag => exact ⟨h.phase, .inr ⟨hflag, .inr rfl⟩⟩
      · exact ⟨h.phase, .inr ⟨rfl, .inl rfl⟩⟩
    · obtain ⟨rfl, rfl⟩ := List.cons.inj (hds.symm.trans htell)
      obtain rfl := Option.some.inj hd
      exact ⟨h.phase, .inr ⟨hflag, .inr rfl⟩⟩
    · cases hds.symm.trans hnil
  givenUp hgive h := by
    cases hgive with
    | terminate => exact ⟨rfl, h.thread⟩
    | _ => exact ⟨h.phase, h.thread⟩

/-- A run that has begun is not marked as anything but over by others. -/
theorem State.Begun.leavesOver (hbegun : s.Begun r) (horder : s.Orderly) {d : RunDuty}
    (hagenda : s.agenda p = .run r d :: ds) :
    d ≠ .spawn ∧ ∀ phase, d = .setPhase phase → phase = .terminated := by
  obtain ⟨run, hr, hrun⟩ := hbegun
  have hown := horder.belongsTo hagenda
  cases p with
  | handler =>
    have hs : s.handler = .run r d :: ds := hagenda
    have hplan := horder.handler
    have hspawn := hrun.handler
    have horder := horder.runs hr
    rw [hs] at hplan hspawn horder
    refine ⟨fun hd => hspawn (by simp [hd]), fun phase hd => ?_⟩
    subst hd
    cases phase with
    | launching | paused => exact hplan.1.elim
    | awaitingBreakpoints =>
      obtain ⟨m, rfl⟩ := hplan.1
      cases hrun.started.symm.trans (horder.scheduled (by simp)).1
    | running =>
      obtain rfl : ds = _ := hplan.1
      exact absurd (by simp) hspawn
    | terminated => rfl
  | starter r' =>
    obtain rfl : r = r' := hown
    have hstarter : run.starter = .run r d :: ds := by simpa [agenda, hr] using hagenda
    have hplan := (horder.runs hr).starter
    have hspawn := hrun.starter
    rw [hstarter] at hplan hspawn
    cases hplan with
    | running | spawn => exact absurd (by simp) hspawn
    | _ => simp
  | thread r' =>
    obtain rfl : r = r' := hown
    have hthread : run.thread = .run r d :: ds := by simpa [agenda, hr] using hagenda
    have hplan := (horder.runs hr).thread
    rw [hthread] at hplan
    generalize decide (run.lock = some (.thread r)) = holds at hplan
    cases hplan <;> simp

/-- A script that is over stays over. -/
theorem State.Path.over (h : Path b s es t) (horder : s.Orderly) (hbegun : s.Begun r)
    (hr : s.runs[r]? = some run) (hover : run.Over r) :
    t.Begun r ∧ ∃ run', t.runs[r]? = some run' ∧ run'.Over r := by
  have hbegun' := (h.not_spawn horder hbegun).1
  obtain ⟨run', hr', -⟩ := hbegun'
  refine ⟨(h.not_spawn horder hbegun).1, run', hr', (Run.Over.stable b r).of_path h horder
    (fun e he => ?_) (fun hnone => ?_) (fun run₀ hr₀ => ?_) hr'⟩
  · obtain ⟨es₁, -, -, -, h₁, -, -⟩ := h.exists_split he
    intro d hhead
    cases hagenda : e.1.agenda e.2 with
    | nil => simp [hagenda] at hhead
    | cons d' ds =>
      obtain rfl : d' = .run r d := by simpa [hagenda] using hhead
      exact (h₁.not_spawn horder hbegun).1.leavesOver (h₁.orderly horder) hagenda
  · cases hr.symm.trans hnone
  · obtain rfl := Option.some.inj (hr.symm.trans hr₀)
    exact hover

theorem length_gated_le (run : Run) (e : Event) : (gated run e).length ≤ 1 := by
  unfold gated
  split <;> simp

/-- What is done about a run whose script is over tells nothing that was not under way. -/
theorem Duty.mayTell_of_stroke? (hsub : d.subject? = some r)
    (hd : d.stroke? b s r run = some done) (hphase : run.phase = .terminated)
    (hstarted : run.started = true) (hflag : run.terminated = true)
    (hthread : ∀ d', d ≠ .thread r d') :
    (done.next.filter (isAbout r)).countP mayTell + (d.sends run).length ≤ d.mayTell.toNat := by
  cases d with
  | session d => cases hd
  | thread r' d =>
    obtain rfl : r' = r := Option.some.inj hsub
    exact absurd rfl (hthread d)
  | starter r' d =>
    cases d <;> simp only [stroke?, StarterDuty.perform?] at hd <;> (repeat' split at hd) <;>
      cases hd <;> simp_all [mayTell, sends, event?, isAbout, subject?, List.countP_cons]
  | request r' d =>
    have haside (hnext : ∀ e ∈ done.next, e.isAside = true) :
        (done.next.filter (isAbout r)).countP mayTell = 0 := by
      refine List.countP_eq_zero.2 fun e he htell => ?_
      have he := hnext e (List.mem_filter.1 he).1
      cases e with
      | request => cases htell
      | _ => first | cases he | cases htell
    have hsends : (Duty.request r' d).sends run = [] := rfl
    rw [hsends]
    cases RequestDuty.leads_of_perform? hd with
    | look _ hnext | assign _ _ hnext => exact Nat.le_of_eq (haside hnext)
    | start _ hunstarted => cases hstarted.symm.trans hunstarted
    | release _ _ _ hpaused => cases hphase.symm.trans hpaused
    | skip _ _ _ hrunning | pause _ _ hrunning => cases hphase.symm.trans hrunning
  | run r' d =>
    cases d <;> simp only [stroke?, RunDuty.perform?] at hd <;> (repeat' split at hd) <;>
      cases hd <;> simp_all [mayTell, sends, event?, isAbout, subject?]
    exact length_gated_le run _

theorem Duty.Assigned.mayTell {n : Nat} (h : d.Assigned n r) (hold : r < n) :
    d.mayTell = false := by
  cases h with
  | opening hnew => exact absurd hold (by simp [hnew])
  | giveUp hd =>
    simp only [abandon, List.mem_cons, List.not_mem_nil, or_false] at hd
    rcases hd with rfl | rfl | rfl | rfl <;> rfl
  | _ => rfl

theorem Duty.mayTell_of_wakes (hsub : d.subject? = some r) (hspawn : d ≠ .run r .spawn) :
    (d.wakes run).countP mayTell = 0 := by
  unfold wakes
  split
  · obtain rfl := Option.some.inj hsub
    exact absurd rfl hspawn
  · rfl
  · rfl

/-- The thread of a script that is over only has to tell so. -/
theorem Run.Over.ne_thread (hover : run.Over r) (horder : s.Orderly) (hr : s.runs[r]? = some run)
    (hagenda : s.agenda p = d :: ds) (d' : ThreadDuty) : d ≠ .thread r d' := by
  rintro rfl
  have hown := horder.belongsTo hagenda
  cases p with
  | handler | starter => exact hown.elim
  | thread r' =>
    obtain rfl : r = r' := hown
    have hthread : run.thread = .thread r d' :: ds := by simpa [State.agenda, hr] using hagenda
    rcases hover.thread with hclaim | ⟨-, htell | hnil⟩
    · cases hthread.symm.trans hclaim
    · cases hthread.symm.trans htell
    · cases hthread.symm.trans hnil

/-- A step uses up what was under way for a script that is over. -/
theorem State.Orderly.tells_no_more (horder : s.Orderly) (hp : s.advance? b p = some t)
    (hbegun : s.Begun r) (hr : s.runs[r]? = some run) (hover : run.Over r)
    (hflag : run.terminated = true) :
    (queuedIn b r (s, p)).length + (t.dues r).countP Duty.mayTell ≤
      (s.dues r).countP Duty.mayTell := by
  cases horder.spends hp r with
  | @own run' run₀ _ d ds done hagenda hsub hr' _ hrun hd _ hdues =>
    obtain rfl := Option.some.inj (hr.symm.trans hr')
    have hspawn : d ≠ .run r .spawn := by
      rintro rfl
      exact (hbegun.leavesOver horder hagenda).1 rfl
    have hlive : run₀.isLive = run.isLive := (congrArg Run.isLive hrun :)
    have hstarted : run.started = true := by
      obtain ⟨run', hr', hrun'⟩ := hbegun
      obtain rfl := Option.some.inj (hr.symm.trans hr')
      exact hrun'.started
    have hle := Duty.mayTell_of_stroke? hsub hd ((congrArg Run.phase hrun :).trans hover.phase)
      ((congrArg Run.started hrun :).trans hstarted)
      ((congrArg Run.terminated hrun :).trans hflag) (hover.ne_thread horder hr hagenda)
    have hcount := hdues.countP_eq Duty.mayTell
    rw [List.countP_cons, List.countP_append, List.countP_append,
      Duty.mayTell_of_wakes hsub hspawn] at hcount
    rw [horder.queuedIn_eq hp hagenda hr, if_pos hsub, ← Duty.sends_congr hlive]
    cases htell : d.mayTell <;>
      simp only [htell, Bool.false_eq_true, reduceIte, Bool.toNat_true, Bool.toNat_false]
        at hcount hle <;>
      omega
  | other hagenda hsub hr hdues =>
    rw [(quiet_of_subject (b := b) hagenda hsub).1, hdues]
    exact Nat.le_of_eq (Nat.zero_add _)
  | @session d ds hagenda hr' hdues =>
    have hnew : ((d.perform b { s with handler := ds }).2.filter (Duty.isAbout r)).countP
        Duty.mayTell = 0 := by
      refine List.countP_eq_zero.2 fun e he htell => ?_
      obtain ⟨hmem, habout⟩ := List.mem_filter.1 he
      have hassigned := SessionDuty.assigned_of_mem_perform hmem (Duty.isAbout_iff.1 habout)
      have hlt : r < s.runs.length := (List.getElem?_eq_some_iff.1 hr).1
      exact Bool.false_ne_true ((hassigned.mayTell hlt).symm.trans htell)
    rw [(quiet_of_subject (b := b) hagenda (by simp [Duty.subject?] : _ ≠ some r)).1, hdues,
      List.countP_append, hnew]
    exact Nat.le_of_eq (by simp)

/-- Whether the thread of run `r` marks it as over. -/
def marksOver (r : RunId) (e : State × Party) : Bool :=
  match e.1.agenda e.2 with
  | .run _ (.setPhase .terminated) :: _ => e.2 == .thread r
  | _ => false

theorem State.Orderly.over_of_marksOver (horder : s.Orderly) (hp : s.advance? b p = some t)
    (hmarks : marksOver r (s, p) = true) :
    t.Begun r ∧ ∃ run, t.runs[r]? = some run ∧ run.Over r := by
  unfold marksOver at hmarks
  split at hmarks
  case h_2 => cases hmarks
  next r' ds hagenda =>
    obtain rfl : p = .thread r := beq_iff_eq.1 hmarks
    have hagenda : s.agenda (.thread r) = .run r' (.setPhase .terminated) :: ds := hagenda
    have hst := horder.stride hp
    have hst' := hst
    cases hst' with
    | @thread _ run d ds' done hs hr hd ht =>
      have hlt : r < s.runs.length := (List.getElem?_eq_some_iff.1 hr).1
      have hbegun : s.Begun r := ⟨run, hr, (horder.runs hr).begun (by simp [hs])⟩
      have hagenda' : s.agenda (.thread r) = d :: ds' := by simp [agenda, hr, hs]
      obtain ⟨rfl, rfl⟩ := List.cons.inj (hagenda.symm.trans hagenda')
      have hr' : t.runs[r]? = some { done.run with thread := done.next ++ done.run.thread } := by
        simp [ht, setRun, send, hlt]
      have hplan := (horder.runs hr).thread
      rw [hs] at hplan
      generalize decide (run.lock = some (.thread r)) = holds at hplan
      cases hplan
      simp only [Duty.stroke?, RunDuty.perform?] at hd
      split at hd <;> cases hd
      exact ⟨hbegun.of_stride horder hst, _, hr', rfl, .inl rfl⟩

/-- Once the thread of a run has marked it as over and the client was told so, no event of the run
is queued but those that were under way then, whoever takes which step. -/
theorem over_run_tells_no_more {es' : List (State × Party)} (h : State.Path b {} es s)
    (hover : ∃ e ∈ es, marksOver r e = true) (htold : endsTold b r es = 1)
    (h' : State.Path b s es' t) :
    (queuedBy b r es').length ≤ (s.dues r).countP Duty.mayTell := by
  have horder := h.orderly State.orderly_empty
  obtain ⟨⟨u, p⟩, he, hmarks⟩ := hover
  obtain ⟨es₁, es₂, v, -, h₁, hv, h₂⟩ := h.exists_split he
  have horder₁ := h₁.orderly State.orderly_empty
  obtain ⟨hbegun, run₁, hr₁, hover⟩ := horder₁.over_of_marksOver hv hmarks
  obtain ⟨hbegun, run, hr, hover⟩ :=
    h₂.over (horder₁.of_stride (horder₁.stride hv)) hbegun hr₁ hover
  have hflag : run.terminated = true := by
    have haccounts := State.Accounts.of_path h r
    rw [State.Accounts, hr, Option.any_some] at haccounts
    cases hflag : run.terminated with
    | true => rfl
    | false =>
      rw [hflag, Bool.toNat_false] at haccounts
      omega
  -- Whatever a step queues it pays for with a due that may tell, and none of these comes new.
  suffices hle : (queuedBy b r es').length + (t.dues r).countP Duty.mayTell ≤
      (s.dues r).countP Duty.mayTell from Nat.le_of_add_right_le hle
  induction h' with
  | refl => simp
  | @step es' u w p hpath hp ih =>
    have horder := hpath.orderly horder
    obtain ⟨hbegun, run', hr', hover'⟩ := hpath.over ‹s.Orderly› hbegun hr hover
    obtain ⟨run'', hr'', hflag'⟩ := hpath.keeps ‹s.Orderly› (Run.claimed_stable b r) hr hflag
    obtain rfl := Option.some.inj (hr'.symm.trans hr'')
    have hstep := horder.tells_no_more hp hbegun hr' hover' hflag'
    rw [queuedBy_append, queuedBy_singleton, List.length_append]
    omega
  | accept i _ hi ih =>
    rw [State.dues_accept hi]
    exact ih
  | giveUp _ hr' hgive ih =>
    rw [State.dues_setRun hr' (by cases hgive <;> rfl) (by cases hgive <;> rfl)]
    exact ih

/-- The name of an event. -/
def eventName? : Outgoing → Option String
  | .event e => some e.name
  | .response _ => none

open State (asked taken) in
/-- A script is asked to pause, and ends before the client is told that it stops. -/
def pauseLate : List State.Turn :=
  asked "launch" (.object [("path", .string "a")]) :: taken 6 .handler ++ taken 10 (.starter 0) ++
    taken 7 (.thread 0) ++ asked "pause" .null :: taken 5 .handler ++ taken 5 (.thread 0)

/-- The client is told that a script stops after it was told that the script is over. -/
theorem stop_told_late : ∃ es s es' t, State.Path promptBackend {} es s ∧
    (∃ e ∈ es, marksOver 0 e = true) ∧ endsTold promptBackend 0 es = 1 ∧
    State.Path promptBackend s es' t ∧
    (queuedBy promptBackend 0 es').filterMap eventName? = ["stopped"] := by
  have hwalk : (({} : State).walk? promptBackend pauseLate).any (fun w =>
      w.1.any (marksOver 0) && endsTold promptBackend 0 w.1 == 1 &&
        (w.2.walk? promptBackend (State.taken 1 .handler)).any fun w' =>
          (queuedBy promptBackend 0 w'.1).filterMap eventName? == ["stopped"]) = true := by
    decide +kernel
  obtain ⟨⟨es, s⟩, hw, hfacts⟩ := (Option.any_eq_true ..).1 hwalk
  simp only [Bool.and_eq_true, List.any_eq_true, beq_iff_eq] at hfacts
  obtain ⟨⟨hover, htold⟩, hlate⟩ := hfacts
  obtain ⟨⟨es', t⟩, hw', hnames⟩ := (Option.any_eq_true ..).1 hlate
  exact ⟨es, s, es', t, State.Path.refl.walk hw, hover, htold, State.Path.refl.walk hw',
    beq_iff_eq.1 hnames⟩

end DebugAdapter.Session
