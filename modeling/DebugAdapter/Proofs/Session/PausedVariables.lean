import DebugAdapter.Proofs.Session.Signals
/-!
# The variables of a paused script

From the moment a thread captured its variables for a stop until it takes over what the client
changed, the variables of the snapshot are those of the script, shadowed by the overrides
(`Run.Faithful`). Once a request to go on is accepted nothing changes them any more
(`Run.Resumed`). Main statement: `vars_eq_scope`, the statement that a script was stopped before is
executed with the variables that the client saw last.
-/

namespace DebugAdapter.Session

/-! ## Between capture and takeover -/

/-- Whether the thread of run `r` captured its variables and did not take over the changes since. -/
def Run.IsCaptured (r : RunId) (run : Run) : Prop :=
  .thread r .capture ∉ run.thread ∧
    (.thread r .park ∈ run.thread ∨ .thread r .takeOverrides ∈ run.thread)

/-- Whether the snapshot of run `r` stands for its variables. -/
structure Run.Faithful (r : RunId) (run : Run) : Prop where
  nodup : run.vars.keys.Nodup
  tracks : run.IsCaptured r → Snapshot.Tracks run.vars run.snapshot

theorem Run.not_isCaptured_of_nil {r : RunId} {run : Run} (h : run.thread = []) :
    ¬run.IsCaptured r := by
  rintro ⟨-, hmem⟩
  simp [h] at hmem

theorem nodup_environment (d : RequestDefaults) : d.environment.keys.Nodup := by
  unfold RequestDefaults.environment
  cases d.requestBody.filter _ <;> cases d.defaultDataSource <;> simp [Table.keys]

/-- What a script does to its variables binds no name twice. -/
theorem nodup_perform {vars vars' : Json.Fields} {a : Script.Action} (h : vars.keys.Nodup)
    (ha : a.perform vars = .proceed vars') : vars'.keys.Nodup := by
  cases a <;> simp only [Script.Action.perform] at ha <;> (try split at ha) <;> cases ha
  exact Table.nodup_keys_insert h _ _

theorem nodup_of_leaves {r : RunId} {run run' : Run} {d : ThreadDuty} (h : d.Leaves r run run')
    (hnodup : run.vars.keys.Nodup) : run'.vars.keys.Nodup := by
  cases h with
  | takeOverrides => exact Table.nodup_keys_insertAll hnodup _
  | perform _ hvars =>
    rcases hvars with rfl | heffect
    · exact hnodup
    · exact nodup_perform hnodup heffect
  | _ => exact hnodup

namespace Run.Faithful

variable {r : RunId} {run run' : Run}

theorem of_run (h : run.Faithful r) (hvars : run'.vars = run.vars)
    (hsnapshot : run.snapshot.Agrees run'.snapshot)
    (hcaptured : run'.IsCaptured r → run.IsCaptured r) : run'.Faithful r where
  nodup := hvars ▸ h.nodup
  tracks hc := by
    rw [hvars]
    exact (h.tracks (hcaptured hc)).of_agrees hsnapshot

theorem of_not_isCaptured (hnodup : run.vars.keys.Nodup) (hc : ¬run.IsCaptured r) :
    run.Faithful r :=
  ⟨hnodup, fun h => absurd h hc⟩

theorem of_duty {d : RunDuty} {done : Done} (h : run.Faithful r) (hapt : d.Apt run)
    (hd : d.perform? r run = some done) : done.run.Faithful r := by
  cases d with
  | spawn =>
    obtain rfl := Option.some.inj hd
    exact of_not_isCaptured h.nodup (by simp [IsCaptured])
  | setPhase | claimTerminated | claimStart =>
    simp only [RunDuty.perform?] at hd
    split at hd <;> cases hd <;> exact h.of_run rfl ⟨rfl, rfl⟩ id
  | _ =>
    obtain rfl := Option.some.inj hd
    exact h.of_run rfl ⟨rfl, rfl⟩ id

theorem of_request {d : RequestDuty} {done : Done} (h : run.Faithful r) (hd : d.Leads r run done) :
    done.run.Faithful r := by
  cases hd with
  | look hagrees => exact h.of_run rfl hagrees id
  | @assign request args snapshot next _ hcall =>
    have hcall := fun hc => (h.tracks hc).call
      (.assign args.reference args.name (parseUserValue args.value))
    subst snapshot
    exact ⟨h.nodup, hcall⟩
  | _ => exact h.of_run rfl ⟨rfl, rfl⟩ id

theorem of_thread {b : Backend} {s : State} {hs : List Duty} {d : Duty} {ds : List Duty}
    {done : Done} (h : run.Faithful r) (horder : run.Orderly r hs) (hthread : run.thread = d :: ds)
    (hd : d.stroke? b s r { run with thread := ds } = some done) :
    Run.Faithful r { done.run with thread := done.next ++ done.run.thread } := by
  have hplan := horder.thread
  rw [hthread] at hplan
  generalize decide (run.lock = some (.thread r)) = holds at hplan
  cases hplan with
  | emit | unlock =>
    obtain rfl := Option.some.inj hd
    exact h.of_run rfl ⟨rfl, rfl⟩ (by simp [IsCaptured, hthread])
  | finish | claim =>
    simp only [Duty.stroke?, RunDuty.perform?] at hd
    split at hd <;> cases hd <;> exact h.of_run rfl ⟨rfl, rfl⟩ (by simp [IsCaptured])
  | @stall since d' hafter =>
    obtain rfl := ThreadDuty.eq_of_stall hd
    refine of_not_isCaptured h.nodup ?_
    rcases hafter with rfl | rfl <;> simp [IsCaptured]
  | capture e e' =>
    have hrest : run.rest ≠ [] := fun hnil => by
      cases horder.statement hnil .capture (by simp [hthread])
    obtain ⟨stmt, rest, -, rfl⟩ := ThreadDuty.eq_of_capture hd hrest
    exact ⟨h.nodup, fun _ => Snapshot.tracks_capture _ _⟩
  | markPaused e e' =>
    have hd : ThreadDuty.markPaused.perform? b s r _ = some done := hd
    rw [ThreadDuty.perform?_markPaused] at hd
    obtain rfl := Option.some.inj hd
    exact h.of_run rfl ⟨rfl, rfl⟩ (by simp [IsCaptured, hthread])
  | @last _ d hlast =>
    have hleaves := ThreadDuty.leaves_of_perform? hd
    have hkept := hleaves.kept
    by_cases hpark : d = .park
    · subst hpark
      have hsnapshot : done.run.snapshot = run.snapshot := hleaves.snapshot (by simp) (by simp)
      refine h.of_run (hleaves.vars (by simp) (by simp)) ?_ ?_
      · exact ⟨congrArg _ hsnapshot, congrArg _ hsnapshot⟩
      · simp [IsCaptured, hthread]
    · have hnodup : done.run.vars.keys.Nodup := nodup_of_leaves hleaves h.nodup
      refine of_not_isCaptured hnodup ?_
      rw [hkept.thread]
      simp only [IsCaptured, List.append_nil]
      rintro ⟨hcapture, hmem | hmem⟩
      · exact hcapture (ThreadDuty.stop_mem_next hd hmem).1
      · exact hpark (ThreadDuty.eq_park_of_mem_next hd hmem)

theorem of_opens {b : Backend} {s : State} (h : s.Opens b run) : run.Faithful r := by
  cases h with
  | opened => exact of_not_isCaptured (nodup_environment _) (not_isCaptured_of_nil rfl)

/-- The snapshot of a stopped script stands for its variables, whatever anyone does. -/
theorem stable (b : Backend) (r : RunId) :
    Run.Stable b r (fun _ => True) fun run => run.Faithful r where
  starter _ h := h.of_run rfl ⟨rfl, rfl⟩ id
  duty _ _ hapt hd h := h.of_duty hapt hd
  request hd h := h.of_request hd
  thread _ _ horder hthread hd h := h.of_thread horder hthread hd
  givenUp hgive h := by cases hgive <;> exact h.of_run rfl ⟨rfl, rfl⟩ id

end Run.Faithful

/-! ## After a request to go on -/

/-- Whether in a step the thread of run `r` executes a statement. -/
def executes (r : RunId) : State × Party → Bool
  | (s, .thread r') =>
    match s.agenda (.thread r') with
    | .thread _ .perform :: _ => r' == r
    | _ => false
  | _ => false

/-- Whether run `r` was let go on when the client saw the variables `vars`, and did not execute a
statement since: its thread is still to take over the client's changes, has taken them over, or was
abandoned. -/
structure Run.Resumed (r : RunId) (vars : Variables) (run : Run) : Prop where
  faithful : run.Faithful r
  phase : run.phase ≠ .paused
  seen : run.snapshot.vars = vars
  course : (run.IsCaptured r ∧ .thread r .markPaused ∉ run.thread) ∨
    (run.thread = [.thread r .perform] ∧
      ∀ key, run.vars.get? key = (Table.ofList vars).get? key) ∨
    ∀ d, .thread r d ∈ run.thread → ∃ e, d = .conclude e

namespace Run.Resumed

variable {r : RunId} {vars : Variables} {run run' : Run}

theorem of_run (h : run.Resumed r vars) (hfaithful : run'.Faithful r)
    (hphase : run'.phase ≠ .paused) (hseen : run'.snapshot.vars = run.snapshot.vars)
    (hvars : run'.vars = run.vars) (hthread : run'.thread = run.thread) : run'.Resumed r vars where
  faithful := hfaithful
  phase := hphase
  seen := hseen.trans h.seen
  course := by
    rw [IsCaptured, hvars, hthread]
    exact h.course

theorem of_duty {d : RunDuty} {done : Done} (h : run.Resumed r vars) (hapt : d.Apt run)
    (hspawn : d ≠ .spawn) (hd : d.perform? r run = some done) : done.run.Resumed r vars := by
  have hfaithful := h.faithful.of_duty hapt hd
  cases d with
  | spawn => exact absurd rfl hspawn
  | setPhase phase =>
    simp only [RunDuty.perform?] at hd
    split at hd <;> cases hd
    refine h.of_run hfaithful ?_ rfl rfl rfl
    rintro rfl
    exact hapt
  | claimTerminated | claimStart =>
    simp only [RunDuty.perform?] at hd
    split at hd <;> cases hd <;> exact h.of_run hfaithful h.phase rfl rfl rfl
  | _ =>
    obtain rfl := Option.some.inj hd
    exact h.of_run hfaithful h.phase rfl rfl rfl

theorem of_request {d : RequestDuty} {done : Done} (h : run.Resumed r vars)
    (hd : d.Leads r run done) : done.run.Resumed r vars := by
  have hfaithful := h.faithful.of_request hd
  cases hd with
  | look hagrees => exact h.of_run hfaithful h.phase hagrees.1 rfl rfl
  | assign hpaused => exact absurd hpaused h.phase
  | release _ _ _ hpaused => exact absurd hpaused h.phase
  | _ => exact h.of_run hfaithful h.phase rfl rfl rfl

theorem of_thread {b : Backend} {s : State} {hs : List Duty} {d : Duty} {ds : List Duty}
    {done : Done} (h : run.Resumed r vars) (horder : run.Orderly r hs)
    (hthread : run.thread = d :: ds) (hperform : d ≠ .thread r .perform)
    (hd : d.stroke? b s r { run with thread := ds } = some done) :
    Run.Resumed r vars { done.run with thread := done.next ++ done.run.thread } := by
  have hfaithful := h.faithful.of_thread horder hthread hd
  have hcourse := h.course
  have hplan := horder.thread
  rw [hthread] at hplan
  simp only [IsCaptured, hthread] at hcourse
  generalize decide (run.lock = some (.thread r)) = holds at hplan
  cases hplan with
  | emit | unlock =>
    obtain rfl := Option.some.inj hd
    refine ⟨hfaithful, h.phase, h.seen, ?_⟩
    rcases hcourse with hcourse | ⟨hcourse, -⟩ | hcourse
    · exact .inl (by simpa [IsCaptured] using hcourse)
    · cases hcourse
    · exact .inr (.inr fun d hm => hcourse d (by simp_all))
  | finish =>
    simp only [Duty.stroke?, RunDuty.perform?] at hd
    split at hd <;> cases hd
    exact ⟨hfaithful, (by simp), h.seen, .inr (.inr (by simp))⟩
  | claim =>
    simp only [Duty.stroke?, RunDuty.perform?] at hd
    split at hd <;> cases hd <;> exact ⟨hfaithful, h.phase, h.seen, .inr (.inr (by simp))⟩
  | @stall since d' hafter =>
    rcases hafter with rfl | rfl <;> simp at hcourse
  | capture | markPaused =>
    simp [publication] at hcourse
  | @last _ d hlast =>
    rcases hcourse with ⟨⟨-, hcourse⟩, -⟩ | ⟨hcourse, -⟩ | hcourse
    · rcases hcourse with hpark | htake
      · obtain rfl : .park = d := by simpa using hpark
        rcases ThreadDuty.cases_of_park hd with ⟨_, -, rfl⟩ | ⟨-, rfl⟩
        · exact ⟨hfaithful, h.phase, h.seen, .inl (by simp [IsCaptured])⟩
        · exact ⟨hfaithful, h.phase, h.seen, .inr (.inr (by simp))⟩
      · obtain rfl : .takeOverrides = d := by simpa using htake
        have hd : ThreadDuty.takeOverrides.perform? b s r _ = some done := hd
        rw [ThreadDuty.perform?_takeOverrides] at hd
        obtain rfl := Option.some.inj hd
        have htracks := h.faithful.tracks (by simp [IsCaptured, hthread])
        refine ⟨hfaithful, h.phase, h.seen, .inr (.inl ⟨rfl, fun key => ?_⟩)⟩
        rw [← h.seen]
        exact htracks.get?_insertAll
          (fun key => (Table.find?_eq_get? h.faithful.nodup key).symm) key
    · exact absurd (List.cons.inj hcourse).1 hperform
    · obtain ⟨ending, rfl⟩ := hcourse d (by simp)
      have hd : (ThreadDuty.conclude ending).perform? b s r _ = some done := hd
      rw [ThreadDuty.perform?_conclude] at hd
      obtain rfl := Option.some.inj hd
      refine ⟨hfaithful, h.phase, h.seen, .inr (.inr fun d hm => ?_)⟩
      simp only [List.append_nil] at hm
      exact absurd hm (not_thread_mem_endDuties r _ ending d)

/-- Nothing but the execution of a statement changes what the client saw last. -/
theorem stable (b : Backend) (r : RunId) (vars : Variables) :
    Run.Stable b r (fun e => executes r e = false ∧ (e.1.agenda e.2).head? ≠ some (.run r .spawn))
      fun run => run.Resumed r vars where
  starter _ h := h.of_run ((Run.Faithful.stable b r).starter _ h.faithful) h.phase rfl rfl rfl
  duty hA hhead hapt hd h := h.of_duty hapt (fun heq => hA.2 (heq ▸ hhead)) hd
  request hd h := h.of_request hd
  thread hA hr horder hthread hd h := by
    refine h.of_thread horder hthread (fun heq => ?_) hd
    have hexecutes := hA.1
    simp [executes, State.agenda, hr, hthread, heq] at hexecutes
  givenUp hgive h := by
    have hfaithful := (Run.Faithful.stable b r).givenUp hgive h.faithful
    cases hgive with
    | terminate => exact h.of_run hfaithful (by simp) rfl rfl rfl
    | _ => exact h.of_run hfaithful h.phase rfl rfl rfl

end Run.Resumed

/-! ## Paused scripts -/

/-- Whether the thread of run `r` is about to end it. -/
def Run.Ends (r : RunId) (run : Run) : Prop :=
  (∃ e, .thread r (.conclude e) ∈ run.thread) ∨ .run r (.setPhase .terminated) ∈ run.thread

/-- Whether run `r` is paused only while its thread is stopped, or about to end it. -/
def Run.Halts (r : RunId) (run : Run) : Prop :=
  run.phase = .paused → run.AtStop r ∨ run.Ends r

namespace Run.Halts

variable {r : RunId} {run run' : Run}

theorem of_run (h : run.Halts r) (hphase : run'.phase = .paused → run.phase = .paused)
    (hstop : run.AtStop r → run'.AtStop r ∨ run'.Ends r) (hends : run.Ends r → run'.Ends r) :
    run'.Halts r :=
  fun hp => (h (hphase hp)).elim hstop fun he => .inr (hends he)

theorem of_duty {d : RunDuty} {done : Done} (h : run.Halts r) (hapt : d.Apt run)
    (hd : d.perform? r run = some done) : done.run.Halts r := by
  cases d with
  | spawn =>
    obtain rfl := Option.some.inj hd
    have hnil : run.thread = [] := hapt
    exact h.of_run id (by simp [AtStop, hnil]) (by simp [Ends, hnil])
  | setPhase phase =>
    simp only [RunDuty.perform?] at hd
    split at hd <;> cases hd
    rintro rfl
    exact hapt.elim
  | claimTerminated | claimStart =>
    simp only [RunDuty.perform?] at hd
    split at hd <;> cases hd <;> exact h
  | _ =>
    obtain rfl := Option.some.inj hd
    exact h

theorem of_request {d : RequestDuty} {done : Done} (h : run.Halts r) (hd : d.Leads r run done) :
    done.run.Halts r := by
  cases hd with
  | release => exact nofun
  | _ => exact h

theorem of_thread {b : Backend} {s : State} {es : List (State × Party)} {d : Duty} {ds : List Duty}
    {done : Done} (h : run.Halts r) (hpath : State.Path b {} es s) (hr : s.runs[r]? = some run)
    (hthread : run.thread = d :: ds)
    (hd : d.stroke? b s r { run with thread := ds } = some done) :
    Run.Halts r { done.run with thread := done.next ++ done.run.thread } := by
  have hplan := ((hpath.orderly State.orderly_empty).runs hr).thread
  rw [hthread] at hplan
  generalize decide (run.lock = some (.thread r)) = holds at hplan
  cases hplan with
  | emit | unlock =>
    obtain rfl := Option.some.inj hd
    exact h.of_run id (fun hs => .inl (by simpa [AtStop, hthread] using hs))
      (by simp [Ends, hthread])
  | finish =>
    simp only [Duty.stroke?, RunDuty.perform?] at hd
    split at hd <;> cases hd
    intro hpaused
    cases hpaused
  | claim =>
    simp only [Duty.stroke?, RunDuty.perform?] at hd
    split at hd <;> cases hd <;>
      exact h.of_run id (by simp [AtStop, hthread]) (by simp [Ends, hthread])
  | @stall since d' hafter =>
    obtain rfl := ThreadDuty.eq_of_stall hd
    exact h.of_run id (by rcases hafter with rfl | rfl <;> simp [AtStop, hthread])
      (by rcases hafter with rfl | rfl <;> simp [Ends, hthread])
  | capture e e' =>
    have hphase := (ThreadDuty.leaves_of_perform? hd).phase (by simp)
    refine h.of_run (fun hp => hphase ▸ hp) (by simp [AtStop, hthread]) ?_
    simp [Ends, hthread, publication]
  | markPaused e e' =>
    have hd : ThreadDuty.markPaused.perform? b s r _ = some done := hd
    rw [ThreadDuty.perform?_markPaused] at hd
    obtain rfl := Option.some.inj hd
    exact fun _ => .inl (by simp [AtStop, publication])
  | @last _ d hlast =>
    by_cases hpark : d = .park
    · subst hpark
      rcases ThreadDuty.cases_of_park hd with ⟨rendezvous, hwait, rfl⟩ | ⟨-, rfl⟩
      · -- A paused script has no permit, so it was let go on before.
        obtain ⟨hopen, hpermits, -⟩ := Rendezvous.eq_of_signaled hwait
        have hnone := (hpath.balanced.runs hr).none hopen
        intro hphase
        have hzero := hnone fun _ => hphase
        simp only at hpermits
        omega
      · exact fun _ => .inr (.inl ⟨_, List.mem_singleton.2 rfl⟩)
    · have hmark : d ≠ .markPaused := by
        rintro rfl
        cases hlast
      have hphase := (ThreadDuty.leaves_of_perform? hd).phase hmark
      refine h.of_run (fun hp => hphase ▸ hp) (by simp [AtStop, hthread, Ne.symm hpark]) ?_
      rintro (⟨ending, hmem⟩ | hmem)
      · obtain rfl : .conclude ending = d := by simpa [hthread] using hmem
        have hd : (ThreadDuty.conclude ending).perform? b s r _ = some done := hd
        rw [ThreadDuty.perform?_conclude] at hd
        obtain rfl := Option.some.inj hd
        exact .inr (by simp [endDuties])
      · simp [hthread] at hmem

theorem stable (b : Backend) (r : RunId) :
    Run.Stable b r (fun e => ∃ es, State.Path b {} es e.1) fun run => run.Halts r where
  starter _ h := h
  duty _ _ hapt hd h := h.of_duty hapt hd
  request hd h := h.of_request hd
  thread hA hr _ hthread hd h := by
    obtain ⟨es, hpath⟩ := hA
    exact h.of_thread hpath hr hthread hd
  givenUp hgive h := by
    cases hgive with
    | terminate =>
      intro hpaused
      cases hpaused
    | _ => exact h

end Run.Halts

theorem State.Path.faithful {b : Backend} {es : List (State × Party)} {s : State} {r : RunId}
    {run : Run} (h : Path b {} es s) (hr : s.runs[r]? = some run) : run.Faithful r :=
  (Run.Faithful.stable b r).of_path h orderly_empty (fun _ _ => trivial)
    (fun _ _ _ hopens => .of_opens hopens) (by simp) hr

theorem State.Path.halts {b : Backend} {es : List (State × Party)} {s : State} {r : RunId}
    {run : Run} (h : Path b {} es s) (hr : s.runs[r]? = some run) : run.Halts r := by
  refine (Run.Halts.stable b r).of_path h orderly_empty (fun e he => h.exists_of_mem he)
    (fun _ _ _ hopens => ?_) (by simp) hr
  cases hopens
  exact nofun

/-- A thread that is about to end its run does nothing else. -/
theorem ThreadPlan.eq_conclude {r : RunId} {holds : Bool} {ds : List Duty}
    (h : ThreadPlan r holds ds)
    (hends : (∃ e, .thread r (.conclude e) ∈ ds) ∨ .run r (.setPhase .terminated) ∈ ds) :
    ∀ d, .thread r d ∈ ds → ∃ e, d = .conclude e := by
  induction h with
  | out | finish | claim => simp
  | emit _ _ ih | unlock _ ih => simpa using ih (by simpa using hends)
  | stall since hafter => rcases hafter with rfl | rfl <;> simp at hends
  | capture | markPaused => simp [publication] at hends
  | last => simpa [eq_comm] using hends

theorem ThreadPlan.markPaused_mem {r : RunId} {holds : Bool} {ds : List Duty}
    (h : ThreadPlan r holds ds) (hcapture : .thread r .capture ∈ ds) :
    .thread r .markPaused ∈ ds := by
  induction h with
  | out | finish | claim => simp at hcapture
  | emit _ _ ih | unlock _ ih => simpa using ih (by simpa using hcapture)
  | stall since hafter => rcases hafter with rfl | rfl <;> simp at hcapture
  | capture | markPaused => simp
  | last hlast =>
    obtain rfl : ThreadDuty.capture = _ := by simpa using hcapture
    cases hlast

/-- A script that is let go on has captured its variables, or is about to end. -/
theorem State.Path.resumed_of_accept {b : Backend} {es : List (State × Party)} {s t : State}
    {r : RunId} {run : Run} (h : Path b {} es s) (hr : s.runs[r]? = some run)
    (haccepts : acceptsResume r (s, .handler) = true) (hstep : s.advance? b .handler = some t) :
    t.Begun r ∧ ∀ run', t.runs[r]? = some run' → run'.Resumed r run.snapshot.vars := by
  have horder := h.orderly orderly_empty
  have hst := horder.stride hstep
  obtain ⟨request, how, ds, hs, hphase⟩ : ∃ request how ds,
      s.handler = .request r (.resume request how) :: ds ∧ run.phase = .paused := by
    simp only [acceptsResume, hr] at haccepts
    split at haccepts
    next heq hrun =>
      obtain rfl := Option.some.inj hrun
      simp only [Bool.and_eq_true, beq_iff_eq] at haccepts
      obtain ⟨rfl, hphase⟩ := haccepts
      exact ⟨_, _, _, heq, hphase⟩
    · cases haccepts
  have hhalts := h.halts hr hphase
  have hnonempty : run.thread ≠ [] := by
    rintro hnil
    rcases hhalts with ⟨hpark, -⟩ | ⟨e, hends⟩ | hends <;> simp_all
  have hplan := (horder.runs hr).thread
  have hfaithful := h.faithful hr
  refine ⟨State.Begun.of_stride ⟨run, hr, (horder.runs hr).begun hnonempty⟩ horder hst, ?_⟩
  intro run' hr'
  cases hst with
  | session hs' => simp [hs] at hs'
  | handler hs' hsub hrun hd ht =>
    subst ht
    obtain ⟨rfl, rfl⟩ := List.cons.inj (hs.symm.trans hs')
    obtain rfl := Option.some.inj hsub
    obtain rfl := Option.some.inj (hr.symm.trans hrun)
    rcases State.getElem?_setRun hr' with ⟨-, rfl⟩ | ⟨hne, -⟩
    case inr => exact absurd rfl hne
    have hleads : (RequestDuty.resume request how).Leads r run _ :=
      RequestDuty.leads_of_perform?
        (show (RequestDuty.resume request how).perform? b r run = _ from hd)
    have hfaithful' := hfaithful.of_request hleads
    cases hleads with
    | look _ _ hresume => exact absurd hphase (hresume _ _ rfl)
    | skip _ _ _ hrunning => cases hphase.symm.trans hrunning
    | release =>
      refine ⟨hfaithful', (by simp), rfl, ?_⟩
      rcases hhalts with ⟨hpark, hmark⟩ | hends
      · refine .inl ⟨⟨fun hcapture => hmark ?_, .inl hpark⟩, hmark⟩
        exact hplan.markPaused_mem hcapture
      · exact .inr (.inr (hplan.eq_conclude hends))

/-- When a script is paused and a request to go on is accepted, then whoever takes which step, and
whoever gives up the run, the statement that its thread executes next sees the variables that the
snapshot had at the request, and so has the client since. -/
theorem vars_eq_scope {b : Backend} {es es' : List (State × Party)} {s t u : State} {r : RunId}
    {run run' : Run} (h : State.Path b {} es s) (hr : s.runs[r]? = some run)
    (haccepts : acceptsResume r (s, .handler) = true) (hstep : s.advance? b .handler = some t)
    (h' : State.Path b t es' u) (hnone : ∀ e ∈ es', executes r e = false)
    (hr' : u.runs[r]? = some run') (hexecutes : executes r (u, .thread r) = true) :
    (∀ key, run'.vars.get? key = run.snapshot.scope.get? key) ∧
      run'.snapshot.vars = run.snapshot.vars := by
  have horder := (h.step hstep).orderly State.orderly_empty
  obtain ⟨hbegun, hresumed⟩ := h.resumed_of_accept hr haccepts hstep
  have hspawn := (h'.not_spawn horder hbegun).2
  obtain ⟨run₀, hr₀, -⟩ := hbegun
  have hend := (Run.Resumed.stable b r run.snapshot.vars).of_path h' horder
    (fun e he => ⟨hnone e he, hspawn e he⟩) (fun hnil => by cases hr₀.symm.trans hnil) hresumed hr'
  have hone : run'.thread = [.thread r .perform] := by
    have hplan := ((h'.orderly horder).runs hr').thread
    generalize decide (run'.lock = some (.thread r)) = holds at hplan
    simp only [executes, State.agenda, hr', Option.map_some, Option.getD_some] at hexecutes
    split at hexecutes
    next hds =>
      rw [hds] at hplan ⊢
      cases hplan
      rfl
    · cases hexecutes
  refine ⟨?_, hend.seen⟩
  rcases hend.course with ⟨⟨-, hmem⟩, -⟩ | ⟨-, hvars⟩ | hends
  · simp [hone] at hmem
  · exact hvars
  · obtain ⟨e, he⟩ := hends .perform (by simp [hone])
    cases he

/-- The overrides that a snapshot hands over make the captured variables those of the snapshot,
whatever was asked of it, failed or not; they name each variable once and are handed over once. So
a paused script that is let go on executes its statement with the variables that the client saw
last, whoever takes which step. -/
theorem script_sees_snapshot :
    (∀ (vars : Variables) (frames : List StackFrame) (cs : List Snapshot.Call),
      let s := (Snapshot.capture vars frames).calls cs
      (∀ key, ((Table.ofList vars).insertAll s.takeOverrides.1).get? key = s.scope.get? key) ∧
        (s.takeOverrides.1.map Prod.fst).Nodup ∧ s.takeOverrides.2.takeOverrides.1 = []) ∧
    ∀ {b : Backend} {es es' : List (State × Party)} {s t u : State} {r : RunId} {run run' : Run},
      State.Path b {} es s → s.runs[r]? = some run → acceptsResume r (s, .handler) = true →
      s.advance? b .handler = some t → State.Path b t es' u →
      (∀ e ∈ es', executes r e = false) → u.runs[r]? = some run' →
      executes r (u, .thread r) = true →
      (∀ key, run'.vars.get? key = run.snapshot.scope.get? key) ∧
        run'.snapshot.vars = run.snapshot.vars := by
  refine ⟨fun vars frames cs => ?_, vars_eq_scope⟩
  have htracks := (Snapshot.tracks_capture vars frames).calls cs
  exact ⟨htracks.get?_insertAll (Table.get?_ofList vars), htracks.nodup, rfl⟩

open State (asked taken) in
/-- A variable of a stopped script is set. -/
def setOnce : List State.Turn :=
  stopOnce ++
    asked "setVariable" (.object [("variablesReference", Json.ofInt 1), ("name", .string "x"),
      ("value", .string "new")]) :: taken 3 .handler ++
    asked "continue" .null :: taken 1 .handler

theorem script_sees_snapshot_setOnce : ∃ es s t es' u run run',
    State.Path promptBackend {} es s ∧ s.runs[0]? = some run ∧
      s.advance? promptBackend .handler = some t ∧ State.Path promptBackend t es' u ∧
      u.runs[0]? = some run' ∧ executes 0 (u, .thread 0) = true ∧
      (run'.vars.get? "x").bind Json.text? = some "new" := by
  have hwalk : (({} : State).walk? promptBackend setOnce).any (fun w => w.2.runs[0]?.any fun run =>
      acceptsResume 0 (w.2, .handler) &&
        (run.snapshot.scope.get? "x").bind Json.text? == some "new" &&
        (w.2.advance? promptBackend .handler).any fun t =>
          (t.walk? promptBackend (State.taken 5 .handler ++ State.taken 2 (.thread 0))).any
            fun w' => w'.1.all (fun e => !executes 0 e) && w'.2.runs[0]?.isSome &&
              executes 0 (w'.2, .thread 0)) = true := by decide +kernel
  obtain ⟨⟨es, s⟩, hw, hrun⟩ := (Option.any_eq_true ..).1 hwalk
  obtain ⟨run, hr, hfacts⟩ := (Option.any_eq_true ..).1 hrun
  simp only [Bool.and_eq_true, beq_iff_eq] at hfacts
  obtain ⟨⟨haccepts, hx⟩, hfacts⟩ := hfacts
  obtain ⟨t, hstep, hfacts⟩ := (Option.any_eq_true ..).1 hfacts
  obtain ⟨⟨es', u⟩, hw', hfacts⟩ := (Option.any_eq_true ..).1 hfacts
  simp only [Bool.and_eq_true, List.all_eq_true, Bool.not_eq_true', Option.isSome_iff_exists]
    at hfacts
  obtain ⟨⟨hnone, run', hr'⟩, hexecutes⟩ := hfacts
  have hpath : State.Path promptBackend {} es s := State.Path.refl.walk hw
  have hpath' : State.Path promptBackend t es' u := State.Path.refl.walk hw'
  have hvars := (script_sees_snapshot.2 hpath hr haccepts hstep hpath' hnone hr' hexecutes).1 "x"
  exact ⟨es, s, t, es', u, run, run', hpath, hr, hstep, hpath', hr', hexecutes, by rw [hvars, hx]⟩

end DebugAdapter.Session
