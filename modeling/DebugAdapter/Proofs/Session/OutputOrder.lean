import DebugAdapter.Proofs.Session.Told
/-!
# Output before the end

What a script writes, how its execution ended, and that it is over are told in this order, however
the execution ends. As long as its thread is at work the run prints (`Run.Executed`) : what the
thread told and is about to tell are the lines that are complete, and the run holds the rest. The
step that concludes the execution gives the thread all that is left to tell, and from there on
whatever anybody does the thread tells just that (`State.Path.closing`) : first what was held, so
that everything that was written is told by then (`Run.Printed.drained`), next the result or the
error, and last that the script is over. `State.Path.concluded` puts both parts of a path together,
and `output_before_end` adds what a relay does with the texts.
-/

namespace DebugAdapter.Session

open LineBuffer (cut pieces)
open Protocol (Event Outgoing)

variable {b : Backend} {s t : State} {r : RunId} {run run' : Run} {p : Party}
  {es es' : List (State × Party)}

/-! ## Until the execution is over -/

/-- Whether a step concludes the execution of run `r`. -/
def concludes (r : RunId) (e : State × Party) : Prop :=
  e.2 = .thread r ∧ ∃ ending ds, e.1.agenda e.2 = .thread r (.conclude ending) :: ds

/-- How far the execution of a run is after the steps `es`: the thread is at work, or has not begun,
and what it told is what was written; or some step concluded the execution. -/
inductive Run.Executed (r : RunId) (es : List (State × Party)) (s : State) (run : Run) : Prop where
  | printing (hprinted : run.Printed (toldBy r es) (wroteBy r es))
      (hwork : run.AtWork r ∨ run.thread = [] ∧ ∀ e ∈ es, e.2 ≠ .thread r) : Executed r es s run
  | concluded (hwork : ¬run.AtWork r) (hbegun : s.Begun r) (hend : ∃ e ∈ es, concludes r e) :
      Executed r es s run

theorem toldBy_eq_nil (h : ∀ e ∈ es, e.2 ≠ .thread r) : toldBy r es = [] :=
  List.flatMap_eq_nil_iff.2 fun e he => by simp [toldIn, h e he]

theorem wroteBy_eq_nil (h : ∀ e ∈ es, e.2 ≠ .thread r) : wroteBy r es = fun _ => [] := by
  funext c
  exact List.flatMap_eq_nil_iff.2 fun e he => by simp [wroteIn, h e he]

/-- A thread takes no steps as long as there is no run for it. -/
theorem State.Path.ne_thread_of_none (h : Path b s es t) (horder : s.Orderly)
    (hr : t.runs[r]? = none) : ∀ e ∈ es, e.2 ≠ .thread r := by
  rintro ⟨u, p⟩ he rfl
  obtain ⟨es₁, es₂, v, -, h₁, hv, h₂⟩ := h.exists_split he
  have hnone : u.runs[r]? = none :=
    ((Path.refl.step hv).trans h₂).runs_none (h₁.orderly horder) hr
  simp [advance?, agenda, hnone] at hv

namespace Run

/-- What a run prints depends on what it holds and what its thread has to do. -/
theorem Printed.congr {told : List Event} {wrote : Channel → List Char}
    (h : run.Printed told wrote) (hheld : run'.held = run.held)
    (hthread : run'.thread = run.thread) : run'.Printed told wrote :=
  ⟨fun c => by rw [hheld, h.held c], fun c => by rw [hthread, h.texts c], hthread ▸ h.ongoing⟩

/-- A run whose thread has not begun has printed nothing. -/
theorem Executed.of_idle (hheld : run.held = fun _ => []) (hthread : run.thread = [])
    (hes : ∀ e ∈ es, e.2 ≠ .thread r) : run.Executed r es s := by
  refine .printing ⟨fun c => ?_, fun c => ?_, ?_⟩ (.inr ⟨hthread, hes⟩)
  · rw [hheld, wroteBy_eq_nil hes]
    rfl
  · rw [hthread, toldBy_eq_nil hes, wroteBy_eq_nil hes]
    rfl
  · rw [hthread, toldBy_eq_nil hes]
    exact List.not_mem_nil

/-- The execution is as far as it is where nothing else than the state changes. -/
theorem Executed.of_eq (h : run.Executed r es s) (hheld : run'.held = run.held)
    (hthread : run'.thread = run.thread) (hbegun : s.Begun r → t.Begun r) :
    run'.Executed r es t := by
  cases h with
  | printing hprinted hwork =>
    refine .printing (hprinted.congr hheld hthread) ?_
    rwa [AtWork, hthread]
  | concluded hwork hbegun' hend =>
    refine .concluded ?_ (hbegun hbegun') hend
    rwa [AtWork, hthread]

/-- A step that the thread does not take leaves the execution as far as it is. -/
theorem Executed.of_awaits (h : run.Executed r es s) (horder : s.Orderly)
    (hp : s.advance? b p = some t) (hne : p ≠ .thread r)
    (hawaits : run.Awaits r ((s.agenda p).head? = some (.run r .spawn)) run') :
    run'.Executed r (es ++ [(s, p)]) t := by
  cases h with
  | printing hprinted hwork =>
    rw [← toldBy_other hne es, ← wroteBy_other hne es] at hprinted
    rcases hawaits.thread with hthread | ⟨-, hnil, clientPath, key, hthread⟩
    · refine .printing (hprinted.congr hawaits.held hthread) ?_
      rcases hwork with ⟨d, hd⟩ | ⟨hnil, hes⟩
      · exact .inl ⟨d, hthread ▸ hd⟩
      · refine .inr ⟨hthread.trans hnil, fun e he => ?_⟩
        rcases List.mem_append.1 he with he | he
        · exact hes e he
        · rw [List.mem_singleton.1 he]
          exact hne
    · have hstart : pending run'.thread = [startNote clientPath key] := by
        rw [hthread]
        rfl
      have htexts := hprinted.texts
      have hongoing := hprinted.ongoing
      simp only [hnil, pending, List.filterMap_nil, List.append_nil] at htexts hongoing
      refine .printing ⟨fun c => by rw [hawaits.held, hprinted.held c], fun c => ?_, ?_⟩
        (.inl ⟨.reach, by simp [hthread]⟩)
      · rw [← htexts c, hstart, textsTold_append]
        simp [textsTold, startNote]
      · rw [hstart, List.mem_append, List.mem_singleton, not_or]
        exact ⟨hongoing, terminated_ne_output _ _⟩
  | concluded hwork hbegun hend =>
    obtain ⟨hbegun, hspawn⟩ := (State.Path.refl.step hp).not_spawn horder hbegun
    obtain ⟨e, he, hend⟩ := hend
    rcases hawaits.thread with hthread | ⟨hhead, -⟩
    · refine .concluded ?_ hbegun ⟨e, by simp [he], hend⟩
      rwa [Run.AtWork, hthread]
    · exact absurd hhead (hspawn (s, p) (by simp))

/-- A step of the thread takes the execution further. -/
theorem Executed.of_thread {d : Duty} {ds : List Duty} {done : Done}
    (h : run.Executed r es s) (horder : s.Orderly) (hr : s.runs[r]? = some run)
    (hst : s.Stride b t (.thread r)) (hds : run.thread = d :: ds)
    (hd : d.stroke? b s r { run with thread := ds } = some done) :
    Run.Executed r (es ++ [(s, .thread r)]) t
      { done.run with thread := done.next ++ done.run.thread } := by
  have horder' := horder.runs hr
  have hbegun : t.Begun r :=
    State.Begun.of_stride ⟨run, hr, horder'.begun (by simp [hds])⟩ horder hst
  cases h with
  | printing hprinted hwork =>
    have hwork : run.AtWork r := by
      rcases hwork with hwork | ⟨hnil, -⟩
      · exact hwork
      · cases hds.symm.trans hnil
    by_cases hend : ∃ ending, d = .thread r (.conclude ending)
    · obtain ⟨ending, rfl⟩ := hend
      have hlast : ds = [] := horder'.eq_nil_of_isLast hds rfl
      obtain rfl := Option.some.inj ((ThreadDuty.perform?_conclude b s r _ ending).symm.trans hd)
      refine .concluded ?_ hbegun ⟨(s, .thread r), by simp, rfl, ending, ds, ?_⟩
      · rintro ⟨d', hd'⟩
        simp only [hlast, List.append_nil] at hd'
        exact not_thread_mem_endDuties _ _ _ _ hd'
      · simp [State.agenda, hr, hds]
    · obtain ⟨hprinted, hwork⟩ := hprinted.of_thread horder' hds hd hwork
        fun ending hd => hend ⟨ending, hd⟩
      have hwrote : wroteBy r (es ++ [(s, .thread r)]) = fun c =>
          wroteBy r es c ++ writtenOn c (d.writes? run) := funext (wroteBy_thread hr hds es)
      refine .printing ?_ (.inl hwork)
      rwa [toldBy_thread hr hds, hwrote]
  | concluded hwork _ hend =>
    obtain ⟨e, he, hend⟩ := hend
    refine .concluded ?_ hbegun ⟨e, by simp [he], hend⟩
    obtain ⟨d, rfl⟩ | ⟨d, rfl⟩ := (hds ▸ horder'.thread).head_cases
    · obtain ⟨-, hthread, hnext⟩ := horder'.next_of_run hds hd
      rintro ⟨d', hd'⟩
      refine hwork ⟨d', ?_⟩
      rcases hnext with hnext | ⟨-, hnext⟩ <;> simp_all
    · exact absurd ⟨d, by simp [hds]⟩ hwork

end Run

/-- How far the execution of a run is after the steps of a path. -/
theorem State.Path.executed (h : Path b {} es s) (hr : s.runs[r]? = some run) :
    run.Executed r es s := by
  induction h generalizing run with
  | refl => simp at hr
  | @step es t u p hpath hp ih =>
    have horder := hpath.orderly State.orderly_empty
    by_cases hne : p = .thread r
    · subst hne
      have hst := horder.stride hp
      obtain ⟨run₀, d, ds, done, hr₀, hds, hd, hrun⟩ := hst.exists_stroke
      obtain rfl := Option.some.inj (hrun.symm.trans hr)
      exact (ih hr₀).of_thread horder hr₀ hst hds hd
    · rcases horder.awaits hp hne hr with ⟨run₀, hr₀, hawaits⟩ | ⟨hnone, s', hopens⟩
      · exact (ih hr₀).of_awaits horder hp hne hawaits
      · have hes := hpath.ne_thread_of_none State.orderly_empty hnone
        cases hopens
        refine .of_idle rfl rfl fun e he => ?_
        rcases List.mem_append.1 he with he | he
        · exact hes e he
        · rw [List.mem_singleton.1 he]
          exact hne
  | accept i hpath hi ih =>
    have horder := hpath.orderly State.orderly_empty
    refine (ih (by cases i <;> exact hr)).of_eq rfl rfl fun hbegun => ?_
    exact ((Path.refl (b := b)).accept i hi |>.not_spawn horder hbegun).1
  | @giveUp es t r' run₀ run₁ hpath hr' hgive ih =>
    have horder := hpath.orderly State.orderly_empty
    have hbegun (hbegun : t.Begun r) : (t.setRun r' run₁).Begun r :=
      ((Path.refl (b := b)).giveUp hr' hgive |>.not_spawn horder hbegun).1
    rcases State.getElem?_setRun hr with ⟨rfl, rfl⟩ | ⟨-, hr⟩
    · refine (ih hr').of_eq ?_ ?_ hbegun <;> cases hgive <;> rfl
    · exact (ih hr).of_eq rfl rfl hbegun

/-! ## When the execution is over -/

/-- What the thread of a run still has to do after its execution is over, when it has to tell
`notes` and told `told` of them: it tells the rest, marks the run as over, and then tells so, unless
somebody else did. -/
inductive Closing (r : RunId) (notes : List Event) : (told : List Event) → List Duty → Prop where
  | telling {told rest : List Event} (h : told ++ rest = notes) :
      Closing r notes told (rest.map (fun e => .run r (.emit e)) ++
        [.run r (.setPhase .terminated), .run r .claimTerminated])
  | claiming : Closing r notes notes [.run r .claimTerminated]
  | ending : Closing r notes notes [.run r (.emit terminated)]
  | silent : Closing r notes notes []
  | done : Closing r notes (notes ++ [terminated]) []

namespace Closing

variable {notes told : List Event} {d : Duty} {ds : List Duty} {done : Done}

/-- Nothing is told but the notes, and then that the script is over. -/
theorem told_prefix (h : Closing r notes told ds) : told <+: notes ++ [terminated] := by
  cases h with
  | @telling told rest h =>
    rw [← h]
    exact ⟨rest ++ [terminated], by simp⟩
  | claiming | ending | silent => exact List.prefix_append notes [terminated]
  | done => exact List.prefix_rfl

/-- A thread that is done told the notes. -/
theorem told_eq (h : Closing r notes told []) : told = notes ∨ told = notes ++ [terminated] := by
  generalize hds : ([] : List Duty) = ds at h
  cases h with
  | telling => simp at hds
  | claiming | ending => cases hds
  | silent => exact .inl rfl
  | done => exact .inr rfl

/-- What a thread that is not at work has to do is about its run. -/
theorem exists_run (h : Closing r notes told (d :: ds)) : ∃ d', d = .run r d' := by
  generalize hds : d :: ds = ds' at h
  cases h with
  | @telling told rest h =>
    cases rest with
    | nil => exact ⟨_, (List.cons.inj hds).1⟩
    | cons e rest => exact ⟨_, (List.cons.inj hds).1⟩
  | claiming | ending => exact ⟨_, (List.cons.inj hds).1⟩
  | silent | done => cases hds

/-- A step of the thread tells the next note. -/
theorem of_thread (h : Closing r notes told (d :: ds))
    (hd : d.stroke? b s r { run with thread := ds } = some done) :
    Closing r notes (told ++ d.event?.toList) (done.next ++ ds) := by
  generalize hds : d :: ds = ds' at h
  cases h with
  | @telling told rest h =>
    cases rest with
    | nil =>
      obtain ⟨rfl, rfl⟩ := List.cons.inj hds
      simp only [Duty.stroke?, RunDuty.perform?] at hd
      split at hd <;> cases hd
      obtain rfl : told = notes := by simpa using h
      simpa [Duty.event?] using claiming
    | cons e rest =>
      obtain ⟨rfl, rfl⟩ := List.cons.inj hds
      obtain rfl := Option.some.inj hd
      exact telling (by simpa [Duty.event?] using h)
  | claiming =>
    obtain ⟨rfl, rfl⟩ := List.cons.inj hds
    simp only [Duty.stroke?, RunDuty.perform?] at hd
    split at hd <;> cases hd
    · simpa [Duty.event?] using silent
    · simpa [Duty.event?] using ending
  | ending =>
    obtain ⟨rfl, rfl⟩ := List.cons.inj hds
    obtain rfl := Option.some.inj hd
    simpa [Duty.event?] using done
  | silent | done => cases hds

end Closing

/-- After the execution is over its thread tells the notes, whoever takes which step, and nothing is
written any more. -/
theorem State.Path.closing {notes : List Event} (h : Path b s es t) (horder : s.Orderly)
    (hbegun : s.Begun r) (hr : s.runs[r]? = some run) (hclosing : Closing r notes [] run.thread)
    (hr' : t.runs[r]? = some run') :
    Closing r notes (toldBy r es) run'.thread ∧ ∀ c, wroteBy r es c = [] := by
  induction h generalizing run' with
  | refl =>
    obtain rfl := Option.some.inj (hr.symm.trans hr')
    exact ⟨hclosing, fun _ => rfl⟩
  | @step es t u p hpath hp ih =>
    have hstep := (Path.refl (b := b)).step hp
    have horder' := hpath.orderly horder
    by_cases hne : p = .thread r
    · subst hne
      obtain ⟨run₀, d, ds, done, hr₀, hds, hd, hrun⟩ := (horder'.stride hp).exists_stroke
      obtain rfl := Option.some.inj (hrun.symm.trans hr')
      obtain ⟨hclosing, hwrote⟩ := ih hr₀
      rw [hds] at hclosing
      obtain ⟨d, rfl⟩ := hclosing.exists_run
      obtain ⟨-, hthread, -⟩ := (horder'.runs hr₀).next_of_run hds hd
      rw [toldBy_thread hr₀ hds]
      refine ⟨?_, fun c => ?_⟩
      · simpa only [hthread] using hclosing.of_thread hd
      · rw [wroteBy_thread hr₀ hds, hwrote c]
        rfl
    · rw [toldBy_other hne, wroteBy_other hne]
      rcases horder'.awaits hp hne hr' with ⟨run₀, hr₀, hawaits⟩ | ⟨hnone, -⟩
      · obtain ⟨hclosing, hwrote⟩ := ih hr₀
        obtain ⟨-, hspawn⟩ := hstep.not_spawn horder' (hpath.not_spawn horder hbegun).1
        rcases hawaits.thread with hthread | ⟨hhead, -⟩
        · exact ⟨hthread ▸ hclosing, hwrote⟩
        · exact absurd hhead (hspawn (t, p) (by simp))
      · cases hr.symm.trans (hpath.runs_none horder hnone)
  | accept i _ _ ih => exact ih (by cases i <;> exact hr')
  | @giveUp es t r' run₀ run₁ _ hr₀ hgive ih =>
    rcases State.getElem?_setRun hr' with ⟨rfl, rfl⟩ | ⟨-, hr'⟩
    · have hthread : run₁.thread = run₀.thread := by cases hgive <;> rfl
      rw [hthread]
      exact ih hr₀
    · exact ih hr'

/-! ## What the client is sent -/

/-- The messages that steps of the thread of run `r` queued for the client. -/
def sentByThread (b : Backend) (r : RunId) (es : List (State × Party)) : List Outgoing :=
  (es.filter fun e => e.2 = .thread r).flatMap (queuedIn b r)

/-- A step of the thread queues the event that it is to send, or nothing. -/
theorem State.Orderly.queuedIn_sublist (horder : s.Orderly)
    (hp : s.advance? b (.thread r) = some t) :
    (queuedIn b r (s, .thread r)).Sublist ((toldIn r (s, .thread r)).map .event) := by
  obtain ⟨run, d, ds, -, hr, hds, -⟩ := (horder.stride hp).exists_stroke
  have hagenda : s.agenda (.thread r) = d :: ds := by simp [agenda, hr, hds]
  have htold : toldIn r (s, .thread r) = d.event?.toList := by simp [toldIn, hagenda]
  rw [horder.queuedIn_eq hp hagenda hr, htold]
  split
  · cases he : d.event? with
    | none => simp [Duty.sends, he]
    | some e =>
      simp only [Duty.sends, he, Option.map_some, Option.getD_some, gated]
      split <;> simp
  · exact List.nil_sublist _

/-- The client is sent what the thread tells, in this order, as far as it is sent at all. -/
theorem State.Path.sentByThread_sublist (h : Path b s es t) (horder : s.Orderly) :
    (sentByThread b r es).Sublist ((toldBy r es).map .event) := by
  induction h with
  | refl => exact List.nil_sublist _
  | @step es t u p hpath hp ih =>
    have horder := hpath.orderly horder
    have hsent : sentByThread b r (es ++ [(t, p)]) =
        sentByThread b r es ++ if p = .thread r then queuedIn b r (t, p) else [] := by
      by_cases hne : p = .thread r <;> simp [sentByThread, hne]
    rw [hsent, toldBy_append, List.map_append]
    refine ih.append ?_
    split
    next heq =>
      subst heq
      simpa [toldBy] using horder.queuedIn_sublist hp
    · exact List.nil_sublist _
  | accept _ _ _ ih | giveUp _ _ _ ih => exact ih

/-! ## Output, and then the end -/

/-- What is written but not told yet when an execution is over. -/
theorem Run.Printed.drained {told : List Event} {wrote : Channel → List Char}
    (h : run.Printed told wrote) (hpending : pending run.thread = []) (c : Channel) :
    textsTold c (told ++ heldNotes run .stdout ++ heldNotes run .stderr) =
      (pieces (wrote c)).map String.ofList := by
  have hnotes (c' : Channel) : heldNotes run c' =
      ((pieces (cut (wrote c')).2).map String.ofList).map (written c') := by
    rw [heldNotes, h.held c', LineBuffer.drain_encode (LineBuffer.not_mem_cut_snd _)]
  have htold : textsTold c told = (cut (wrote c)).1.map String.ofList := by
    simpa [hpending] using h.texts c
  have hall : pieces (wrote c) = (cut (wrote c)).1 ++ pieces (cut (wrote c)).2 := by
    simpa using LineBuffer.pieces_append (wrote c) []
  rw [textsTold_append, textsTold_append, hnotes, hnotes, textsTold_written, textsTold_written,
    htold, hall, List.map_append]
  cases c <;> simp

/-- The thread of run `r` concluded its execution between the steps `es₁` and `es₂`, when the run
was `run`; `run'` is the run after them. -/
structure Concluded (r : RunId) (es₁ es₂ : List (State × Party)) (run : Run) (ending : Ending)
    (run' : Run) : Prop where
  thread : run.thread = [.thread r (.conclude ending)]
  /-- What was told before and what is told first now is the output in pieces. -/
  output (c : Channel) :
    textsTold c (toldBy r es₁ ++ heldNotes run .stdout ++ heldNotes run .stderr) =
      (pieces (wroteBy r es₁ c)).map String.ofList
  ongoing : Session.terminated ∉ toldBy r es₁
  quiet (c : Channel) : wroteBy r es₂ c = []
  /-- Then comes the result or the error, and then that the script is over. -/
  notes : toldBy r es₂ <+: heldNotes run .stdout ++ heldNotes run .stderr ++
    endingNote run.clientPath ending ++ [terminated]
  done : run'.thread = [] → heldNotes run .stdout ++ heldNotes run .stderr ++
    endingNote run.clientPath ending <+: toldBy r es₂

/-- The step that concludes an execution divides what its thread tells. -/
theorem State.Path.concluded {es₁ es₂ : List (State × Party)} {u v : State} {ending : Ending}
    {ds : List Duty} (h₁ : Path b {} es₁ u) (hu : u.runs[r]? = some run)
    (hds : run.thread = .thread r (.conclude ending) :: ds)
    (hv : u.advance? b (.thread r) = some v) (h₂ : Path b v es₂ t)
    (ht : t.runs[r]? = some run') : Concluded r es₁ es₂ run ending run' := by
  have horder := h₁.orderly State.orderly_empty
  have hst := horder.stride hv
  obtain rfl := (horder.runs hu).eq_nil_of_isLast hds rfl
  have hprinted : run.Printed (toldBy r es₁) (wroteBy r es₁) := by
    cases h₁.executed hu with
    | printing hprinted => exact hprinted
    | concluded hwork => exact absurd ⟨_, by simp [hds]; rfl⟩ hwork
  have hbegun : v.Begun r :=
    Begun.of_stride ⟨run, hu, (horder.runs hu).begun (by simp [hds])⟩ horder hst
  have hpending : pending run.thread = [] := by
    rw [hds]
    rfl
  obtain ⟨run₁, hr₁, hthread⟩ : ∃ run₁, v.runs[r]? = some run₁ ∧
      run₁.thread = endDuties r run ending := by
    obtain ⟨run₀, d, ds, done, hr₀, hds₀, hd, hrun₁⟩ := hst.exists_stroke
    obtain rfl := Option.some.inj (hu.symm.trans hr₀)
    obtain ⟨rfl, rfl⟩ := List.cons.inj (hds.symm.trans hds₀)
    obtain rfl := Option.some.inj ((ThreadDuty.perform?_conclude b u r _ ending).symm.trans hd)
    refine ⟨_, hrun₁, ?_⟩
    simp [endDuties, heldNotes]
  have hclosing : Closing r (heldNotes run .stdout ++ heldNotes run .stderr ++
      endingNote run.clientPath ending) [] run₁.thread := by
    rw [hthread]
    exact .telling rfl
  obtain ⟨hclosing, hquiet⟩ :=
    h₂.closing (horder.of_stride hst) hbegun hr₁ hclosing ht
  have hongoing : Session.terminated ∉ toldBy r es₁ := fun hmem =>
    hprinted.ongoing (List.mem_append_left _ hmem)
  refine ⟨hds, hprinted.drained hpending, hongoing, hquiet, hclosing.told_prefix, fun hnil => ?_⟩
  rw [hnil] at hclosing
  rcases hclosing.told_eq with htold | htold
  · exact htold ▸ List.prefix_rfl
  · exact htold ▸ List.prefix_append _ _

/-- A relay passes on what is written line by line. So does the thread of a run : as long as it is
at work it told the lines that are complete, or is about to. When it is no longer at work, it
concluded its execution : the rest of the output came next, then the result or the error, and then
that the script is over. What the thread tells is sent in this order. -/
theorem output_before_end (streams : Streams) (thread : ThreadId) (client : String)
    (acts : List Streams.Act) (h : State.Path b {} es t) (hr : t.runs[r]? = some run') :
    Streams.Tap.Relays ⟨thread, client, (streams.install thread client).1⟩
      (streams.install thread client).2 acts ∧
    (run'.AtWork r → ∀ c, textsTold c (toldBy r es ++ pending run'.thread) =
      (cut (wroteBy r es c)).1.map String.ofList) ∧
    (¬run'.AtWork r → (∃ e ∈ es, e.2 = .thread r) → ∃ es₁ es₂ u run ending,
      es = es₁ ++ (u, .thread r) :: es₂ ∧ u.runs[r]? = some run ∧
        Concluded r es₁ es₂ run ending run') ∧
    (sentByThread b r es).Sublist ((toldBy r es).map .event) := by
  refine ⟨(Streams.Tap.OnTop.install streams thread client).relays acts, fun hwork c => ?_,
    fun hidle hstep => ?_, h.sentByThread_sublist State.orderly_empty⟩
  · cases h.executed hr with
    | printing hprinted => exact hprinted.texts c
    | concluded hidle => exact absurd hwork hidle
  · cases h.executed hr with
    | printing _ hwork =>
      obtain ⟨e, he, hp⟩ := hstep
      rcases hwork with hwork | ⟨-, hnone⟩
      · exact absurd hwork hidle
      · exact absurd hp (hnone e he)
    | concluded _ _ hend =>
      obtain ⟨⟨u, p⟩, he, rfl, ending, ds, hagenda⟩ := hend
      obtain ⟨es₁, es₂, v, rfl, h₁, hv, h₂⟩ := h.exists_split he
      obtain ⟨run, hu, hds⟩ : ∃ run, u.runs[r]? = some run ∧
          run.thread = .thread r (.conclude ending) :: ds := by
        cases hu : u.runs[r]? with
        | none => simp [State.agenda, hu] at hagenda
        | some run => exact ⟨run, rfl, by simpa [State.agenda, hu] using hagenda⟩
      exact ⟨es₁, es₂, u, run, ending, rfl, hu, h₁.concluded hu hds hv h₂ hr⟩

/-- A backend with one script, which writes a line in two parts and does not complete the next. -/
def writingBackend : Backend where
  library := .table [("a", ⟨"write \"a\"\nprint \"b\"\nwrite \"c\"\nreturn 1", "a", {}⟩)]
  settings := { startTimeout := 0 }
  crashText := ""

open State (asked taken) in
/-- The script runs to its end. -/
def writeOnce : List State.Turn :=
  asked "launch" (.object [("path", .string "a")]) :: taken 6 .handler ++ taken 10 (.starter 0) ++
    taken 32 (.thread 0)

/-- A line that is written in two parts is told as one, and what follows it before the result. -/
theorem output_before_end_writeOnce :
    let acts := [.write .stdout "a", .writeLine .stdout "b", .flush .stderr, .write .stdout "c"]
    let installed := Streams.install ⟨fun _ => .recorder "terminal" 0, []⟩ 1 "client"
    Streams.textsOn "client" .stdout
        (Streams.Act.given ⟨1, "client", installed.1⟩ installed.2 acts) = ["ab\n", "c"] ∧
    ∃ es t run' es₁ es₂ u run ending, State.Path writingBackend {} es t ∧
      t.runs[0]? = some run' ∧ run'.thread = [] ∧
      textsTold .stdout (toldBy 0 es) = ["ab\n", "c"] ∧
      es = es₁ ++ (u, .thread 0) :: es₂ ∧ Concluded 0 es₁ es₂ run ending run' := by
  intro acts installed
  have hwalk : (({} : State).walk? writingBackend writeOnce).any (fun w =>
      w.1.any (fun e => e.2 == .thread 0) &&
        w.2.runs[0]?.any (fun run => run.thread.isEmpty) &&
        textsTold .stdout (toldBy 0 w.1) == ["ab\n", "c"]) = true := by
    decide +kernel
  obtain ⟨⟨es, t⟩, hw, hfacts⟩ := (Option.any_eq_true ..).1 hwalk
  simp only [Bool.and_eq_true, List.any_eq_true, beq_iff_eq] at hfacts
  obtain ⟨⟨hstep, hrun⟩, htold⟩ := hfacts
  obtain ⟨run', hr, hdone⟩ := (Option.any_eq_true ..).1 hrun
  have hnil : run'.thread = [] := List.isEmpty_iff.1 hdone
  have hpath : State.Path writingBackend {} es t := State.Path.refl.walk hw
  obtain ⟨hrelays, -, hover, -⟩ := output_before_end _ 1 "client" acts hpath hr
  have hidle : ¬run'.AtWork 0 := by simp [Run.AtWork, hnil]
  obtain ⟨es₁, es₂, u, run, ending, heq, -, hconcluded⟩ := hover hidle hstep
  exact ⟨hrelays.stretches .stdout, es, t, run', es₁, es₂, u, run, ending, hpath, hr, hnil, htold,
    heq, hconcluded⟩

end DebugAdapter.Session
