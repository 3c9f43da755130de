import DebugAdapter.Proofs.Breakpoints.Marks
import DebugAdapter.Proofs.Session.Boundary
import DebugAdapter.Proofs.Session.Debugger
import DebugAdapter.Proofs.Session.PausePending
/-!
# Marks at a statement boundary

A thread at a boundary looks twice : for its line among the lines of its run, and for the template
in the registry. New breakpoints reach the registry before they reach the run, and they may do so
between the two looks. `boundary_marks_exact` says what the thread makes of what it found
(`Mark.seen?`), and that this is what the line carried at one of the two moments, but for a log
point that was gone at the second.
-/

namespace DebugAdapter

/-- What a line carries for the script under a key. -/
def Registry.markAt? (registry : Registry) (key : String) (line : UInt32) : Option Mark :=
  (registry.get? key line).map LineBreakpoint.logMessage

theorem Registry.mem_lines_iff (registry : Registry) (key : String) (line : UInt32) :
    line ∈ registry.lines key ↔ registry.markAt? key line ≠ none := by
  unfold lines markAt? get?
  cases registry.lookup key with
  | none => simp
  | some m => simp [LineMap.mem_lines, Option.isSome_iff_ne_none]

/-- What a thread makes of a line that carried `found` among the lines of its run, and carries `now`
in the registry. -/
def Mark.seen? (found now : Option Mark) : Option Mark :=
  found.map fun _ => now.getD none

theorem Mark.seen?_iff (found now : Option Mark) :
    (seen? found now = found ∨ seen? found now = now) ↔
      ¬((∃ template, found = some (some template)) ∧ now = none) := by
  cases found with
  | none => simp [seen?]
  | some mark => cases mark <;> cases now <;> simp [seen?]

namespace Session

variable {b : Backend} {s t u : State} {p : Party} {r : RunId} {run run' : Run} {done : Done}
  {es es' : List (State × Party)} {stmt : Script.Statement}

/-- What a thread that holds the lock of its run does at a statement with a mark : it goes on, or
writes first, or stops. -/
def markDuties (r : RunId) (run : Run) (stmt : Script.Statement) : Option Mark → List Duty
  | none => [.run r .unlock, .thread r .perform]
  | some (some template) => [.run r .unlock,
      .run r (.emit (consoleText
        (Template.interpolate template (lookupPath run.vars) ++ "\n"))), .thread r .perform]
  | some none => stopDuties r run stmt.span .breakpoint

theorem markDuties_thread (thread : List Duty) (mark : Option Mark) :
    markDuties r { run with thread } stmt mark = markDuties r run stmt mark := by
  cases mark with
  | none => rfl
  | some mark => cases mark <;> rfl

/-! ## The two looks -/

/-- What a thread does after it looked for a template. -/
theorem ThreadDuty.next_of_readTemplate {rest : Script.Program} (hrest : run.rest = stmt :: rest)
    (hd : readTemplate.perform? b s r run = some done) : done.run = run ∧ done.next =
      markDuties r run stmt (some ((s.registry.markAt? run.key stmt.line).getD none)) := by
  simp only [perform?, hrest, performAt?] at hd
  obtain rfl := Option.some.inj hd
  refine ⟨rfl, ?_⟩
  unfold Registry.markAt?
  cases hget : s.registry.get? run.key stmt.line with
  | none => rfl
  | some breakpoint => cases hlog : breakpoint.logMessage <;> simp [markDuties, hlog]

/-- What a thread does after it looked for its line while it neither pauses nor steps. -/
theorem ThreadDuty.next_of_readLine {rest : Script.Program} (hrest : run.rest = stmt :: rest)
    (hd : (readLine false false).perform? b s r run = some done) :
    done.run = run ∧ done.next = if stmt.line ∈ run.context.lines then [.thread r .readTemplate]
      else markDuties r run stmt none := by
  simp only [perform?, hrest, performAt?] at hd
  obtain rfl := Option.some.inj hd
  simp [markDuties, Context.hasBreakpoint]

/-- Whether in a step the thread of run `r`, which is `run` and has all of `rest` still to execute,
finds its line among the lines of the run while it neither pauses nor steps. -/
structure FindsLine (r : RunId) (rest : Script.Program) (run : Run) (e : State × Party) : Prop where
  party : e.2 = .thread r
  there : e.1.runs[r]? = some run
  left : run.rest = rest
  thread : run.thread = [.thread r (.readLine false false)]
  line : ∃ stmt, rest.head? = some stmt ∧ stmt.line ∈ run.context.lines

/-- A thread that is about to look for a template found its line. -/
theorem Run.found_lasting (b : Backend) (r : RunId) (es : List (State × Party)) :
    Run.Lasting b r (fun e => e ∈ es) fun _ run =>
      .thread r .readTemplate ∈ run.thread → ∃ run₀, ∃ e ∈ es, FindsLine r run.rest run₀ e where
  fares {s p run run' hs} he hr horder hfares h hm := by
    have hkept {d : RunDuty} {run₀ : Run} {done : Done} (hd : d.perform? r run₀ = some done)
        (hm : .thread r .readTemplate ∈ done.run.thread) :
        .thread r .readTemplate ∈ run₀.thread ∧ done.run.rest = run₀.rest :=
      ⟨RunDuty.thread_mem_of_perform? hd hm nofun, (RunDuty.asked hd).rest⟩
    cases hfares with
    | aside | away | waits => exact h hm
    | duty _ _ hd =>
      obtain ⟨hm, hrest⟩ := hkept hd hm
      exact hrest ▸ h hm
    | request _ hd => cases hd <;> exact h hm
    | @starts d ds done _ hd =>
      obtain ⟨hm, hrest⟩ := hkept hd hm
      have hrest : done.run.rest = run.rest := hrest
      exact hrest ▸ h hm
    | @tells d ds done hs hd =>
      obtain ⟨hm, hrest⟩ := hkept hd
        ((List.mem_append.1 hm).resolve_left (RunDuty.thread_not_mem_next hd _))
      have hrest : done.run.rest = run.rest := hrest
      exact hrest ▸ h (by rw [hs]; exact List.mem_cons_of_mem _ hm)
    | @works d ds done hs hd =>
      have hleaves := ThreadDuty.leaves_of_perform? hd
      have hplan := horder.thread
      rw [hs] at hplan
      rcases List.mem_append.1 hm with hm | hm
      · cases ThreadDuty.follows_of_mem_next hd hm with
        | stop _ hstops | stopThere hstops => cases hstops
        | @readTemplate stmt hrest hline =>
          obtain rfl := hplan.eq_of_last rfl
          have hsame : done.run.rest = run.rest := hleaves.rest nofun
          exact ⟨run, _, he, rfl, hr, hsame.symm, hs, stmt, hsame ▸ hrest, hline⟩
      · rw [hleaves.kept.thread] at hm
        have hperform : d ≠ .perform := by
          rintro rfl
          obtain rfl := hplan.eq_of_last rfl
          cases hm
        have hsame : done.run.rest = run.rest := hleaves.rest hperform
        exact hsame ▸ h (by rw [hs]; exact List.mem_cons_of_mem _ hm)
  asked _ h := h
  givenUp hgive h := by cases hgive <;> exact h

/-! ## The registry that a run has the lines of -/

namespace State

/-- A live run that is current was so before. -/
theorem Stride.current_or_opens (hst : s.Stride b t p) (horder : s.Orderly) (htidy : s.Tidy)
    (hr : t.currentRun? = some (r, run')) (hlive : run'.isLive = true) :
    (∃ run, s.currentRun? = some (r, run) ∧ run.isLive = true) ∨ s.runs[r]? = none := by
  by_cases hreplaces : ∀ d ∈ (s.agenda p).head?, d.replaces = false
  · obtain ⟨-, hinherits | ⟨hnone, -⟩⟩ := hst.inherits_or_opens horder htidy hreplaces hr hlive
    · obtain ⟨run, hr₀, hlive₀, -, -⟩ := hinherits
      exact .inl ⟨run, hr₀, hlive₀⟩
    · exact .inr hnone
  · obtain ⟨d, hd, hreplaces⟩ : ∃ d ∈ (s.agenda p).head?, d.replaces = true := by
      simpa using hreplaces
    obtain ⟨rfl, request, args, hs⟩ := horder.of_replaces hd hreplaces
    rw [(hst.of_replaceBreakpoints hs).1] at hr
    exact .inl ⟨run', hr, hlive⟩

/-- A live run that is current was so at every step of the path on which it was there. -/
theorem Path.current_of (h : Path b s es t) (horder : s.Orderly) (htidy : s.Tidy)
    (hs : s.runs[r]? = some run) (hr : t.currentRun? = some (r, run'))
    (hlive : run'.isLive = true) : s.currentRun? = some (r, run) ∧ run.isLive = true := by
  induction h generalizing run' with
  | refl =>
    obtain rfl := Option.some.inj (hs.symm.trans (currentRun?_eq_some.1 hr).2)
    exact ⟨hr, hlive⟩
  | step hpath hp ih =>
    have horder' := hpath.orderly horder
    rcases (horder'.stride hp).current_or_opens horder' (hpath.tidy horder htidy) hr hlive with
      ⟨run₁, hr₁, hlive₁⟩ | hnone
    · exact ih hr₁ hlive₁
    · cases hs.symm.trans (hpath.runs_none horder hnone)
  | accept i _ hi ih =>
    obtain ⟨run₁, hr₁, hlive₁, -, -⟩ := inherits_of_accept hi hr hlive
    exact ih hr₁ hlive₁
  | giveUp _ hr₀ hgive ih =>
    obtain ⟨run₁, hr₁, hlive₁, -, -⟩ := inherits_of_givenUp hr₀ hgive hr hlive
    exact ih hr₁ hlive₁

/-- A handler that just opened a run has nothing to pass on. -/
theorem Stride.passes_of_opens (hst : s.Stride b t p) (horder : s.Orderly)
    (hreplaces : ∀ d ∈ (s.agenda p).head?, d.replaces = false) (hs : s.runs[r]? = none)
    (hr : t.runs[r]? = some run) : ∀ d ∈ t.handler, d.passes = false := by
  refine hst.passes_of_mem horder (fun e he => ?_) hreplaces
  obtain ⟨-, request, args, ds, hds, -⟩ := hst.openRun_of_new hs hr
  have hplan := horder.handler
  rw [hds] at he hplan
  obtain rfl : ds = [] := hplan.1
  obtain rfl := List.mem_singleton.1 he
  rfl

/-- Whether in a step the handler changes breakpoints. -/
def ChangesBreakpoints (e : State × Party) : Prop :=
  e.2 = .handler ∧ ∃ request args, e.1.handler = [.session (.replaceBreakpoints request args)]

/-- Breakpoints that were changed are to be passed on. -/
theorem Stride.passOn_of_replaces {request : Protocol.Request} {args : Protocol.BreakpointArguments}
    (hst : s.Stride b t .handler) (hs : s.handler = [.session (.replaceBreakpoints request args)]) :
    t.runs = s.runs ∧ ∃ replaced m, t.handler = [.session (.passOn replaced m)] := by
  cases hst with
  | session hs' ht =>
    obtain ⟨heq, rfl⟩ := List.cons.inj (hs'.symm.trans hs)
    cases heq
    rw [perform_replaceBreakpoints] at ht
    dsimp only at ht
    generalize s.registry.replace args.source args.requested = replaced at ht
    subst ht
    exact ⟨rfl, _, _, rfl⟩
  | handler hs' hsub =>
    obtain ⟨rfl, rfl⟩ := List.cons.inj (hs'.symm.trans hs)
    cases hsub

/-- A handler that has something to pass on changed breakpoints last. -/
theorem Path.passes_or_holds (h : Path b {} es s) (hr : s.runs[r]? = some run) :
    (∀ d ∈ s.handler, d.passes = false) ∨ ∃ e ∈ es, ChangesBreakpoints e ∧
      ∃ replaced run₀, e.1.runs[r]? = some run₀ ∧ s.Holds replaced r run₀ := by
  induction h generalizing run with
  | refl => exact .inl (by simp)
  | @step es t u p hpath hp ih =>
    have horder := hpath.orderly orderly_empty
    have hst := horder.stride hp
    by_cases hreplaces : ∀ d ∈ (t.agenda p).head?, d.replaces = false
    · cases hr₀ : t.runs[r]? with
      | none => exact .inl (hst.passes_of_opens horder hreplaces hr₀ hr)
      | some run₁ =>
        rcases ih hr₀ with hpasses | ⟨e, he, hchanges, replaced, run₀, hr₁, hholds⟩
        · exact .inl (hst.passes_of_mem horder hpasses hreplaces)
        have hright (hholds : u.Holds replaced r run₀) : ∃ e ∈ es ++ [(t, p)],
            ChangesBreakpoints e ∧ ∃ replaced run₀, e.1.runs[r]? = some run₀ ∧
              u.Holds replaced r run₀ :=
          ⟨e, List.mem_append_left _ he, hchanges, replaced, run₀, hr₁, hholds⟩
        by_cases hparty : p = .handler
        · subst hparty
          exact (hholds.of_handler horder hst).symm.imp_right hright
        · exact .inr (hright (hholds.of_other horder hst hparty))
    · obtain ⟨d, hd, hreplaces⟩ : ∃ d ∈ (t.agenda p).head?, d.replaces = true := by
        simpa using hreplaces
      obtain ⟨rfl, request, args, hs⟩ := horder.of_replaces hd hreplaces
      refine .inr ⟨(t, .handler), by simp, ⟨rfl, request, args, hs⟩, ?_⟩
      obtain ⟨hruns, replaced, m, hpass⟩ := hst.passOn_of_replaces hs
      exact ⟨replaced, run, hruns ▸ hr, ⟨.inl ⟨m, hpass⟩, run, hr, .refl run⟩⟩
  | @accept es t i _ hi ih =>
    cases i with
    | request | hangUp =>
      have hnil : t.handler = [] := hi
      exact .inl (by simp [State.accept, hnil, Duty.passes])
    | elapse | release => exact ih hr
  | @giveUp es t r₀ run₀ run₁ _ hr₀ hgive ih =>
    have hr₁ : ∃ run, t.runs[r]? = some run := by
      rcases getElem?_setRun hr with ⟨rfl, -⟩ | ⟨-, hr⟩
      · exact ⟨run₀, hr₀⟩
      · exact ⟨run, hr⟩
    obtain ⟨run₂, hr₂⟩ := hr₁
    refine (ih hr₂).imp_right ?_
    rintro ⟨e, he, hchanges, replaced, run₃, hr₃, hholds⟩
    exact ⟨e, he, hchanges, replaced, run₃, hr₃, hholds.of_givenUp hr₀ hgive⟩

/-- Whether run `r` has the lines that `registry` has for it : the registry now, or, as long as the
handler has yet to pass new breakpoints on to the run, the one before it got them. -/
def Installed (es : List (State × Party)) (s : State) (r : RunId) (run : Run)
    (registry : Registry) : Prop :=
  run.context.lines = registry.lines run.key ∧ (registry = s.registry ∨
    s.isPassing r run = true ∧ ∃ e ∈ es, ChangesBreakpoints e ∧ e.1.registry = registry)

/-- A live run has the lines of a registry that there was. -/
theorem Path.exists_installed (h : Path b {} es s)
    (hright : ∀ e ∈ es, e.2 = .handler → e.1.JudgesRightly)
    (hr : s.currentRun? = some (r, run)) (hlive : run.isLive = true) :
    ∃ registry, s.Installed es r run registry := by
  cases hpassing : s.isPassing r run with
  | false =>
    refine ⟨s.registry, ?_, .inl rfl⟩
    rw [← promised_of_isPassing hpassing]
    exact h.inStep hright r run hr hlive
  | true =>
    have hrun := (currentRun?_eq_some.1 hr).2
    rcases h.passes_or_holds hrun with hnone | ⟨e, he, hchanges, replaced, run₀, hr₀, hholds⟩
    · cases (isPassing_eq_false hnone).symm.trans hpassing
    obtain ⟨v, p⟩ := e
    refine ⟨v.registry, ?_, .inr ⟨hpassing, _, he, hchanges, rfl⟩⟩
    obtain ⟨rfl, request, args, hs⟩ := hchanges
    have hs : v.handler = _ := hs
    obtain ⟨-, run₁, hr₁, hretains⟩ := hholds
    obtain rfl := Option.some.inj (hrun.symm.trans hr₁)
    obtain ⟨es₁, es₂, w, rfl, h₁, hw, h₂⟩ := h.exists_split he
    have horder := h₁.orderly orderly_empty
    obtain ⟨hcurrent, hlive₀⟩ := ((Path.refl.step hw).trans h₂).current_of horder
      (h₁.tidy orderly_empty tidy_empty) hr₀ hr hlive
    have hin := h₁.inStep (fun e he => hright e (by simp [he])) r run₀ hcurrent hlive₀
    rw [promised_eq (by simp [hs, Duty.passes])] at hin
    rw [hretains.lines, hretains.key, hin]

/-- What a step of a thread with a single duty leaves of its run. -/
theorem Orderly.of_single {d : ThreadDuty} (horder : s.Orderly) (hr : s.runs[r]? = some run)
    (hthread : run.thread = [.thread r d]) (hp : s.advance? b (.thread r) = some t) :
    ∃ done, d.perform? b s r { run with thread := [] } = some done ∧
      t.runs[r]? = some { done.run with thread := done.next } := by
  obtain ⟨run', d', ds, done, hr', hds, hd, ht⟩ := (horder.stride hp).exists_stroke
  obtain rfl := Option.some.inj (hr.symm.trans hr')
  obtain ⟨rfl, rfl⟩ := List.cons.inj (hthread.symm.trans hds)
  have hd : d.perform? b s r { run with thread := [] } = some done := hd
  rw [(ThreadDuty.leaves_of_perform? hd).kept.thread, List.append_nil] at ht
  exact ⟨done, hd, ht⟩

/-- A thread that is about to look for a template found its line on the way. -/
theorem Path.exists_findsLine (h : Path b {} es s) (hr : s.runs[r]? = some run)
    (hthread : run.thread = [.thread r .readTemplate]) :
    ∃ run₀, ∃ e ∈ es, FindsLine r run.rest run₀ e := by
  refine (Run.found_lasting b r es).of_path h orderly_empty (fun e he => he)
    (fun _ _ _ _ hopens hm => ?_) (by simp) hr (by simp [hthread])
  cases hopens
  cases hm

end State

/-- Whoever took which step : at a boundary, while its run neither pauses nor steps, a thread goes
on where its line carried nothing in the registry that its run had the lines of. Where it carried
something, the thread looks for a template later, and does what the line carries then, but stops
where that is nothing. So it does what the line carried at one of the two moments, unless it carried
a log point at the first and nothing at the second. If every change of breakpoints passed its lines
on rightly, a live run had at every moment the lines of the registry, or of the one before a change
that has yet to be passed on. -/
theorem boundary_marks_exact {b : Backend} {es : List (State × Party)} {s t : State} {r : RunId}
    {run : Run} {stmt : Script.Statement} (h : State.Path b {} es s) (hr : s.runs[r]? = some run)
    (hstmt : run.rest.head? = some stmt) (hp : s.advance? b (.thread r) = some t) :
    ∃ run', t.runs[r]? = some run' ∧
      (∀ (found : Registry) (key : String), run.context.lines = found.lines key →
        (run.thread = [.thread r .checkLine] →
          (.thread r .perform ∈ run'.thread ↔ found.markAt? key stmt.line = none)) ∧
        (run.thread = [.thread r (.readLine false false)] →
          (run'.thread = markDuties r run stmt none ↔ found.markAt? key stmt.line = none))) ∧
      (run.thread = [.thread r .readTemplate] → ∃ run₀, ∃ e ∈ es, FindsLine r run.rest run₀ e ∧
        run₀.key = run.key ∧
        ∀ (found : Registry) (key : String), run₀.context.lines = found.lines key →
          let before := found.markAt? key stmt.line
          let now := s.registry.markAt? run.key stmt.line
          before ≠ none ∧ run'.thread = markDuties r run stmt (Mark.seen? before now) ∧
            ((Mark.seen? before now = before ∨ Mark.seen? before now = now) ↔
              ¬((∃ template, before = some (some template)) ∧ now = none))) ∧
      ((∀ e ∈ es, e.2 = .handler → e.1.JudgesRightly) → s.current = some r → run.isLive = true →
        (∃ registry, s.Installed es r run registry) ∧
          ∀ es₁ v p es₂ run₀, es = es₁ ++ (v, p) :: es₂ → v.runs[r]? = some run₀ →
            ∃ registry, v.Installed es₁ r run₀ registry) := by
  have horder := h.orderly State.orderly_empty
  obtain ⟨stmt', rest, hrest⟩ : ∃ stmt rest, run.rest = stmt :: rest := by
    cases hcase : run.rest with
    | nil => simp [hcase] at hstmt
    | cons stmt rest => exact ⟨stmt, rest, rfl⟩
  obtain rfl : stmt' = stmt := by simpa [hrest] using hstmt
  obtain ⟨run', hr'⟩ : ∃ run', t.runs[r]? = some run' := by
    obtain ⟨run', hr', -⟩ := (horder.stride hp).fares horder hr
    exact ⟨run', hr'⟩
  refine ⟨run', hr', fun found key hlines => ⟨fun hthread => ?_, fun hthread => ?_⟩,
    fun hthread => ?_, fun hright hcurrent hlive => ?_⟩
  · obtain ⟨run₁, hr₁, hiff⟩ := horder.performs_iff hr hthread hrest hp
    obtain rfl := Option.some.inj (hr'.symm.trans hr₁)
    rw [hiff, hlines, found.mem_lines_iff, Decidable.not_not]
  · obtain ⟨done, hd, ht⟩ := horder.of_single hr hthread hp
    obtain rfl := Option.some.inj (hr'.symm.trans ht)
    have hrest' : Run.rest { run with thread := [] } = stmt' :: rest := hrest
    obtain ⟨-, hnext⟩ := ThreadDuty.next_of_readLine hrest' hd
    rw [markDuties_thread, hlines] at hnext
    have hnot : [.thread r .readTemplate] ≠ markDuties r run stmt' none := by simp [markDuties]
    have hfound := found.mem_lines_iff key stmt'.line
    by_cases hmem : stmt'.line ∈ found.lines key
    · simp [hnext, hmem, hnot, hfound.1 hmem]
    · simp [hnext, hmem, by simpa [hmem] using hfound]
  · obtain ⟨done, hd, ht⟩ := horder.of_single hr hthread hp
    obtain rfl := Option.some.inj (hr'.symm.trans ht)
    have hrest' : Run.rest { run with thread := [] } = stmt' :: rest := hrest
    obtain ⟨-, hnext⟩ := ThreadDuty.next_of_readTemplate hrest' hd
    obtain ⟨run₀, e, he, hfinds⟩ := h.exists_findsLine hr hthread
    refine ⟨run₀, e, he, hfinds, ?_, fun found key hlines => ?_⟩
    · obtain ⟨v, p⟩ := e
      obtain ⟨es₁, es₂, w, rfl, h₁, hw, h₂⟩ := h.exists_split he
      have hname := (Run.name_stable b r run₀).of_path ((State.Path.refl.step hw).trans h₂)
        (h₁.orderly State.orderly_empty) (fun _ _ => trivial)
        (fun hnone => by cases hfinds.there.symm.trans hnone)
        (fun run₁ hr₁ => by cases hfinds.there.symm.trans hr₁; exact ⟨rfl, rfl⟩) hr
      exact hname.1.symm
    · obtain ⟨stmt, hstmt₀, hline⟩ := hfinds.line
      obtain rfl := Option.some.inj (hstmt.symm.trans hstmt₀)
      rw [hlines, found.mem_lines_iff] at hline
      obtain ⟨mark, hmark⟩ := Option.ne_none_iff_exists'.1 hline
      refine ⟨hline, ?_, Mark.seen?_iff _ _⟩
      rw [markDuties_thread] at hnext
      rw [hmark]
      exact hnext
  · have hr : s.currentRun? = some (r, run) := State.currentRun?_eq_some.2 ⟨hcurrent, hr⟩
    refine ⟨h.exists_installed hright hr hlive, ?_⟩
    rintro es₁ v p es₂ run₀ rfl hr₀
    obtain ⟨h₁, w, hw, h₂⟩ := h.cut
    obtain ⟨hcurrent₀, hlive₀⟩ := ((State.Path.refl.step hw).trans h₂).current_of
      (h₁.orderly State.orderly_empty) (h₁.tidy State.orderly_empty State.tidy_empty) hr₀ hr hlive
    exact h₁.exists_installed (fun e he => hright e (by simp [he])) hcurrent₀ hlive₀

/-- A backend with one script of two statements, whose key has a resource type. -/
def nestedPairBackend : Backend where
  library := .table [("api/a", ⟨"x = 1\nreturn x", "api/a", {}⟩)]
  crashText := ""

open State (asked taken) in
/-- Log points are requested, and the handler is about to put them in the registry. -/
def setLogPoints (path : String) (marks : List (Nat × String)) : List State.Turn :=
  asked "setBreakpoints" (.object [("source", .object [("path", .string path)]),
    ("breakpoints", .array (marks.map fun mark => .object [("line", Json.ofNat mark.1),
      ("logMessage", .string mark.2)]))]) :: taken 1 .handler

open State (asked taken) in
/-- A launched script is started for a log point, which its thread comes to and finds. -/
def findLogPoint : List State.Turn :=
  asked "launch" (.object [("path", .string "api/a")]) :: taken 6 .handler ++
    setLogPoints "api/a.ms" [(1, "n")] ++ taken 10 .handler ++ taken 12 (.thread 0)

/-- The current run and its next statement, if it is run 0, which is live and neither pauses nor
steps, and its thread is about to look for the template of that statement. -/
def State.atTemplate? (s : State) : Option (Run × Script.Statement) :=
  match s.currentRun? with
  | some (0, run) =>
    match run.thread, run.rest with
    | [.thread 0 .readTemplate], stmt :: _ =>
      if run.isLive && !run.pausePending && !run.context.stepMode then some (run, stmt) else none
    | _, _ => none
  | _ => none

theorem State.of_atTemplate? {s : State} {run : Run} {stmt : Script.Statement}
    (h : s.atTemplate? = some (run, stmt)) : s.currentRun? = some (0, run) ∧ run.isLive = true ∧
      run.pausePending = false ∧ run.context.stepMode = false ∧
      run.thread = [.thread 0 .readTemplate] ∧ run.rest.head? = some stmt := by
  unfold atTemplate? at h
  split at h
  next run' hr =>
    split at h
    next hthread hrest =>
      split at h <;> cases h
      next hfacts =>
        simp only [Bool.and_eq_true, Bool.not_eq_true'] at hfacts
        exact ⟨hr, hfacts.1.1, hfacts.1.2, hfacts.2, hthread, by rw [hrest]; rfl⟩
    · cases h
  · cases h

/-- A log point that is there at both moments is written. -/
theorem boundary_marks_exact_log_point : ∃ es s t run run' stmt,
    State.Path nestedBackend {} es s ∧ s.advance? nestedBackend (.thread 0) = some t ∧
      s.runs[0]? = some run ∧ run.rest.head? = some stmt ∧ t.runs[0]? = some run' ∧
      run'.thread = markDuties 0 run stmt (some (some "n")) := by
  have hwalk : (({} : State).walk? nestedBackend findLogPoint).any (fun w =>
      w.1.all (fun e => e.1.isRight) && (w.2.advance? nestedBackend (.thread 0)).isSome &&
        w.2.atTemplate?.any fun (run, stmt) =>
          w.2.registry.markAt? run.key stmt.line == some (some "n")) = true := by
    decide +kernel
  obtain ⟨⟨es, s⟩, hw, hfacts⟩ := (Option.any_eq_true ..).1 hwalk
  simp only [Bool.and_eq_true, List.all_eq_true] at hfacts
  obtain ⟨⟨hright, hstep⟩, hfacts⟩ := hfacts
  obtain ⟨t, hp⟩ := Option.isSome_iff_exists.1 hstep
  obtain ⟨⟨run, stmt⟩, hat, hmark⟩ := (Option.any_eq_true ..).1 hfacts
  obtain ⟨hcurrent, hlive, -, -, hthread, hstmt⟩ := State.of_atTemplate? hat
  obtain ⟨hcurrent, hr⟩ := State.currentRun?_eq_some.1 hcurrent
  have hpath : State.Path nestedBackend {} es s := State.Path.refl.walk hw
  obtain ⟨run', hr', -, htemplate, hinstalled⟩ := boundary_marks_exact hpath hr hstmt hp
  obtain ⟨run₀, ⟨v, p⟩, he, hfinds, hkey, hseen⟩ := htemplate hthread
  obtain ⟨es₁, es₂, rfl⟩ := List.append_of_mem he
  obtain ⟨registry, hlines, -⟩ := (hinstalled
    (fun e he _ => State.judgesRightly_of_isRight (hright e he)) hcurrent hlive).2 es₁ v p es₂ run₀
    rfl hfinds.there
  obtain ⟨hfound, hduties, -⟩ := hseen registry run₀.key hlines
  obtain ⟨mark, hmark₀⟩ := Option.ne_none_iff_exists'.1 hfound
  refine ⟨_, s, t, run, run', stmt, hpath, hp, hr, hstmt, hr', ?_⟩
  rw [hduties, hmark₀, beq_iff_eq.1 hmark]
  rfl

/-- What is said of a state in which the thread of run 0, which neither pauses nor steps, stops at a
line that carried no breakpoint but log points at any moment, under any of the keys. -/
def StopsAtLogPoint (b : Backend) (keys : List String) (es : List (State × Party)) (s : State) :
    Prop :=
  ∃ t run run' stmt, State.Path b {} es s ∧ s.advance? b (.thread 0) = some t ∧
    s.currentRun? = some (0, run) ∧ run.isLive = true ∧ run.pausePending = false ∧
    run.context.stepMode = false ∧ run.rest.head? = some stmt ∧ run.key ∈ keys ∧
    (∀ key ∈ keys, s.registry.markAt? key stmt.line ≠ some none ∧
      ∀ e ∈ es, e.1.registry.markAt? key stmt.line ≠ some none) ∧
    t.runs[0]? = some run' ∧ run'.thread = stopDuties 0 run stmt.span .breakpoint

/-- Whether the thread of run 0 is about to stop at a line that carried no breakpoint but log
points. -/
def State.isAtLogPoint (b : Backend) (keys : List String) (es : List (State × Party)) (s : State) :
    Bool :=
  (s.advance? b (.thread 0)).isSome && s.atTemplate?.any fun (run, stmt) =>
    keys.contains run.key && s.registry.markAt? run.key stmt.line == none &&
      keys.all fun key => s.registry.markAt? key stmt.line != some none &&
        es.all fun e => e.1.registry.markAt? key stmt.line != some none

theorem State.Path.stopsAtLogPoint {keys : List String} (h : Path b {} es s)
    (hat : s.isAtLogPoint b keys es = true) : StopsAtLogPoint b keys es s := by
  obtain ⟨hstep, hfacts⟩ := (Bool.and_eq_true ..).mp hat
  obtain ⟨t, hp⟩ := Option.isSome_iff_exists.1 hstep
  obtain ⟨⟨run, stmt⟩, hat, hfacts⟩ := (Option.any_eq_true ..).1 hfacts
  obtain ⟨hcurrent, hlive, hpending, hmode, hthread, hstmt⟩ := State.of_atTemplate? hat
  simp only [Bool.and_eq_true, List.contains_iff_mem, beq_iff_eq, List.all_eq_true, bne_iff_ne,
    ne_eq] at hfacts
  obtain ⟨⟨hkey, hmark⟩, hmarks⟩ := hfacts
  obtain ⟨-, hr⟩ := State.currentRun?_eq_some.1 hcurrent
  obtain ⟨rest, hrest⟩ : ∃ rest, run.rest = stmt :: rest := List.head?_eq_some_iff.1 hstmt
  obtain ⟨done, hd, ht⟩ := (h.orderly orderly_empty).of_single hr hthread hp
  have hrest' : Run.rest { run with thread := [] } = stmt :: rest := hrest
  obtain ⟨-, hnext⟩ := ThreadDuty.next_of_readTemplate hrest' hd
  rw [markDuties_thread, hmark] at hnext
  exact ⟨t, run, _, stmt, h, hp, hcurrent, hlive, hpending, hmode, hstmt, hkey, hmarks, ht, hnext⟩

open State (asked taken) in
/-- A thread stops at a line that carried no breakpoint but log points : when the handler is at
rest, because the log point has another key and the handler takes it for the run's, or because the
handler took the log point away after the thread found its line. -/
theorem boundary_marks_apart :
    (∃ es s, s.handler = [] ∧ StopsAtLogPoint nestedPairBackend ["api/a.ms", "a.ms"] es s) ∧
      ∃ es s, StopsAtLogPoint nestedBackend ["api/a.ms", "a.ms"] es s := by
  constructor
  · have hwalk : (({} : State).walk? nestedPairBackend
        (asked "launch" (.object [("path", .string "api/a")]) :: taken 6 .handler ++
          setLine "api/a.ms" 1 ++ taken 10 .handler ++ taken 18 (.thread 0) ++
          setLogPoints "a.ms" [(2, "n")] ++ taken 5 .handler ++
          asked "continue" .null :: taken 7 .handler ++ taken 14 (.thread 0))).any (fun w =>
            w.2.handler.isEmpty &&
              w.2.isAtLogPoint nestedPairBackend ["api/a.ms", "a.ms"] w.1) = true := by
      decide +kernel
    obtain ⟨⟨es, s⟩, hw, hfacts⟩ := (Option.any_eq_true ..).1 hwalk
    simp only [Bool.and_eq_true, List.isEmpty_iff] at hfacts
    exact ⟨es, s, hfacts.1, (State.Path.refl.walk hw).stopsAtLogPoint hfacts.2⟩
  · have hwalk : (({} : State).walk? nestedBackend
        (findLogPoint ++ setLogPoints "api/a.ms" [] ++ taken 1 .handler)).any (fun w =>
          w.2.isAtLogPoint nestedBackend ["api/a.ms", "a.ms"] w.1) = true := by
      decide +kernel
    obtain ⟨⟨es, s⟩, hw, hat⟩ := (Option.any_eq_true ..).1 hwalk
    exact ⟨es, s, (State.Path.refl.walk hw).stopsAtLogPoint hat⟩

end Session

end DebugAdapter
