import DebugAdapter.Proofs.Output.Served
import DebugAdapter.Proofs.Session.OutputOrder
/-!
# Output through a relay

A run keeps what its thread writes in line buffers of its own. That is what a tap of the thread does
on the streams: a text that the thread writes gives the client of the tap the lines that the run
tells (`writeText_relayed`), and what the run holds at last is what the tap gives away when it is
flushed (`heldNotes_relayed`). So whatever parties do in the session, and others to the streams, the
client is given the output that the thread told or is about to tell, in this order. Main statement:
`output_through_relay`.
-/

namespace DebugAdapter.Session

open Protocol (Event)
open Streams (Tap Tapped)

variable {b : Backend} {s t : State} {r : RunId} {run run' : Run} {p : Party}
  {es : List (State × Party)} {x y : Tapped} {a : Tap} {name : Channel → String}
  {n : Channel → Nat}

/-! ## What a client is given -/

/-- The event that a client is sent for what reaches it. -/
def sink (client : String) : Delivery → Option Event
  | .chunk k c text => if k = client then some (written c text) else none
  | _ => none

theorem filterMap_sink_chunks (client : String) (c : Channel) (texts : List String) :
    (texts.map (Delivery.chunk client c)).filterMap (sink client) = texts.map (written c) := by
  simp [List.filterMap_map, sink, Function.comp_def]

/-- The events that pass on output, among others. -/
def outputs (es : List Event) : List Event :=
  es.filter fun e => (writtenText? .stdout e).isSome || (writtenText? .stderr e).isSome

theorem outputs_append (es es' : List Event) : outputs (es ++ es') = outputs es ++ outputs es' :=
  List.filter_append ..

theorem outputs_written (c : Channel) (texts : List String) :
    outputs (texts.map (written c)) = texts.map (written c) := by
  refine List.filter_eq_self.2 fun e he => ?_
  obtain ⟨text, -, rfl⟩ := List.mem_map.1 he
  cases c <;> simp [writtenText?_written]

theorem outputs_eq_nil {es : List Event} (h : ∀ c, textsTold c es = []) : outputs es = [] := by
  refine List.filter_eq_nil_iff.2 fun e he => ?_
  have hnone (c : Channel) : writtenText? c e = none := List.filterMap_eq_nil_iff.1 (h c) e he
  simp [hnone]

/-! ## One text, and what is held -/

theorem held_writeText (run : Run) (c : Channel) (text : String) :
    (writeText run c text).2.held = Tapped.holding run.held (c, text) :=
  funext fun _ => (Function.update_apply ..).symm

/-- What a thread writes gives the client of its tap what the run tells. -/
theorem writeText_relayed (h : x.Serves a run.held) (hx : x.Standing name n) (c : Channel)
    (text : String) :
    (x.step (.deed a.thread c (.write (Utf8.ofString text)))).1.filterMap (sink a.client) =
        (writeText run c text).1.map (written c) ∧
      (x.step (.deed a.thread c (.write (Utf8.ofString text)))).2.Serves a
        (writeText run c text).2.held := by
  obtain ⟨hgiven, hserves⟩ := h.write hx c (Utf8.ofString text)
  rw [hgiven, filterMap_sink_chunks, held_writeText]
  exact ⟨rfl, hserves⟩

/-- What a run holds at last is what the tap of its thread gives away when it is flushed. -/
theorem heldNotes_relayed (h : x.Serves a run.held) {k : Nat} (hk : x.taps[k]? = some a) :
    (x.step (.flush k)).1.filterMap (sink a.client) =
      heldNotes run .stdout ++ heldNotes run .stderr := by
  rw [(h.flush hk).1, Tap.rest, List.filterMap_append, filterMap_sink_chunks,
    filterMap_sink_chunks]
  rfl

/-! ## What a thread writes -/

/-- What the thread of run `r` writes in a step. -/
def writeIn (r : RunId) (e : State × Party) : Option (Channel × String) :=
  if e.2 = .thread r then
    (e.1.runs[r]?).bind fun run => run.thread.head?.bind (Duty.writes? run)
  else none

/-- What the thread of run `r` writes in steps. -/
def writesIn (r : RunId) (es : List (State × Party)) : List (Channel × String) :=
  es.filterMap (writeIn r)

theorem writesIn_other (hp : p ≠ .thread r) (es : List (State × Party)) :
    writesIn r (es ++ [(s, p)]) = writesIn r es := by
  simp [writesIn, writeIn, hp]

theorem writesIn_thread {d : Duty} {ds : List Duty} (hr : s.runs[r]? = some run)
    (hds : run.thread = d :: ds) (es : List (State × Party)) :
    writesIn r (es ++ [(s, .thread r)]) = writesIn r es ++ (d.writes? run).toList := by
  cases hw : d.writes? run <;> simp [writesIn, writeIn, hr, hds, hw]

/-! ## Runs that pass on what is written -/

/-- How what was told and is about to be told comes of what was written: it is what a tap would
give its client, and the run holds what the tap would. -/
structure Run.PassesOn (told : List Event) (ws : List (Channel × String)) (run : Run) : Prop where
  held : run.held = ws.foldl Tapped.holding fun _ => []
  told (client : String) : outputs (told ++ pending run.thread) =
    (Tapped.linesFor client (fun _ => []) ws).filterMap (sink client)

namespace Run.PassesOn

variable {told : List Event} {ws : List (Channel × String)} {hs ds next : List Duty} {d : Duty}
  {done : Done}

theorem congr (h : run.PassesOn told ws) (hheld : run'.held = run.held)
    (hthread : run'.thread = run.thread) : run'.PassesOn told ws :=
  ⟨hheld.trans h.held, fun client => by rw [hthread, h.told client]⟩

/-- Writing a text. -/
theorem write {w : Channel × String} (h : run.PassesOn told ws)
    (hds : run.thread = [.thread r .perform])
    (hheld : run'.held = (writeText run w.1 w.2).2.held)
    (hnext : run'.thread = ((writeText run w.1 w.2).1.map fun l =>
      .run r (.emit (written w.1 l))) ++ [.thread r .reach]) : run'.PassesOn told (ws ++ [w]) where
  held := by
    rw [hheld, held_writeText, List.foldl_append, ← h.held]
    rfl
  told client := by
    have hnone : pending run.thread = [] := by
      rw [hds]
      rfl
    have htold := h.told client
    rw [hnone, List.append_nil] at htold
    have hpending : pending run'.thread = (writeText run w.1 w.2).1.map (written w.1) := by
      rw [hnext, pending, List.filterMap_append, List.filterMap_map]
      simp [Duty.event?, Function.comp_def]
    have hlines : Tapped.linesFor client run.held [w] =
        (writeText run w.1 w.2).1.map (.chunk client w.1) := List.append_nil _
    rw [outputs_append, htold, hpending, outputs_written, Tapped.linesFor_append,
      List.filterMap_append, ← h.held, hlines, filterMap_sink_chunks]

/-- Going on without writing. -/
theorem pass (h : run.PassesOn told ws) (hds : run.thread = d :: ds) (hheld : run'.held = run.held)
    (hthread : run'.thread = next ++ ds) (hnext : ∀ c, textsTold c (pending next) = []) :
    run'.PassesOn (told ++ d.event?.toList) ws where
  held := hheld.trans h.held
  told client := by
    have hpending : pending run.thread = d.event?.toList ++ pending ds := by
      rw [hds]
      cases he : d.event? <;> simp [pending, he]
    have hpending' : pending run'.thread = pending next ++ pending ds := by
      rw [hthread, pending, List.filterMap_append]
      rfl
    rw [← h.told client, hpending, hpending']
    simp [outputs_append, outputs_eq_nil hnext]

/-- A step of a thread that does not conclude its execution. -/
theorem of_thread (h : run.PassesOn told ws) (horder : run.Orderly r hs) (hds : run.thread = d :: ds)
    (hd : d.stroke? b s r { run with thread := ds } = some done)
    (hend : ∀ ending, d ≠ .thread r (.conclude ending)) :
    Run.PassesOn (told ++ d.event?.toList) (ws ++ (d.writes? run).toList)
      { done.run with thread := done.next ++ done.run.thread } := by
  obtain ⟨d, rfl⟩ | ⟨d, rfl⟩ := (hds ▸ horder.thread).head_cases
  · obtain ⟨hheld, hthread, hnext⟩ := horder.next_of_run hds hd
    have hnone : ((Duty.run r d).writes? run).toList = [] := rfl
    rw [hnone, List.append_nil]
    refine h.pass hds hheld (by rw [hthread]) fun c => ?_
    rcases hnext with hnext | ⟨-, hnext⟩ <;> simp [hnext, pending, Duty.event?, textsTold]
  · have hthread : done.run.thread = ds := (ThreadDuty.leaves_of_perform? hd).kept.thread
    have hevent : (Duty.thread r d).event?.toList = [] := rfl
    cases ThreadDuty.prints_of_perform? hd with
    | conclude ending => exact absurd rfl (hend ending)
    | @write channel text done hwrites hheld hnext =>
      obtain rfl := horder.eq_nil_of_isLast hds rfl
      have hthread' : done.next ++ done.run.thread = _ :=
        (by rw [hthread, List.append_nil] : _ = done.next).trans hnext
      have hwrites : (Duty.thread r .perform).writes? run = some (channel, text) := hwrites
      rw [hwrites, hevent, List.append_nil]
      exact h.write hds hheld hthread'
    | pass hlast hheld hnext =>
      have hwrites : (Duty.thread r d).writes? run = none := by
        cases d <;> first | rfl | cases hlast
      rw [hwrites, Option.toList_none, List.append_nil]
      exact h.pass hds hheld (by rw [hthread, hnext]) fun _ => rfl
    | quiet hwrites hheld hnext =>
      have hwrites : (Duty.thread r d).writes? run = none := hwrites
      rw [hwrites, Option.toList_none, List.append_nil]
      exact h.pass hds hheld (by rw [hthread]) hnext.texts

end Run.PassesOn

/-- A thread that is at work after its step was so before, and did not conclude its execution. -/
theorem Run.Orderly.atWork_before {hs ds : List Duty} {d : Duty} {done : Done}
    (horder : run.Orderly r hs) (hds : run.thread = d :: ds)
    (hd : d.stroke? b s r { run with thread := ds } = some done)
    (hwork : Run.AtWork r { done.run with thread := done.next ++ done.run.thread }) :
    run.AtWork r ∧ ∀ ending, d ≠ .thread r (.conclude ending) := by
  obtain ⟨d', hd'⟩ := hwork
  obtain ⟨d, rfl⟩ | ⟨d, rfl⟩ := (hds ▸ horder.thread).head_cases
  · obtain ⟨-, hthread, hnext⟩ := horder.next_of_run hds hd
    have hmem : .thread r d' ∈ ds := by
      rcases hnext with hnext | ⟨-, hnext⟩ <;> simpa [hthread, hnext] using hd'
    exact ⟨⟨d', by simp [hds, hmem]⟩, nofun⟩
  · refine ⟨⟨d, by simp [hds]⟩, ?_⟩
    rintro ending heq
    obtain rfl : d = .conclude ending := by simpa using heq
    obtain rfl := horder.eq_nil_of_isLast hds rfl
    obtain rfl := Option.some.inj ((ThreadDuty.perform?_conclude b s r _ ending).symm.trans hd)
    exact not_thread_mem_endDuties _ _ _ _ (by simpa using hd')

/-- A run whose thread has not begun was told nothing, and nothing was written. -/
theorem Run.PassesOn.of_idle (hheld : run.held = fun _ => []) (hes : ∀ e ∈ es, e.2 ≠ .thread r)
    (hpending : outputs (pending run.thread) = []) :
    run.PassesOn (toldBy r es) (writesIn r es) := by
  have hwrites : writesIn r es = [] :=
    List.filterMap_eq_nil_iff.2 fun e he => by simp [writeIn, hes e he]
  rw [toldBy_eq_nil hes, hwrites]
  exact ⟨hheld, fun _ => hpending⟩

/-- As long as its thread is at work, a run passes on what the thread wrote. -/
theorem State.Path.passesOn (h : Path b {} es s) (hr : s.runs[r]? = some run)
    (hwork : run.AtWork r) : run.PassesOn (toldBy r es) (writesIn r es) := by
  induction h generalizing run with
  | refl => simp at hr
  | @step es t u p hpath hp ih =>
    have horder := hpath.orderly State.orderly_empty
    by_cases hne : p = .thread r
    · subst hne
      obtain ⟨run₀, d, ds, done, hr₀, hds, hd, hrun⟩ := (horder.stride hp).exists_stroke
      obtain rfl := Option.some.inj (hrun.symm.trans hr)
      obtain ⟨hwork, hend⟩ := (horder.runs hr₀).atWork_before hds hd hwork
      rw [toldBy_thread hr₀ hds, writesIn_thread hr₀ hds]
      exact (ih hr₀ hwork).of_thread (horder.runs hr₀) hds hd hend
    · rw [toldBy_other hne, writesIn_other hne]
      rcases horder.awaits hp hne hr with ⟨run₀, hr₀, hawaits⟩ | ⟨hnone, s', hopens⟩
      · rcases hawaits.thread with hthread | ⟨hhead, hnil, clientPath, key, hthread⟩
        · exact (ih hr₀ (by rwa [Run.AtWork, ← hthread])).congr hawaits.held hthread
        -- The thread is spawned only now, so nothing was written yet.
        · cases hpath.executed hr₀ with
          | printing hprinted hwork₀ =>
            have hes := (hwork₀.resolve_left (by simp [Run.AtWork, hnil])).2
            refine .of_idle (hawaits.held.trans (funext fun c => ?_)) hes (by rw [hthread]; rfl)
            rw [hprinted.held c, wroteBy_eq_nil hes]
            rfl
          | concluded _ hbegun =>
            have hspawn := ((Path.refl (b := b)).step hp).not_spawn horder hbegun
            exact absurd hhead (hspawn.2 (t, p) (by simp))
      · obtain ⟨d, hd⟩ := hwork
        cases hopens
        cases hd
  | accept i _ _ ih => exact ih (by cases i <;> exact hr) hwork
  | @giveUp es t r' run₀ run₁ _ hr' hgive ih =>
    rcases State.getElem?_setRun hr with ⟨rfl, rfl⟩ | ⟨-, hr⟩
    · have hthread : run₁.thread = run₀.thread := by cases hgive <;> rfl
      have hheld : run₁.held = run₀.held := by cases hgive <;> rfl
      exact (ih hr' (by rwa [Run.AtWork, ← hthread])).congr hheld hthread
    · exact ih hr hwork

/-! ## A session and the streams -/

/-- A tap serves a thread that writes what the thread of run `r` does, whatever other parties do in
the session and others to the streams. As long as the thread is at work, the client of the tap is
given just the output that the thread told or is about to tell, and the tap holds what the run does.
So when the tap is flushed and taken off in the end, its client is given the rest of the output, and
nothing is left. -/
theorem output_through_relay {given : List Delivery} (h : State.Path b {} es s)
    (hr : s.runs[r]? = some run) (hwork : run.AtWork r) (hx : x.Standing name n)
    (hserves : x.Serves a fun _ => []) (hwrites : Tapped.Writes a x (writesIn r es) given y) :
    y.Serves a run.held ∧
      given.filterMap (sink a.client) = outputs (toldBy r es ++ pending run.thread) ∧
      ∀ k, y.taps[k]? = some a →
        (y.step (.flush k)).1.filterMap (sink a.client) =
            heldNotes run .stdout ++ heldNotes run .stderr ∧
          ((y.step (.flush k)).2.step (.remove k)).1 = [] := by
  obtain ⟨hheld, htold⟩ := h.passesOn hr hwork
  obtain ⟨rfl, hy, -⟩ := hwrites.served hx hserves
  rw [← hheld] at hy
  refine ⟨hy, (htold a.client).symm, fun k hk => ⟨heldNotes_relayed hy hk, ?_⟩⟩
  have hk' : (y.step (.flush k)).2.taps[k]? = some a := by simp [Tapped.step, hk]
  exact (hy.flush hk).2.remove hk'

end DebugAdapter.Session
