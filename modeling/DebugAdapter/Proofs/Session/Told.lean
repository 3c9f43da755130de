import DebugAdapter.Proofs.Output.Relayed
import DebugAdapter.Proofs.Session.Queued
/-!
# What the thread of a run tells

A path tells what the thread of a run told on it (`toldBy`) and what its script wrote (`wroteBy`).
While the thread is at work the two belong together (`Run.Printed`) : on each channel the texts told
or about to be told are the lines that are complete, and the run holds the characters after the last
of them. A step of the thread keeps this (`Run.Printed.of_thread`), since it either writes, or goes
on with something that is not about the output (`ThreadDuty.Prints`); a step of anybody else leaves
the run awaiting (`State.Orderly.awaits`).
-/

namespace DebugAdapter.Session

open LineBuffer (cut pieces)
open Protocol (Event Outgoing)

variable {b : Backend} {s t : State} {r : RunId} {run : Run} {c : Channel}

/-! ## Texts of events -/

/-- The text that an event passes on from a channel. -/
def writtenText? (c : Channel) (e : Event) : Option String :=
  if e.name = "output" ∧
      (e.body.bind (·.member? "category")).bind Json.text? = some c.category then
    (e.body.bind (·.member? "output")).bind Json.text?
  else none

/-- The texts that events pass on from a channel. -/
def textsTold (c : Channel) (es : List Event) : List String :=
  es.filterMap (writtenText? c)

theorem writtenText?_output (c : Channel) (category text : String) :
    writtenText? c (output category text) = if category = c.category then some text else none := by
  have hcategory : ((output category text).body.bind (·.member? "category")).bind Json.text? =
      some category := rfl
  have houtput : ((output category text).body.bind (·.member? "output")).bind Json.text? =
      some text := rfl
  rw [writtenText?, hcategory, houtput]
  simp [output]

theorem writtenText?_written (c c' : Channel) (text : String) :
    writtenText? c (written c' text) = if c' = c then some text else none := by
  rw [written, writtenText?_output]
  cases c <;> cases c' <;> rfl

@[simp] theorem writtenText?_consoleText (c : Channel) (text : String) :
    writtenText? c (consoleText text) = none := by
  rw [consoleText, writtenText?_output]
  cases c <;> rfl

@[simp] theorem writtenText?_console (c : Channel) (clientPath name : String) (data : Json) :
    writtenText? c (console clientPath name data) = none :=
  writtenText?_consoleText c _

@[simp] theorem writtenText?_stopped (c : Channel) (reason : StopReason) :
    writtenText? c (stopped reason) = none := rfl

@[simp] theorem writtenText?_terminated (c : Channel) : writtenText? c terminated = none := rfl

/-- A text does not tell that a script is over. -/
theorem terminated_ne_output (category text : String) : terminated ≠ output category text :=
  fun h => absurd (congrArg Event.name h) (by simp [terminated, output])

theorem textsTold_append (c : Channel) (es es' : List Event) :
    textsTold c (es ++ es') = textsTold c es ++ textsTold c es' :=
  List.filterMap_append

theorem textsTold_written (c c' : Channel) (texts : List String) :
    textsTold c (texts.map (written c')) = if c' = c then texts else [] := by
  by_cases h : c' = c <;> simp [textsTold, List.filterMap_map, h, writtenText?_written]

/-! ## What a step of the thread writes -/

/-- What a thread that has this duty next writes. -/
def ThreadDuty.writes? (run : Run) : ThreadDuty → Option (Channel × String)
  | perform =>
    match run.rest with
    | [] => none
    | stmt :: _ =>
      match stmt.action.perform run.vars with
      | .write channel text => some (channel, text)
      | _ => none
  | _ => none

/-- The events that a thread is about to send. -/
def pending (ds : List Duty) : List Event :=
  ds.filterMap Duty.event?

/-- Duties that go on with something of the thread's own, and neither pass on output nor tell that
the script is over. -/
structure GoesOn (r : RunId) (ds : List Duty) : Prop where
  own : ∃ d, .thread r d ∈ ds
  texts (c : Channel) : textsTold c (pending ds) = []
  ongoing : terminated ∉ pending ds

/-- What a step of the thread does about the output. -/
inductive ThreadDuty.Prints (r : RunId) (run : Run) : ThreadDuty → Done → Prop where
  | write {channel : Channel} {text : String} {done : Done}
      (hwrites : perform.writes? run = some (channel, text))
      (hheld : done.run.held = (writeText run channel text).2.held)
      (hnext : done.next = ((writeText run channel text).1.map fun l =>
        .run r (.emit (written channel l))) ++ [.thread r .reach]) : Prints r run perform done
  | conclude (ending : Ending) :
      Prints r run (.conclude ending)
        { run := { run with held := fun _ => [] }, next := endDuties r run ending }
  | pass {d : ThreadDuty} {done : Done} (hlast : d.isLast = false)
      (hheld : done.run.held = run.held) (hnext : done.next = []) : Prints r run d done
  | quiet {d : ThreadDuty} {done : Done} (hwrites : d.writes? run = none)
      (hheld : done.run.held = run.held) (hnext : GoesOn r done.next) : Prints r run d done

theorem goesOn_singleton (r : RunId) (d : ThreadDuty) : GoesOn r [.thread r d] :=
  ⟨⟨d, by simp⟩, fun _ => rfl, List.not_mem_nil⟩

theorem goesOn_unlock (r : RunId) (d : ThreadDuty) : GoesOn r [.run r .unlock, .thread r d] :=
  ⟨⟨d, by simp⟩, fun _ => rfl, List.not_mem_nil⟩

theorem goesOn_stallThen (b : Backend) (s : State) (r : RunId) (line : UInt32) (late : Bool)
    (d : ThreadDuty) : GoesOn r (stallThen b s r line late d) := by
  unfold stallThen
  split
  · exact ⟨⟨d, by simp⟩, fun _ => rfl, List.not_mem_nil⟩
  · exact goesOn_singleton r d

theorem goesOn_afterCheck (b : Backend) (s : State) (r : RunId) (line : UInt32) (suspends : Bool)
    (d : ThreadDuty) : GoesOn r (afterCheck b s r line suspends d) := by
  unfold afterCheck
  split
  · exact goesOn_stallThen b s r line true _
  · exact goesOn_singleton r d

theorem goesOn_stopDuties (r : RunId) (run : Run) (span : Script.Span) (reason : StopReason) :
    GoesOn r (stopDuties r run span reason) := by
  have hevents : pending (stopDuties r run span reason) =
      [stopped reason, pauseNote run.clientPath (Table.ofList run.vars) span] := rfl
  refine ⟨⟨.capture, by simp [stopDuties]⟩, fun c => ?_, ?_⟩
  · simp [hevents, textsTold, pauseNote]
  · simp [hevents, terminated, stopped, pauseNote, console, consoleText, output]

theorem goesOn_log (r : RunId) (text : String) (d : ThreadDuty) :
    GoesOn r [.run r .unlock, .run r (.emit (consoleText text)), .thread r d] := by
  have hevents : pending [.run r .unlock, .run r (.emit (consoleText text)), .thread r d] =
      [consoleText text] := rfl
  refine ⟨⟨d, by simp⟩, fun c => ?_, ?_⟩
  · simp [hevents, textsTold]
  · rw [hevents, List.mem_singleton]
    exact terminated_ne_output _ _

theorem ThreadDuty.prints_of_performIdle? {d : ThreadDuty} {done : Done}
    (hp : d.writes? run = none) (hd : d.performIdle? s r run = some done) :
    d.Prints r run done := by
  cases d <;> simp only [performIdle?] at hd <;> (repeat' split at hd) <;> cases hd
  case conclude ending => exact .conclude ending
  case stall | markPaused => exact .pass rfl rfl rfl
  case checkLive.isFalse => exact .quiet hp rfl (goesOn_unlock r _)
  all_goals exact .quiet hp rfl (goesOn_singleton r _)

theorem ThreadDuty.prints_of_perform? {d : ThreadDuty} {done : Done}
    (hd : d.perform? b s r run = some done) : d.Prints r run done := by
  unfold perform? at hd
  split at hd
  next hnil =>
    refine prints_of_performIdle? ?_ hd
    cases d <;> simp [writes?, hnil]
  next stmt rest hrest =>
    cases d
    case perform =>
      simp only [performAt?] at hd
      split at hd
      case h_2 channel text hwrite =>
        cases hd
        exact .write (by simp [writes?, hrest, hwrite]) rfl rfl
      all_goals
        cases hd
        exact .quiet (by simp_all [writes?]) rfl (goesOn_singleton r _)
    case capture =>
      cases hd
      exact .pass rfl rfl rfl
    case reach | enter | checkClosed | checkStep | checkLine | readLine | readTemplate =>
      cases hd
      refine .quiet rfl rfl ?_
      dsimp only
      repeat' split
      all_goals
        first
          | exact goesOn_singleton r _
          | exact goesOn_stallThen b s r _ _ _
          | exact goesOn_afterCheck b s r _ _ _
          | exact goesOn_stopDuties r run _ _
          | exact goesOn_log r _ _
          | exact goesOn_unlock r _
    all_goals exact prints_of_performIdle? (s := s) rfl hd

/-! ## Steps of others -/

/-- How a run comes out of a step that its thread does not take: what it holds stays, and its thread
goes on with what it has to do, unless the step sets it to work. -/
structure Run.Awaits (r : RunId) (spawns : Prop) (run run' : Run) : Prop where
  held : run'.held = run.held
  thread : run'.thread = run.thread ∨ spawns ∧ run.thread = [] ∧
    ∃ clientPath key, run'.thread = [.run r (.emit (startNote clientPath key)), .thread r .reach]

theorem RunDuty.held_of_perform? {d : RunDuty} {done : Done} (hd : d.perform? r run = some done) :
    done.run.held = run.held := by
  cases d <;> simp only [perform?] at hd <;> (repeat' split at hd) <;> cases hd <;> rfl

theorem Run.Awaits.stable (b : Backend) (r : RunId) {s : State} {p : Party}
    (hp : p ≠ .thread r) (run : Run) :
    Run.Stable b r (· = (s, p)) (run.Awaits r ((s.agenda p).head? = some (.run r .spawn))) where
  starter _ h := ⟨h.held, h.thread⟩
  duty {s' p' run' d done} hA hhead hapt hd h := by
    obtain ⟨rfl, rfl⟩ := Prod.mk.inj hA
    refine ⟨(RunDuty.held_of_perform? hd).trans h.held, ?_⟩
    by_cases hspawn : d = .spawn
    · subst hspawn
      have hnil : run'.thread = [] := hapt
      obtain rfl := Option.some.inj hd
      rcases h.thread with hthread | ⟨-, -, clientPath, key, hthread⟩
      · exact .inr ⟨hhead, hthread.symm.trans hnil, _, _, rfl⟩
      · cases hnil.symm.trans hthread
    · rw [RunDuty.thread_of_perform? hd hspawn]
      exact h.thread
  request hd h := by cases hd <;> exact ⟨h.held, h.thread⟩
  thread hA := absurd (Prod.mk.inj hA).2.symm hp
  givenUp hgive h := by cases hgive <;> exact ⟨h.held, h.thread⟩

/-- A step that its thread does not take leaves a run awaiting, or opens it. -/
theorem State.Orderly.awaits {p : Party} {run' : Run} (horder : s.Orderly)
    (hp : s.advance? b p = some t) (hne : p ≠ .thread r) (hr' : t.runs[r]? = some run') :
    (∃ run, s.runs[r]? = some run ∧
        run.Awaits r ((s.agenda p).head? = some (.run r .spawn)) run') ∨
      s.runs[r]? = none ∧ ∃ s' : State, s'.Opens b run' := by
  have hst := horder.stride hp
  cases hr : s.runs[r]? with
  | none =>
    have hfalse : Run.Stable b r (fun _ => True) fun _ => False :=
      ⟨fun _ h => h, fun _ _ _ _ h => h, fun _ h => h, fun _ _ _ _ _ h => h, fun _ h => h⟩
    rcases hfalse.of_stride horder hst trivial (fun _ h => by cases hr.symm.trans h) hr'
      with h | h
    · exact h.elim
    · exact .inr ⟨rfl, h.2⟩
  | some run =>
    have hself (run₀ : Run) (hr₀ : s.runs[r]? = some run₀) :
        run.Awaits r ((s.agenda p).head? = some (.run r .spawn)) run₀ := by
      obtain rfl := Option.some.inj (hr.symm.trans hr₀)
      exact ⟨rfl, .inl rfl⟩
    rcases (Run.Awaits.stable b r hne run).of_stride horder hst rfl hself hr' with h | ⟨hnone, -⟩
    · exact .inl ⟨run, rfl, h⟩
    · cases hr.symm.trans hnone

/-! ## What the thread told and wrote -/

/-- The event that a step is to send, if it is a step of the thread of run `r`. -/
def toldIn (r : RunId) (e : State × Party) : List Event :=
  if e.2 = .thread r then ((e.1.agenda e.2).head?.bind Duty.event?).toList else []

/-- The events that the thread of run `r` is to send in these steps. -/
def toldBy (r : RunId) (es : List (State × Party)) : List Event :=
  es.flatMap (toldIn r)

/-- What a thread that has this duty next writes. -/
def Duty.writes? (run : Run) : Duty → Option (Channel × String)
  | .thread _ d => d.writes? run
  | _ => none

/-- The characters of a text that is written, if that is to channel `c`. -/
def writtenOn (c : Channel) : Option (Channel × String) → List Char
  | some (c', text) => if c' = c then text.toList else []
  | none => []

/-- What a step writes to channel `c`, if it is a step of the thread of run `r`. -/
def wroteIn (r : RunId) (c : Channel) (e : State × Party) : List Char :=
  if e.2 = .thread r then
    writtenOn c ((e.1.runs[r]?).bind fun run => run.thread.head?.bind (Duty.writes? run))
  else []

/-- What the script of run `r` writes to channel `c` in these steps. -/
def wroteBy (r : RunId) (es : List (State × Party)) (c : Channel) : List Char :=
  es.flatMap (wroteIn r c)

section History

variable {es es' : List (State × Party)} {p : Party} {d : Duty} {ds : List Duty}

theorem toldBy_append (r : RunId) (es es' : List (State × Party)) :
    toldBy r (es ++ es') = toldBy r es ++ toldBy r es' :=
  List.flatMap_append

/-- A step of someone else adds nothing. -/
theorem toldBy_other (hp : p ≠ .thread r) (es : List (State × Party)) :
    toldBy r (es ++ [(s, p)]) = toldBy r es := by
  simp [toldBy, toldIn, hp]

theorem wroteBy_other (hp : p ≠ .thread r) (es : List (State × Party)) :
    wroteBy r (es ++ [(s, p)]) = wroteBy r es := by
  funext c
  simp [wroteBy, wroteIn, hp]

/-- A step of the thread adds what its duty sends. -/
theorem toldBy_thread (hr : s.runs[r]? = some run) (hds : run.thread = d :: ds)
    (es : List (State × Party)) :
    toldBy r (es ++ [(s, .thread r)]) = toldBy r es ++ d.event?.toList := by
  simp [toldBy, toldIn, State.agenda, hr, hds]

/-- A step of the thread adds what its duty writes. -/
theorem wroteBy_thread (hr : s.runs[r]? = some run) (hds : run.thread = d :: ds)
    (es : List (State × Party)) (c : Channel) :
    wroteBy r (es ++ [(s, .thread r)]) c = wroteBy r es c ++ writtenOn c (d.writes? run) := by
  simp [wroteBy, wroteIn, hr, hds]

end History

/-! ## Runs that print -/

/-- How what was told and is about to be told comes of what was written: on each channel it is the
lines that are complete, and the rest is held. Nothing tells yet that the script is over. -/
structure Run.Printed (told : List Event) (wrote : Channel → List Char) (run : Run) : Prop where
  held (c : Channel) : run.held c = Utf8.encode (cut (wrote c)).2
  texts (c : Channel) :
    textsTold c (told ++ pending run.thread) = (cut (wrote c)).1.map String.ofList
  ongoing : Session.terminated ∉ told ++ pending run.thread

namespace Run.Printed

variable {told : List Event} {wrote : Channel → List Char} {hs : List Duty}

/-- Writing a text. -/
theorem write {channel : Channel} {text : String} {run' : Run} (h : run.Printed told wrote)
    (hds : run.thread = [.thread r .perform])
    (hheld : run'.held = (writeText run channel text).2.held)
    (hnext : run'.thread = ((writeText run channel text).1.map fun l =>
      .run r (.emit (written channel l))) ++ [.thread r .reach]) :
    run'.Printed told fun c => wrote c ++ writtenOn c (some (channel, text)) := by
  have hwrite : LineBuffer.write (run.held channel) (Utf8.ofString text) =
      ((cut ((cut (wrote channel)).2 ++ text.toList)).1.map String.ofList,
        Utf8.encode (cut ((cut (wrote channel)).2 ++ text.toList)).2) := by
    rw [h.held channel]
    exact LineBuffer.write_encode (LineBuffer.not_mem_cut_snd _) _
  have hpending : pending run'.thread =
      ((cut ((cut (wrote channel)).2 ++ text.toList)).1.map String.ofList).map
        (written channel) := by
    rw [hnext, writeText, hwrite, pending, List.filterMap_append, List.filterMap_map]
    simp [Duty.event?, Function.comp_def]
  constructor
  · intro c
    rw [hheld]
    simp only [writeText, hwrite, writtenOn]
    by_cases hc : c = channel
    · subst hc
      rw [if_pos rfl, if_pos rfl, LineBuffer.cut_append (wrote c) text.toList]
    · rw [if_neg hc, if_neg (Ne.symm hc), List.append_nil, h.held c]
  · intro c
    have htold : textsTold c told = (cut (wrote c)).1.map String.ofList := by
      have hnone : pending run.thread = [] := by
        rw [hds]
        rfl
      simpa [hnone] using h.texts c
    rw [hpending, textsTold_append, htold, textsTold_written]
    by_cases hc : channel = c
    · subst hc
      rw [if_pos rfl, writtenOn, if_pos rfl, LineBuffer.cut_append (wrote channel) text.toList,
        List.map_append]
    · rw [if_neg hc, writtenOn, if_neg hc, List.append_nil, List.append_nil]
  · rw [hpending, List.mem_append, not_or]
    refine ⟨fun hmem => h.ongoing (List.mem_append_left _ hmem), fun hmem => ?_⟩
    obtain ⟨line, -, hline⟩ := List.mem_map.1 hmem
    exact terminated_ne_output _ _ hline.symm

/-- Going on without writing. -/
theorem pass {run' : Run} {d : Duty} {ds : List Duty} (h : run.Printed told wrote)
    (next : List Duty) (hds : run.thread = d :: ds) (hwrites : d.writes? run = none)
    (hheld : run'.held = run.held) (hthread : run'.thread = next ++ ds)
    (hnext : ∀ c, textsTold c (pending next) = [])
    (hongoing : Session.terminated ∉ pending next) :
    run'.Printed (told ++ d.event?.toList) fun c => wrote c ++ writtenOn c (d.writes? run) := by
  have hwrote : (fun c => wrote c ++ writtenOn c (d.writes? run)) = wrote := by
    funext c
    simp [hwrites, writtenOn]
  rw [hwrote]
  have hpending : pending run.thread = d.event?.toList ++ pending ds := by
    rw [hds]
    cases he : d.event? <;> simp [pending, he]
  have hpending' : pending run'.thread = pending next ++ pending ds := by
    rw [hthread, pending, List.filterMap_append]
    rfl
  constructor
  · intro c
    rw [hheld, h.held c]
  · intro c
    rw [← h.texts c, hpending, hpending']
    simp only [textsTold_append, hnext c, List.append_assoc, List.nil_append]
  · have h := h.ongoing
    rw [hpending] at h
    rw [hpending']
    simp_all

end Run.Printed

/-- Whether a thread has something of its own to do. -/
def Run.AtWork (r : RunId) (run : Run) : Prop :=
  ∃ d, .thread r d ∈ run.thread

section ThreadStep

variable {hs ds : List Duty} {d : Duty} {done : Done}

/-- A duty on its run that a thread does leaves what it holds and what it has to do, but for the
event that the run is over. -/
theorem Run.Orderly.next_of_run {d : RunDuty} (horder : run.Orderly r hs)
    (hds : run.thread = .run r d :: ds) (hd : d.perform? r { run with thread := ds } = some done) :
    done.run.held = run.held ∧ done.run.thread = ds ∧
      (done.next = [] ∨ ds = [] ∧ done.next = [.run r (.emit Session.terminated)]) := by
  have hspawn : d ≠ .spawn := by
    rintro rfl
    have hplan := horder.thread
    rw [hds] at hplan
    generalize decide (run.lock = some (.thread r)) = holds at hplan
    cases hplan
  have hheld : done.run.held = ({ run with thread := ds } : Run).held :=
    RunDuty.held_of_perform? hd
  refine ⟨hheld, RunDuty.thread_of_perform? hd hspawn, ?_⟩
  have hplan := horder.thread
  rw [hds] at hplan
  generalize decide (run.lock = some (.thread r)) = holds at hplan
  cases hplan <;> simp only [RunDuty.perform?] at hd <;> (repeat' split at hd) <;> cases hd <;>
    simp

/-- A duty that something of the thread's own follows is not the last. -/
theorem Run.Orderly.atWork_of_not_isLast {d : ThreadDuty} (horder : run.Orderly r hs)
    (hds : run.thread = .thread r d :: ds) (hlast : d.isLast = false) :
    ∃ d', .thread r d' ∈ ds := by
  have hplan := horder.thread
  rw [hds] at hplan
  generalize decide (run.lock = some (.thread r)) = holds at hplan
  cases hplan with
  | stall | capture | markPaused => simp [publication]
  | last h => cases hlast.symm.trans h

theorem Run.Orderly.eq_nil_of_isLast {d : ThreadDuty} (horder : run.Orderly r hs)
    (hds : run.thread = .thread r d :: ds) (hlast : d.isLast = true) : ds = [] := by
  have hplan := horder.thread
  rw [hds] at hplan
  generalize decide (run.lock = some (.thread r)) = holds at hplan
  cases hplan with
  | stall | capture | markPaused => cases hlast
  | last => rfl

/-- A step of a thread that does not conclude its execution goes on, and prints what it writes. -/
theorem Run.Printed.of_thread {told : List Event} {wrote : Channel → List Char}
    (h : run.Printed told wrote) (horder : run.Orderly r hs) (hds : run.thread = d :: ds)
    (hd : d.stroke? b s r { run with thread := ds } = some done) (hwork : run.AtWork r)
    (hend : ∀ ending, d ≠ .thread r (.conclude ending)) :
    Run.Printed (told ++ d.event?.toList) (fun c => wrote c ++ writtenOn c (d.writes? run))
        { done.run with thread := done.next ++ done.run.thread } ∧
      Run.AtWork r { done.run with thread := done.next ++ done.run.thread } := by
  obtain ⟨d, rfl⟩ | ⟨d, rfl⟩ := (hds ▸ horder.thread).head_cases
  · obtain ⟨hheld, hthread, hnext⟩ := horder.next_of_run hds hd
    obtain ⟨d', hd'⟩ := hwork
    have hmem : .thread r d' ∈ ds := by simpa [hds] using hd'
    have hnext : done.next = [] := hnext.resolve_right fun h => by simp [h.1] at hmem
    refine ⟨h.pass [] hds rfl hheld (by rw [hthread, hnext]) (fun _ => rfl)
      List.not_mem_nil, d', ?_⟩
    simp [hthread, hmem]
  · have hd : d.perform? b s r { run with thread := ds } = some done := hd
    have hthread : done.run.thread = ds := (ThreadDuty.leaves_of_perform? hd).kept.thread
    have hprints := ThreadDuty.prints_of_perform? hd
    cases hprints with
    | conclude ending => exact absurd rfl (hend ending)
    | @write channel text done hwrites hheld hnext =>
      obtain rfl := horder.eq_nil_of_isLast hds rfl
      have hthread' : done.next ++ done.run.thread = _ :=
        (by rw [hthread, List.append_nil] : _ = done.next).trans hnext
      have hwrites : ThreadDuty.perform.writes? run = some (channel, text) := hwrites
      have hprinted : Run.Printed told
          (fun c => wrote c ++ writtenOn c (some (channel, text)))
          { done.run with thread := done.next ++ done.run.thread } := h.write hds hheld hthread'
      refine ⟨?_, .reach, by simp [hthread']⟩
      simpa [Duty.writes?, hwrites, Duty.event?] using hprinted
    | pass hlast hheld hnext =>
      have hwrites : d.writes? run = none := by cases d <;> first | rfl | cases hlast
      obtain ⟨d', hd'⟩ := horder.atWork_of_not_isLast hds hlast
      refine ⟨h.pass [] hds hwrites hheld (by rw [hthread, hnext]) (fun _ => rfl)
        List.not_mem_nil, d', ?_⟩
      simp [hthread, hd']
    | quiet hwrites hheld hnext =>
      obtain ⟨d', hd'⟩ := hnext.own
      refine ⟨h.pass done.next hds hwrites hheld (by rw [hthread]) hnext.texts hnext.ongoing,
        d', ?_⟩
      simp [hd']

end ThreadStep

end DebugAdapter.Session
