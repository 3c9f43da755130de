import DebugAdapter.Proofs.Output.Held
import DebugAdapter.Proofs.Output.Lines
/-!
# What a relay tells

A thread whose relay is on top of both channels writes texts and flushes (`Act.run`), and then its
relay comes off (`Act.given`). On each channel the client is told, from one flush to the next, the
lines of what was written in between, and by the end of every act each line that is complete
(`Tap.OnTop.relays`). A relay that was just installed is on top (`Tap.OnTop.install`).
-/

namespace DebugAdapter.Streams

open LineBuffer (cut pieces)

/-! ## Acts of a thread -/

/-- What a thread does to the streams that its relay is on top of. -/
inductive Act where
  /-- Writes a text to a channel. -/
  | write (c : Channel) (text : String)
  /-- Writes a text and a line feed to a channel. -/
  | writeLine (c : Channel) (text : String)
  /-- Flushes a channel. -/
  | flush (c : Channel)
  /-- Makes the relay give away what it holds on either channel. -/
  | flushRelay
  deriving DecidableEq, Repr

namespace Act

/-- What an act of the thread of a tap gives away, and what it leads to. -/
def perform (a : Tap) (s : Streams) : Act → List Delivery × Streams
  | write c text => s.write a.thread c (Utf8.ofString text)
  | writeLine c text => s.writeLine a.thread c text
  | flush c => s.flush a.thread c
  | flushRelay => s.flushRelay a.installed

/-- What acts give away, and what they lead to. -/
def run (a : Tap) (s : Streams) : List Act → List Delivery × Streams
  | [] => ([], s)
  | act :: acts =>
    let (given, s) := act.perform a s
    let (more, s) := run a s acts
    (given ++ more, s)

/-- The characters that an act writes to a channel. -/
def writes (c : Channel) : Act → List Char
  | write c' text => if c' = c then text.toList else []
  | writeLine c' text => if c' = c then text.toList ++ ['\n'] else []
  | _ => []

/-- Whether an act flushes a channel. -/
def flushes (c : Channel) : Act → Bool
  | flush c' => c' = c
  | flushRelay => true
  | _ => false

/-- What is written to a channel from one flush to the next, and from the last flush on. `sofar` is
what was written since the last flush before. -/
def stretches (c : Channel) (sofar : List Char) : List Act → List (List Char)
  | [] => [sofar]
  | act :: acts =>
    if act.flushes c then sofar :: stretches c [] acts
    else stretches c (sofar ++ act.writes c) acts

/-- Only the first stretch depends on what was written before. -/
theorem exists_stretches (c : Channel) (acts : List Act) :
    ∃ first rest, ∀ sofar, stretches c sofar acts = (sofar ++ first) :: rest := by
  induction acts with
  | nil => exact ⟨[], [], fun sofar => by simp [stretches]⟩
  | cons act acts ih =>
    cases hf : act.flushes c with
    | true => exact ⟨[], stretches c [] acts, fun sofar => by simp [stretches, hf]⟩
    | false =>
      obtain ⟨first, rest, h⟩ := ih
      exact ⟨act.writes c ++ first, rest, fun sofar => by simp [stretches, hf, h]⟩

/-- The lines that are complete already can be cut off the first stretch. -/
theorem pieces_stretches (c : Channel) (sofar : List Char) (acts : List Act) :
    (stretches c sofar acts).flatMap pieces =
      (cut sofar).1 ++ (stretches c (cut sofar).2 acts).flatMap pieces := by
  obtain ⟨first, rest, h⟩ := exists_stretches c acts
  simp only [h, List.flatMap_cons, LineBuffer.pieces_append sofar first, List.append_assoc]

/-- The pieces of the stretches are what is written. -/
theorem flatten_pieces_stretches (c : Channel) (sofar : List Char) (acts : List Act) :
    ((stretches c sofar acts).flatMap pieces).flatten = sofar ++ acts.flatMap (writes c) := by
  induction acts generalizing sofar with
  | nil => simp [stretches, LineBuffer.flatten_pieces]
  | cons act acts ih =>
    cases hf : act.flushes c with
    | true =>
      have hw : act.writes c = [] := by cases act <;> simp_all [flushes, writes]
      simp [stretches, hf, ih, hw, LineBuffer.flatten_pieces]
    | false => simp [stretches, hf, ih]

end Act

/-! ## A tap on top -/

/-- What a client is told when it is given these texts on a channel. -/
def toldOn (client : String) (c : Channel) (texts : List (List Char)) : List Delivery :=
  texts.map fun text => .chunk client c (String.ofList text)

/-- The texts that a client was given on a channel. -/
def textsOn (client : String) (c : Channel) (given : List Delivery) : List String :=
  given.filterMap fun
    | .chunk k c' text => if k = client ∧ c' = c then some text else none
    | _ => none

@[simp] theorem textsOn_append (client : String) (c : Channel) (given more : List Delivery) :
    textsOn client c (given ++ more) = textsOn client c given ++ textsOn client c more :=
  List.filterMap_append

/-- The texts of one channel. -/
theorem textsOn_toldOn (client : String) (c c' : Channel) (texts : List (List Char)) :
    textsOn client c (toldOn client c' texts) =
      if c' = c then texts.map String.ofList else [] := by
  by_cases h : c' = c <;> simp [textsOn, toldOn, List.filterMap_map, h]

/-- The characters of texts. -/
theorem flatMap_toList_map (texts : List (List Char)) :
    (texts.map String.ofList).flatMap String.toList = texts.flatten := by
  simp [List.flatMap_def]

/-- Whether a tap is on top of both channels, and its relays hold these characters. -/
structure Tap.OnTop (a : Tap) (held : Channel → List Char) (s : Streams) : Prop where
  slot (c : Channel) : s.slot c = .relay (a.on c).relay
  relay (c : Channel) : s.relays[(a.on c).relay]? = some (a.relay c (Utf8.encode (held c)))
  held (c : Channel) : '\n' ∉ held c

/-- What a client is told when characters that were held are given away. -/
theorem map_drain_encode (client : String) (c : Channel) {p : List Char} (hp : '\n' ∉ p) :
    (LineBuffer.drain (Utf8.encode p)).map (.chunk client c) = toldOn client c (pieces p) := by
  simp [LineBuffer.drain_encode hp, toldOn]

namespace Tap.OnTop

variable {a : Tap} {held : Channel → List Char} {s : Streams} {c c' : Channel}

theorem holds (h : a.OnTop held s) : a.Holds (Utf8.encode ∘ held) s :=
  h.relay

/-- A tap that is just installed is on top, and holds nothing. -/
theorem install (s : Streams) (t : ThreadId) (client : String) :
    Tap.OnTop ⟨t, client, (s.install t client).1⟩ (fun _ => []) (s.install t client).2 where
  slot c := by cases c <;> rfl
  relay := Tap.Holds.install s t client
  held _ := by simp

/-- One of the relays may come to hold something else. -/
theorem hold (h : a.OnTop held s) (c : Channel) {p : List Char} (hp : '\n' ∉ p) :
    a.OnTop (Function.update held c p)
      (s.update (a.on c).relay fun r => { r with held := Utf8.encode p }) where
  slot := h.slot
  relay := by
    have hholds := h.holds.hold c (Utf8.encode p)
    rwa [← Function.comp_update] at hholds
  held c' := by
    by_cases hc : c' = c
    · subst hc
      rwa [Function.update_self]
    · rw [Function.update_of_ne hc]
      exact h.held c'

/-- What the thread does is captured. -/
theorem deliver (h : a.OnTop held s) (c : Channel) (deed : Deed) :
    s.deliver a.thread c deed =
      s.capture (a.on c).relay (a.relay c (Utf8.encode (held c))) deed := by
  rw [Streams.deliver, h.slot c]
  exact deliverFrom_captured (h.relay c) rfl rfl

/-- A text that is written goes line by line to the client. -/
theorem write (h : a.OnTop held s) (c : Channel) (cs : List Char) :
    (s.write a.thread c (Utf8.encode cs)).1 = toldOn a.client c (cut (held c ++ cs)).1 ∧
      a.OnTop (Function.update held c (cut (held c ++ cs)).2)
        (s.write a.thread c (Utf8.encode cs)).2 := by
  rw [Streams.write, h.deliver]
  simp only [Streams.capture, Tap.relay, LineBuffer.write_encode (h.held c)]
  constructor
  · simp [chunks, toldOn]
  · exact h.hold c (LineBuffer.not_mem_cut_snd _)

/-- What is held goes to the client when the relay gives it away. -/
theorem drain (h : a.OnTop held s) (c : Channel) :
    (s.drain (a.on c).relay).1 = toldOn a.client c (pieces (held c)) ∧
      a.OnTop (Function.update held c []) (s.drain (a.on c).relay).2 := by
  refine ⟨(h.holds.drain c).1.trans (map_drain_encode _ c (h.held c)), ?_⟩
  simp only [Streams.drain, h.relay c]
  exact h.hold c (p := []) (by simp)

/-- A flush makes the relay give away what it holds. -/
theorem flush (h : a.OnTop held s) (c : Channel) :
    s.flush a.thread c = s.drain (a.on c).relay := by
  rw [Streams.flush, h.deliver]
  simp only [Streams.capture, Streams.drain, h.relay c]

/-- What is held goes to the client when the relay comes off. -/
theorem remove (h : a.OnTop held s) :
    (s.remove a.installed).1 =
      toldOn a.client .stdout (pieces (held .stdout)) ++
        toldOn a.client .stderr (pieces (held .stderr)) := by
  rw [h.holds.remove, Tap.rest]
  exact congrArg₂ _ (map_drain_encode _ _ (h.held .stdout)) (map_drain_encode _ _ (h.held .stderr))

end Tap.OnTop

/-! ## Acts line by line -/

namespace Act

/-- What an act makes the client be told of a channel whose relay holds these characters. -/
def tells (c : Channel) (held : List Char) (act : Act) : List (List Char) :=
  if act.flushes c then pieces held else (cut (held ++ act.writes c)).1

/-- What the relay of a channel holds after an act. -/
def leaves (c : Channel) (held : List Char) (act : Act) : List Char :=
  if act.flushes c then [] else (cut (held ++ act.writes c)).2

/-- What is told and what is held make up what is written. -/
theorem tells_append (c : Channel) (held : List Char) (act : Act) (acts : List Act) :
    act.tells c held ++ (stretches c (act.leaves c held) acts).flatMap pieces =
      (stretches c held (act :: acts)).flatMap pieces := by
  cases hf : act.flushes c with
  | true => simp [tells, leaves, stretches, hf]
  | false => simp [tells, leaves, stretches, hf, ← pieces_stretches]

/-- A channel that an act does nothing to. -/
theorem leaves_of_idle {c : Channel} {held : List Char} {act : Act} (hf : act.flushes c = false)
    (hw : act.writes c = []) (hheld : '\n' ∉ held) :
    act.leaves c held = held ∧ act.tells c held = [] := by
  simp [leaves, tells, hf, hw, LineBuffer.cut_of_not_mem hheld]

/-- An act on one channel does nothing to the other. -/
theorem idle_of_ne {c c' : Channel} (hc : c ≠ c') (text : String) :
    (write c' text).writes c = [] ∧ (writeLine c' text).writes c = [] ∧
      (flush c').flushes c = false := by
  simp [writes, flushes, hc.symm]

end Act

/-- Whether everything that is given away is a text for this client. -/
def OnlyTo (client : String) (given : List Delivery) : Prop :=
  ∀ d ∈ given, ∃ c text, d = .chunk client c text

/-- Texts that a client is told are for this client. -/
theorem onlyTo_toldOn (client : String) (c : Channel) (texts : List (List Char)) :
    OnlyTo client (toldOn client c texts) := by
  intro d hd
  obtain ⟨text, -, rfl⟩ := List.mem_map.mp hd
  exact ⟨c, _, rfl⟩

theorem OnlyTo.append {client : String} {given more : List Delivery} (h : OnlyTo client given)
    (h' : OnlyTo client more) : OnlyTo client (given ++ more) :=
  fun d hd => (List.mem_append.mp hd).elim (h d) (h' d)

namespace Tap.OnTop

variable {a : Tap} {held : Channel → List Char} {s s' : Streams} {act : Act}
  {given : List Delivery}

/-- What the relays hold and what was given away after an act on one channel. -/
theorem of_one (h : a.OnTop held s) (c : Channel)
    (hidle : ∀ c', c' ≠ c → act.flushes c' = false ∧ act.writes c' = [])
    (hgiven : given = toldOn a.client c (act.tells c (held c)) ∧
      a.OnTop (Function.update held c (act.leaves c (held c))) s') :
    a.OnTop (fun c => act.leaves c (held c)) s' ∧ OnlyTo a.client given ∧
      ∀ c, textsOn a.client c given = (act.tells c (held c)).map String.ofList := by
  obtain ⟨rfl, hs'⟩ := hgiven
  have hother (c' : Channel) (hc : c' ≠ c) :
      act.leaves c' (held c') = held c' ∧ act.tells c' (held c') = [] :=
    Act.leaves_of_idle (hidle c' hc).1 (hidle c' hc).2 (h.held c')
  have hheld : (fun c => act.leaves c (held c)) =
      Function.update held c (act.leaves c (held c)) := by
    funext c'
    by_cases hc : c' = c
    · subst hc
      rw [Function.update_self]
    · rw [Function.update_of_ne hc, (hother c' hc).1]
  refine ⟨hheld ▸ hs', onlyTo_toldOn _ _ _, fun c' => ?_⟩
  rw [textsOn_toldOn]
  by_cases hc : c = c'
  · subst hc
    rw [if_pos rfl]
  · rw [if_neg hc, (hother c' (Ne.symm hc)).2]
    rfl

/-- An act tells the client the lines that it completes. -/
theorem perform (h : a.OnTop held s) (act : Act) :
    a.OnTop (fun c => act.leaves c (held c)) (act.perform a s).2 ∧
      OnlyTo a.client (act.perform a s).1 ∧
        ∀ c, textsOn a.client c (act.perform a s).1 =
          (act.tells c (held c)).map String.ofList := by
  cases act with
  | write c text =>
    refine h.of_one c (fun c' hc => ⟨rfl, (Act.idle_of_ne hc text).1⟩) ?_
    simpa [Act.tells, Act.leaves, Act.flushes, Act.writes, Act.perform, Utf8.ofString]
      using h.write c text.toList
  | writeLine c text =>
    refine h.of_one c (fun c' hc => ⟨rfl, (Act.idle_of_ne hc text).2.1⟩) ?_
    simpa [Act.tells, Act.leaves, Act.flushes, Act.writes, Act.perform, writeLine,
      Utf8.ofString] using h.write c (text ++ "\n").toList
  | flush c =>
    refine h.of_one c (fun c' hc => ⟨(Act.idle_of_ne hc "").2.2, rfl⟩) ?_
    simpa [Act.tells, Act.leaves, Act.flushes, Act.perform, h.flush] using h.drain c
  | flushRelay =>
    obtain ⟨hout, h'⟩ := h.drain .stdout
    obtain ⟨herr, h''⟩ := h'.drain .stderr
    have hheld : Function.update (Function.update held .stdout []) .stderr [] =
        fun c => Act.leaves c (held c) .flushRelay := by
      funext c
      cases c <;> rfl
    have hgiven : (Act.perform a s .flushRelay).1 =
        toldOn a.client .stdout (pieces (held .stdout)) ++
          toldOn a.client .stderr (pieces (held .stderr)) := congrArg₂ _ hout herr
    refine ⟨hheld ▸ h'', ?_, fun c => ?_⟩
    · rw [hgiven]
      exact (onlyTo_toldOn _ _ _).append (onlyTo_toldOn _ _ _)
    · rw [hgiven, textsOn_append, textsOn_toldOn, textsOn_toldOn]
      cases c <;> simp [Act.tells, Act.flushes]

/-- Acts tell the client what they write line by line; what is left is held. -/
theorem run (h : a.OnTop held s) (acts : List Act) :
    ∃ (held' : Channel → List Char) (texts : Channel → List (List Char)),
      a.OnTop held' (Act.run a s acts).2 ∧ OnlyTo a.client (Act.run a s acts).1 ∧
        ∀ c, textsOn a.client c (Act.run a s acts).1 = (texts c).map String.ofList ∧
          texts c ++ pieces (held' c) = (Act.stretches c (held c) acts).flatMap pieces := by
  induction acts generalizing held s with
  | nil =>
    refine ⟨held, fun _ => [], h, fun d hd => by simp [Act.run] at hd, fun c => ⟨rfl, ?_⟩⟩
    simp [Act.stretches]
  | cons act acts ih =>
    obtain ⟨h', honly, htexts⟩ := h.perform act
    obtain ⟨held', texts, hrun, honly', hspec⟩ := ih h'
    refine ⟨held', fun c => act.tells c (held c) ++ texts c, hrun, honly.append honly',
      fun c => ⟨?_, ?_⟩⟩
    · simp [Act.run, htexts, (hspec c).1]
    · rw [List.append_assoc, (hspec c).2, Act.tells_append]

end Tap.OnTop

/-! ## Acts, and then the relay comes off -/

/-- What is given away when a tap's thread performs acts and then the tap's relay comes off. -/
def Act.given (a : Tap) (s : Streams) (acts : List Act) : List Delivery :=
  (run a s acts).1 ++ ((run a s acts).2.remove a.installed).1

/-- How a tap passes acts of its thread on to its client. -/
structure Tap.Relays (a : Tap) (s : Streams) (acts : List Act) : Prop where
  only : OnlyTo a.client (Act.given a s acts)
  /-- From one flush to the next, the client is told the pieces of what was written in between,
  however it was divided into writes. -/
  stretches (c : Channel) : textsOn a.client c (Act.given a s acts) =
    ((Act.stretches c [] acts).flatMap pieces).map String.ofList
  all (c : Channel) : (textsOn a.client c (Act.given a s acts)).flatMap String.toList =
    acts.flatMap (Act.writes c)
  lines (c : Channel) : ∀ text ∈ textsOn a.client c (Act.given a s acts),
    text ≠ "" ∧ '\n' ∉ text.toList.dropLast
  /-- After every act the client was told all but what follows the last line feed. -/
  completed (c : Channel) {before : List Act} (h : before <+: acts) :
    ∃ rest : List Char, '\n' ∉ rest ∧
      (textsOn a.client c (Act.run a s before).1).flatMap String.toList ++ rest =
        before.flatMap (Act.writes c)

namespace Tap.OnTop

variable {a : Tap} {s : Streams}

/-- After every act the client was told all but what is held. -/
theorem completed (h : a.OnTop (fun _ => []) s) (acts : List Act) (c : Channel) :
    ∃ rest : List Char, '\n' ∉ rest ∧
      (textsOn a.client c (Act.run a s acts).1).flatMap String.toList ++ rest =
        acts.flatMap (Act.writes c) := by
  obtain ⟨held, texts, hrun, -, hspec⟩ := h.run acts
  refine ⟨held c, hrun.held c, ?_⟩
  have hsum := congrArg List.flatten (hspec c).2
  rw [List.flatten_append, LineBuffer.flatten_pieces, Act.flatten_pieces_stretches] at hsum
  rw [(hspec c).1, flatMap_toList_map, hsum, List.nil_append]

/-- Acts and the end of a tap that holds nothing before them. -/
theorem relays (h : a.OnTop (fun _ => []) s) (acts : List Act) : a.Relays s acts := by
  obtain ⟨held, texts, hrun, honly, hspec⟩ := h.run acts
  have hlast := hrun.remove
  have hgiven (c : Channel) : textsOn a.client c (Act.given a s acts) =
      ((Act.stretches c [] acts).flatMap pieces).map String.ofList := by
    rw [Act.given, textsOn_append, (hspec c).1, hlast, textsOn_append, textsOn_toldOn,
      textsOn_toldOn, ← (hspec c).2, List.map_append]
    cases c <;> simp
  refine ⟨honly.append ?_, hgiven, fun c => ?_, fun c text htext => ?_, fun c before _ =>
    h.completed before c⟩
  · rw [hlast]
    exact (onlyTo_toldOn _ _ _).append (onlyTo_toldOn _ _ _)
  · rw [hgiven, flatMap_toList_map, Act.flatten_pieces_stretches, List.nil_append]
  · rw [hgiven] at htext
    obtain ⟨p, hp, rfl⟩ := List.mem_map.mp htext
    obtain ⟨stretch, -, hp⟩ := List.mem_flatMap.mp hp
    simpa using LineBuffer.of_mem_pieces hp

end Tap.OnTop

end DebugAdapter.Streams
