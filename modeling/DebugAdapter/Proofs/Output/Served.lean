import DebugAdapter.Proofs.Output.Held
/-!
# What a tap gives its client

A tap serves its thread as long as it is the latest of the thread (`Tapped.Serves`). Others may put
taps on the streams in the meantime and take theirs off, write and flush: as long as they leave the
tap alone (`Tapped.Spares`), it holds what it held. So what its client is given depends on what the
thread writes only, and is what the line buffers of both channels give away. Main statement:
`Tapped.Writes.served`.
-/

namespace DebugAdapter.Streams

variable {s : Streams} {c c' : Channel} {base w : Writer} {taps : List Tap} {t : ThreadId}
  {client : String} {a b : Tap}

/-! ## Relays apart from those of a tap -/

/-- The relays of the taps of a chain are distinct. -/
theorem Chain.eq_of_relay_eq (h : s.Chain c base w taps) (ha : a ∈ taps) (hb : b ∈ taps)
    (heq : (a.on c).relay = (b.on c).relay) : a = b := by
  induction h with
  | base => cases ha
  | @tap a' taps held _ hage h ih =>
    rcases List.mem_cons.1 ha with rfl | ha' <;> rcases List.mem_cons.1 hb with rfl | hb'
    · rfl
    · have hlt := h.relay_lt_age hb'
      omega
    · have hlt := h.relay_lt_age ha'
      omega
    · exact ih ha' hb'
  | detached _ _ _ _ _ ih => exact ih ha hb

theorem getElem?_capture_of_ne {id id' : Nat} (h : id ≠ id') (r : Relay) (deed : Deed) :
    (s.capture id r deed).2.relays[id']? = s.relays[id']? := by
  cases deed <;> exact getElem?_update_of_ne h _

theorem getElem?_install {id : Nat} {r : Relay} (h : s.relays[id]? = some r) :
    (s.install t client).2.relays[id]? = some r := by
  have hlt : id < s.relays.length := (List.getElem?_eq_some_iff.1 h).1
  simp only [install, installOn, replace, put, wrap]
  rw [List.append_assoc, List.getElem?_append_left hlt, h]

/-- Taking another element out leaves the first one that is looked for. -/
theorem find?_eraseIdx {α : Type} {l : List α} {p : α → Bool} {x : α} {k : Nat}
    (h : l.find? p = some x) (hk : l[k]? ≠ some x) : (l.eraseIdx k).find? p = some x := by
  induction l generalizing k with
  | nil => cases h
  | cons y l ih =>
    cases hp : p y with
    | true =>
      obtain rfl : y = x := by simpa [hp] using h
      cases k with
      | zero => exact absurd rfl hk
      | succ k => simp [hp]
    | false =>
      have h : l.find? p = some x := by simpa [hp] using h
      cases k with
      | zero => exact h
      | succ k => simpa [hp] using ih h (by simpa using hk)

namespace Tapped

variable {name : Channel → String} {n : Channel → Nat} {x y : Tapped} {held : Channel → Bytes}

theorem Standing.relay_ne (hx : x.Standing name n) (ha : a ∈ x.taps) (hb : b ∈ x.taps)
    (hne : a ≠ b) (c c' : Channel) : (a.on c).relay ≠ (b.on c').relay := by
  intro heq
  obtain ⟨held, hra⟩ := (hx c).relay_of_mem ha
  obtain ⟨held', hrb⟩ := (hx c').relay_of_mem hb
  rw [heq, hrb] at hra
  obtain rfl : c' = c := congrArg Relay.channel (Option.some.inj hra)
  exact hne ((hx c').chain.eq_of_relay_eq ha hb heq)

/-! ## A tap that serves its thread -/

/-- Whether a tap is the latest of its thread, and its relays hold these bytes. -/
structure Serves (x : Tapped) (a : Tap) (held : Channel → Bytes) : Prop where
  first : x.taps.find? (·.thread = a.thread) = some a
  holds : a.Holds held x.streams

/-- Whether a move leaves a tap alone. -/
def Spares (x : Tapped) (a : Tap) : Move → Prop
  | .install t _ | .deed t _ _ => t ≠ a.thread
  | .remove k | .flush k => x.taps[k]? ≠ some a

namespace Serves

theorem mem (h : x.Serves a held) : a ∈ x.taps :=
  List.mem_of_find?_eq_some h.first

/-- A tap that is just installed serves its thread, and holds nothing. -/
theorem install (x : Tapped) (t : ThreadId) (client : String) :
    (x.step (.install t client)).2.Serves ⟨t, client, (x.streams.install t client).1⟩
      fun _ => [] where
  first := by simp [step]
  holds := .install x.streams t client

/-- A tap goes on to serve its thread when something else is done to the streams. -/
theorem of_spares (h : x.Serves a held) (hx : x.Standing name n) {m : Move}
    (hm : Spares x a m) : (x.step m).2.Serves a held := by
  cases m with
  | install t client =>
    have hne : ¬t = a.thread := hm
    exact ⟨by simpa [step, hne] using h.first, fun c => getElem?_install (h.holds c)⟩
  | remove k =>
    cases hk : x.taps[k]? with
    | none => simpa only [step, hk] using h
    | some b =>
      have hne : b ≠ a := fun heq => hm (heq ▸ hk)
      have hrelay := hx.relay_ne (List.mem_of_getElem? hk) h.mem hne
      simp only [step, hk]
      refine ⟨find?_eraseIdx h.first hm, fun c => ?_⟩
      exact (getElem?_removeFrom_of_ne (hrelay .stderr c)).trans
        ((getElem?_removeFrom_of_ne (hrelay .stdout c)).trans (h.holds c))
  | flush k =>
    cases hk : x.taps[k]? with
    | none => simpa only [step, hk] using h
    | some b =>
      have hne : b ≠ a := fun heq => hm (heq ▸ hk)
      have hrelay := hx.relay_ne (List.mem_of_getElem? hk) h.mem hne
      simp only [step, hk]
      refine ⟨h.first, fun c => ?_⟩
      exact (getElem?_drain_of_ne (hrelay .stderr c)).trans
        ((getElem?_drain_of_ne (hrelay .stdout c)).trans (h.holds c))
  | deed t c deed =>
    simp only [step]
    cases ht : x.taps.find? (·.thread = t) with
    | none =>
      rw [(hx c).deliver_of_none ht deed]
      exact h
    | some b =>
      obtain ⟨held', -, hd⟩ := (hx c).deliver_of_find? ht deed
      have hthread : b.thread = t := by simpa using List.find?_some ht
      have hne : b ≠ a := fun heq => hm (hthread ▸ heq ▸ rfl)
      have hrelay := hx.relay_ne (List.mem_of_find?_eq_some ht) h.mem hne
      rw [hd]
      exact ⟨h.first, fun c' =>
        (getElem?_capture_of_ne (hrelay c c') _ deed).trans (h.holds c')⟩

/-- What the thread writes goes line by line to the client. -/
theorem write (h : x.Serves a held) (hx : x.Standing name n) (c : Channel) (bytes : Bytes) :
    (x.step (.deed a.thread c (.write bytes))).1 =
        (LineBuffer.write (held c) bytes).1.map (.chunk a.client c) ∧
      (x.step (.deed a.thread c (.write bytes))).2.Serves a
        (Function.update held c (LineBuffer.write (held c) bytes).2) := by
  obtain ⟨held', hr, hd⟩ := (hx c).deliver_of_find? h.first (.write bytes)
  obtain rfl : held c = held' := congrArg Relay.held (Option.some.inj ((h.holds c).symm.trans hr))
  obtain ⟨hgiven, hholds⟩ := h.holds.write c bytes
  simp only [step, hd]
  exact ⟨hgiven, h.first, hholds⟩

/-- What is held goes to the client when the tap gives it away. -/
theorem flush (h : x.Serves a held) {k : Nat} (hk : x.taps[k]? = some a) :
    (x.step (.flush k)).1 = a.rest held ∧ (x.step (.flush k)).2.Serves a fun _ => [] := by
  obtain ⟨hgiven, hholds⟩ := h.holds.flush
  simp only [step, hk]
  exact ⟨hgiven, h.first, hholds⟩

/-- What is held goes to the client when the tap is taken off. -/
theorem remove (h : x.Serves a held) {k : Nat} (hk : x.taps[k]? = some a) :
    (x.step (.remove k)).1 = a.rest held := by
  simp only [step, hk]
  exact h.holds.remove

end Serves

/-! ## What a thread writes, among other moves -/

/-- The thread of a tap writes these texts, one after the other, and others spare the tap. What the
writes give away comes from them in this order. -/
inductive Writes (a : Tap) : Tapped → List (Channel × String) → List Delivery → Tapped → Prop where
  | refl (x : Tapped) : Writes a x [] [] x
  | write {x y : Tapped} {ws : List (Channel × String)} {given : List Delivery} (c : Channel)
      (text : String)
      (h : Writes a (x.step (.deed a.thread c (.write (Utf8.ofString text)))).2 ws given y) :
      Writes a x ((c, text) :: ws)
        ((x.step (.deed a.thread c (.write (Utf8.ofString text)))).1 ++ given) y
  | other {x y : Tapped} {ws : List (Channel × String)} {given : List Delivery} {m : Move}
      (hm : Spares x a m) (h : Writes a (x.step m).2 ws given y) : Writes a x ws given y

/-- What is held on either channel after a text was written. -/
def holding (held : Channel → Bytes) (w : Channel × String) : Channel → Bytes :=
  Function.update held w.1 (LineBuffer.write (held w.1) (Utf8.ofString w.2)).2

/-- What a client is given when texts are written. -/
def linesFor (client : String) : (held : Channel → Bytes) → List (Channel × String) → List Delivery
  | _, [] => []
  | held, w :: ws =>
    (LineBuffer.write (held w.1) (Utf8.ofString w.2)).1.map (.chunk client w.1) ++
      linesFor client (holding held w) ws

theorem linesFor_append (client : String) (held : Channel → Bytes)
    (ws ws' : List (Channel × String)) : linesFor client held (ws ++ ws') =
      linesFor client held ws ++ linesFor client (ws.foldl holding held) ws' := by
  induction ws generalizing held with
  | nil => rfl
  | cons w ws ih => simp [linesFor, ih]

/-- The client of a tap is given the lines of what the thread writes, whatever others do. -/
theorem Writes.served {ws : List (Channel × String)} {given : List Delivery}
    (h : Writes a x ws given y) (hx : x.Standing name n) (hserves : x.Serves a held) :
    given = linesFor a.client held ws ∧ y.Serves a (ws.foldl holding held) ∧
      y.Standing name n := by
  induction h generalizing held with
  | refl => exact ⟨rfl, hserves, hx⟩
  | write c text h ih =>
    obtain ⟨hgiven, hserves⟩ := hserves.write hx c (Utf8.ofString text)
    obtain ⟨hmore, hy⟩ := ih (hx.step _) hserves
    exact ⟨congrArg₂ _ hgiven hmore, hy⟩
  | other hm h ih => exact ih (hx.step _) (hserves.of_spares hx hm)

end Tapped

end DebugAdapter.Streams
