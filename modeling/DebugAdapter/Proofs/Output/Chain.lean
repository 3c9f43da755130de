import Mathlib.Data.List.Basic
import DebugAdapter.Output.Relay
/-!
# Chains of relays

The writer on a slot is the top of a chain: a relay, the writer that it wraps, and so on down to
the recorder that was there first. `Streams.Chain` says which taps a chain consists of, the latest
first, with detached relays anywhere in between. A relay is younger than what it wraps
(`Writer.age`), so following a chain comes to its end. `Streams.Chain.deliverFrom_of_find?` and
`Streams.Chain.deliverFrom_of_none` say whom a deed reaches, `Streams.Chain.attachedFrom` what is
left of a chain whose top is taken off.
-/

namespace DebugAdapter

/-- How old a writer is at least, counted in relays. A recorder is older than all of them. -/
def Writer.age : Writer → Nat
  | .recorder _ _ => 0
  | .relay id => id + 1

namespace Streams

/-- The relay of an installation on one of the channels. -/
def Installed.on (i : Installed) : Channel → Wrapping
  | .stdout => i.out
  | .stderr => i.err

/-- A relay on both channels, the thread that it captures and the client that is told. -/
structure Tap where
  thread : ThreadId
  client : String
  installed : Installed
  deriving DecidableEq, Repr

/-- The relay of a tap on a channel. -/
def Tap.on (a : Tap) (c : Channel) : Wrapping :=
  a.installed.on c

/-- The state of a tap's relay that is attached and holds `held`. -/
def Tap.relay (a : Tap) (c : Channel) (held : Bytes) : Relay :=
  { thread := a.thread, channel := c, client := a.client, delegate := (a.on c).previous, held }

/-- The writer on top of the taps: the relay of the first, or `base` if there are none. -/
def topOf (c : Channel) (base : Writer) : List Tap → Writer
  | [] => base
  | a :: _ => .relay (a.on c).relay

/-- `s.Chain c base w taps`: along the delegates of `w` come the relays of `taps` on channel `c`,
and detached ones, and then `base`. -/
inductive Chain (s : Streams) (c : Channel) (base : Writer) : Writer → List Tap → Prop
  | base : Chain s c base base []
  | tap {a : Tap} {taps : List Tap} {held : Bytes} :
      s.relays[(a.on c).relay]? = some (a.relay c held) →
      (a.on c).previous.age ≤ (a.on c).relay →
      Chain s c base (a.on c).previous taps →
      Chain s c base (.relay (a.on c).relay) (a :: taps)
  | detached {id : Nat} {r : Relay} {taps : List Tap} :
      s.relays[id]? = some r → r.channel = c → r.detached = true →
      r.delegate.age ≤ id →
      Chain s c base r.delegate taps →
      Chain s c base (.relay id) taps

variable {s s' : Streams} {c : Channel} {base w : Writer} {taps : List Tap} {t : ThreadId}
  {name : String} {n : Nat}

/-! ## The relays of a chain -/

namespace Chain

/-- A chain is at most as long as there are relays. -/
theorem age_le (h : s.Chain c (.recorder name n) w taps) : w.age ≤ s.relays.length := by
  cases h with
  | base => exact Nat.zero_le _
  | tap hr _ _ => exact (List.getElem?_eq_some_iff.mp hr).1
  | detached hr _ _ _ _ => exact (List.getElem?_eq_some_iff.mp hr).1

/-- The relays of the taps are older than what wraps them. -/
theorem relay_lt_age (h : s.Chain c base w taps) {a : Tap} (ha : a ∈ taps) :
    (a.on c).relay < w.age := by
  induction h with
  | base => simp at ha
  | tap _ hage _ ih =>
    rcases List.mem_cons.mp ha with rfl | ha
    · exact Nat.lt_succ_self _
    · exact Nat.lt_succ_of_lt (Nat.lt_of_lt_of_le (ih ha) hage)
  | detached _ _ _ hage _ ih => exact Nat.lt_succ_of_lt (Nat.lt_of_lt_of_le (ih ha) hage)

/-- The relays of the taps are attached. -/
theorem relay_of_mem (h : s.Chain c base w taps) {a : Tap} (ha : a ∈ taps) :
    ∃ held, s.relays[(a.on c).relay]? = some (a.relay c held) := by
  induction h with
  | base => simp at ha
  | tap hr _ _ ih =>
    rcases List.mem_cons.mp ha with rfl | ha
    · exact ⟨_, hr⟩
    · exact ih ha
  | detached _ _ _ _ _ ih => exact ih ha

/-- Below the relay of the first tap are the other taps. -/
theorem tail {a : Tap} (h : s.Chain c base (.relay (a.on c).relay) (a :: taps)) :
    s.Chain c base (a.on c).previous taps := by
  generalize hw : Writer.relay (a.on c).relay = w at h
  cases h with
  | tap _ _ h => exact h
  | detached _ _ _ hage h =>
    have := h.relay_lt_age List.mem_cons_self
    simp only [Writer.relay.injEq] at hw
    omega

/-- The first tap has a relay of its own. -/
theorem head_ne {a b : Tap} (h : s.Chain c base (.relay (a.on c).relay) (a :: taps))
    (hb : b ∈ taps) : (b.on c).relay ≠ (a.on c).relay := by
  generalize hw : Writer.relay (a.on c).relay = w at h
  cases h with
  | tap _ hage h =>
    have := h.relay_lt_age hb
    omega
  | detached _ _ _ hage h =>
    have := h.relay_lt_age List.mem_cons_self
    simp only [Writer.relay.injEq] at hw
    omega

end Chain

/-! ## Following a chain -/

namespace Chain

/-- What is left of a chain without the detached relays on its top. -/
theorem attachedFrom (h : s.Chain c (.recorder name n) w taps) {fuel : Nat} (hf : w.age ≤ fuel) :
    s.attachedFrom fuel w = topOf c (.recorder name n) taps := by
  induction h generalizing fuel with
  | base => cases fuel <;> rfl
  | tap hr _ _ _ =>
    obtain ⟨fuel, rfl⟩ := Nat.exists_eq_add_one_of_ne_zero (Nat.ne_zero_of_lt hf)
    simp [Streams.attachedFrom, hr, Tap.relay, topOf]
  | @detached id r _ hr _ hd hage _ ih =>
    simp only [Writer.age] at hf
    obtain ⟨fuel, rfl⟩ := Nat.exists_eq_add_one_of_ne_zero (Nat.ne_zero_of_lt hf)
    have hfuel : r.delegate.age ≤ fuel := by omega
    simp [Streams.attachedFrom, hr, hd, ih hfuel]

/-- The detached relays on top of a chain can be left out. -/
theorem topOf (h : s.Chain c base w taps) : s.Chain c base (topOf c base taps) taps := by
  induction h with
  | base => exact .base
  | tap hr hage h _ => exact .tap hr hage h
  | detached _ _ _ _ _ ih => exact ih

end Chain

/-- What comes of a deed at relay `id`, which is in state `r` and captures it. -/
def capture (s : Streams) (id : Nat) (r : Relay) : Deed → List Delivery × Streams
  | .write bytes =>
    (chunks r (LineBuffer.write r.held bytes).1,
      s.update id fun r' => { r' with held := (LineBuffer.write r.held bytes).2 })
  | .flush => (chunks r (LineBuffer.drain r.held), s.update id fun r' => { r' with held := [] })

/-- A deed as a recorder of that name sees it. -/
def Deed.recorded (name : String) (c : Channel) : Deed → Delivery
  | .write bytes => .bytes name c bytes
  | .flush => .flush name c

/-- A recorder sees every deed that comes to it. -/
theorem deliverFrom_recorder (s : Streams) (t : ThreadId) (c : Channel) (deed : Deed) (fuel n : Nat)
    (name : String) :
    s.deliverFrom t c deed (fuel + 1) (.recorder name n) = ([deed.recorded name c], s) := by
  cases deed <;> rfl

/-- Where there is no relay nothing comes of a deed. -/
theorem deliverFrom_none {id fuel : Nat} {deed : Deed} (hr : s.relays[id]? = none) :
    s.deliverFrom t c deed (fuel + 1) (.relay id) = ([], s) := by
  simp only [deliverFrom, hr]

/-- A relay that is detached or another thread's passes a deed on. -/
theorem deliverFrom_passed {id fuel : Nat} {r : Relay} {deed : Deed} (hr : s.relays[id]? = some r)
    (hp : r.detached = true ∨ r.thread ≠ t) :
    s.deliverFrom t c deed (fuel + 1) (.relay id) = s.deliverFrom t c deed fuel r.delegate := by
  simp only [deliverFrom, hr, if_pos hp]

/-- An attached relay captures the deeds of its thread. -/
theorem deliverFrom_captured {id fuel : Nat} {r : Relay} {deed : Deed}
    (hr : s.relays[id]? = some r) (hd : r.detached = false) (ht : r.thread = t) :
    s.deliverFrom t c deed (fuel + 1) (.relay id) = s.capture id r deed := by
  cases deed <;> simp [deliverFrom, hr, hd, ht, capture]

/-- Where there is no relay there is nothing to give away. -/
theorem drain_none {id : Nat} (hr : s.relays[id]? = none) : s.drain id = ([], s) := by
  simp only [drain, hr]

namespace Chain

/-- A deed is captured by the first tap of its thread. -/
theorem deliverFrom_of_find? (h : s.Chain c (.recorder name n) w taps) {fuel : Nat}
    (hf : w.age < fuel) {a : Tap} (ha : taps.find? (·.thread = t) = some a) (deed : Deed) :
    ∃ held, s.relays[(a.on c).relay]? = some (a.relay c held) ∧
      s.deliverFrom t c deed fuel w = s.capture (a.on c).relay (a.relay c held) deed := by
  induction h generalizing fuel with
  | base => simp at ha
  | @tap b taps held hr hage _ ih =>
    obtain ⟨fuel, rfl⟩ := Nat.exists_eq_add_one_of_ne_zero (Nat.ne_zero_of_lt hf)
    by_cases hb : b.thread = t
    · obtain rfl : b = a := by simpa [hb] using ha
      exact ⟨held, hr, deliverFrom_captured hr rfl hb⟩
    · rw [deliverFrom_passed hr (.inr hb)]
      simp only [Writer.age] at hf
      exact ih (by omega) (by simpa [hb] using ha)
  | detached hr _ hd hage _ ih =>
    obtain ⟨fuel, rfl⟩ := Nat.exists_eq_add_one_of_ne_zero (Nat.ne_zero_of_lt hf)
    rw [deliverFrom_passed hr (.inl hd)]
    simp only [Writer.age] at hf
    exact ih (by omega) ha

/-- A deed of a thread without a tap comes to the recorder. -/
theorem deliverFrom_of_none (h : s.Chain c (.recorder name n) w taps) {fuel : Nat}
    (hf : w.age < fuel) (ht : ∀ a ∈ taps, a.thread ≠ t) (deed : Deed) :
    s.deliverFrom t c deed fuel w = ([deed.recorded name c], s) := by
  induction h generalizing fuel with
  | base =>
    obtain ⟨fuel, rfl⟩ := Nat.exists_eq_add_one_of_ne_zero (Nat.ne_zero_of_lt hf)
    exact deliverFrom_recorder s t c deed fuel n name
  | @tap b taps held hr hage _ ih =>
    obtain ⟨fuel, rfl⟩ := Nat.exists_eq_add_one_of_ne_zero (Nat.ne_zero_of_lt hf)
    rw [deliverFrom_passed hr (.inr (ht b List.mem_cons_self))]
    simp only [Writer.age] at hf
    exact ih (by omega) fun a ha => ht a (List.mem_cons_of_mem _ ha)
  | detached hr _ hd hage _ ih =>
    obtain ⟨fuel, rfl⟩ := Nat.exists_eq_add_one_of_ne_zero (Nat.ne_zero_of_lt hf)
    rw [deliverFrom_passed hr (.inl hd)]
    simp only [Writer.age] at hf
    exact ih (by omega) ht

end Chain

/-! ## What does not change a chain -/

/-- A relay that is updated. -/
theorem getElem?_update {id : Nat} {r : Relay} (hr : s.relays[id]? = some r) (f : Relay → Relay) :
    (s.update id f).relays[id]? = some (f r) := by
  simp [update, hr]

/-- The other relays. -/
theorem getElem?_update_of_ne {id id' : Nat} (h : id ≠ id') (f : Relay → Relay) :
    (s.update id f).relays[id']? = s.relays[id']? := by
  simp [update, h]

/-- The relays of channel `c` are as before, but for what they hold. -/
def KeepsOn (c : Channel) (s s' : Streams) : Prop :=
  ∀ (id : Nat) (r : Relay), s.relays[id]? = some r → r.channel = c →
    ∃ held, s'.relays[id]? = some { r with held := held }

namespace KeepsOn

/-- Relays that are unchanged are as before. -/
theorem of_relays (h : s'.relays = s.relays) : KeepsOn c s s' :=
  fun _ r hr _ => ⟨r.held, h ▸ hr⟩

/-- One step after the other. -/
theorem trans {s'' : Streams} (h : KeepsOn c s s') (h' : KeepsOn c s' s'') : KeepsOn c s s'' := by
  intro id r hr hc
  obtain ⟨held, hr'⟩ := h id r hr hc
  obtain ⟨held', hr''⟩ := h' id _ hr' hc
  exact ⟨held', hr''⟩

/-- A relay may hold something else. -/
theorem update_held (s : Streams) (c : Channel) (id : Nat) (f : Relay → Bytes) :
    KeepsOn c s (s.update id fun r => { r with held := f r }) := by
  intro id' r hr _
  by_cases h : id = id'
  · exact ⟨f r, h ▸ getElem?_update (h ▸ hr) _⟩
  · exact ⟨r.held, (getElem?_update_of_ne h _).trans hr⟩

/-- A relay of another channel may be changed. -/
theorem update_other {id : Nat} {r : Relay} (hr : s.relays[id]? = some r) (hc : r.channel ≠ c)
    (f : Relay → Relay) : KeepsOn c s (s.update id f) := by
  intro id' r' hr' hc'
  have h : id ≠ id' := by
    rintro rfl
    exact hc (by rw [Option.some.inj (hr.symm.trans hr'), hc'])
  exact ⟨r'.held, (getElem?_update_of_ne h f).trans hr'⟩

/-- A relay may be added. -/
theorem wrap (s : Streams) (c : Channel) (t : ThreadId) (client : String) (c' : Channel) :
    KeepsOn c s (s.wrap t client c').2 := by
  intro id r hr _
  have h : id < s.relays.length := (List.getElem?_eq_some_iff.mp hr).1
  exact ⟨r.held, by simp [Streams.wrap, List.getElem?_append_left h, hr]⟩

/-- A relay may give away what it holds. -/
theorem drain (s : Streams) (c : Channel) (id : Nat) : KeepsOn c s (s.drain id).2 := by
  unfold Streams.drain
  split
  · exact of_relays rfl
  · exact update_held s c id fun _ => []

/-- A relay may capture something. -/
theorem capture (s : Streams) (c : Channel) (id : Nat) (r : Relay) (deed : Deed) :
    KeepsOn c s (s.capture id r deed).2 := by
  cases deed with
  | write bytes => exact update_held s c id fun _ => (LineBuffer.write r.held bytes).2
  | flush => exact update_held s c id fun _ => []

/-- The chains of the channel stay. -/
theorem chain (h : KeepsOn c s s') (hw : s.Chain c base w taps) : s'.Chain c base w taps := by
  induction hw with
  | base => exact .base
  | tap hr hage _ ih =>
    obtain ⟨held, hr'⟩ := h _ _ hr rfl
    exact .tap hr' hage ih
  | detached hr hc hd hage _ ih =>
    obtain ⟨held, hr'⟩ := h _ _ hr hc
    exact .detached hr' hc hd hage ih

end KeepsOn

/-! ## Detaching -/

namespace Chain

/-- Relays that are younger than a chain do not matter to it. -/
theorem update_of_age_le (h : s.Chain c base w taps) {id : Nat} (hid : w.age ≤ id)
    (f : Relay → Relay) : (s.update id f).Chain c base w taps := by
  induction h with
  | base => exact .base
  | tap hr hage _ ih =>
    exact .tap ((getElem?_update_of_ne (Nat.ne_of_gt hid) f).trans hr) hage
      (ih (Nat.le_trans hage (Nat.le_of_lt hid)))
  | detached hr hc hd hage _ ih =>
    exact .detached ((getElem?_update_of_ne (Nat.ne_of_gt hid) f).trans hr) hc hd hage
      (ih (Nat.le_trans hage (Nat.le_of_lt hid)))

/-- A relay that is detached is a tap no longer, and the chain goes on behind it. -/
theorem detach (h : s.Chain c base w taps) {k : Nat} {a : Tap} (hk : taps[k]? = some a) :
    (s.update (a.on c).relay fun r => { r with detached := true }).Chain c base w
      (taps.eraseIdx k) := by
  induction h generalizing k with
  | base => simp at hk
  | @tap b taps held hr hage h ih =>
    cases k with
    | zero =>
      obtain rfl : b = a := by simpa using hk
      exact .detached (getElem?_update hr _) rfl rfl hage (h.update_of_age_le hage _)
    | succ k =>
      have hk : taps[k]? = some a := by simpa using hk
      have hlt := h.relay_lt_age (List.mem_of_getElem? hk)
      have hne : (a.on c).relay ≠ (b.on c).relay := Nat.ne_of_lt (Nat.lt_of_lt_of_le hlt hage)
      exact .tap ((getElem?_update_of_ne hne _).trans hr) hage (ih hk)
  | @detached id r taps hr hc hd hage h ih =>
    have hlt := h.relay_lt_age (List.mem_of_getElem? hk)
    have hne : (a.on c).relay ≠ id := Nat.ne_of_lt (Nat.lt_of_lt_of_le hlt hage)
    exact .detached ((getElem?_update_of_ne hne _).trans hr) hc hd hage (ih hk)

end Chain

end Streams

end DebugAdapter
