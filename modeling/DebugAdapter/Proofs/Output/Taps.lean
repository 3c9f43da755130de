import DebugAdapter.Proofs.Output.Chain
/-!
# Taps that come and go

Threads put taps on the streams and take them off again, in any order, and write and flush in
between. `Tapped` is the streams with the taps that are on them, the latest first, and
`Tapped.run` what a list of moves makes of them. Whatever the moves, on either channel the taps are
the chain below the slot (`Tapped.run_standing`), so a deed is captured by the latest tap of its
thread.
-/

namespace DebugAdapter.Streams

variable {s s' : Streams} {c c' : Channel} {base w : Writer} {taps : List Tap} {t : ThreadId}
  {client : String}

/-! ## Taps on one channel -/

/-- The chain below the slot of channel `c` has these taps, and no detached relay on its top. -/
structure Standing (s : Streams) (c : Channel) (base : Writer) (taps : List Tap) : Prop where
  chain : s.Chain c base (s.slot c) taps
  slot : s.slot c = topOf c base taps

/-- The slot of a channel after `put`. -/
@[simp] theorem put_slot_self (s : Streams) (c : Channel) (w : Writer) :
    (s.put c w).slot c = w := by
  simp [put]

/-- A slot after `put` on another one. -/
theorem put_slot_of_ne (s : Streams) (w : Writer) (h : c' ≠ c) :
    (s.put c w).slot c' = s.slot c' := by
  simp [put, h]

/-- Giving away what a relay holds leaves the slots. -/
@[simp] theorem drain_slot (s : Streams) (id : Nat) : (s.drain id).2.slot = s.slot := by
  unfold drain
  split <;> rfl

/-- Capturing leaves the slots. -/
@[simp] theorem capture_slot (s : Streams) (id : Nat) (r : Relay) (deed : Deed) :
    (s.capture id r deed).2.slot = s.slot := by
  cases deed <;> rfl

/-- Taking a relay off puts the writer below back on the slot, or detaches the relay. -/
theorem removeFrom_snd (s : Streams) (c : Channel) (w : Wrapping) :
    (s.removeFrom c w).2 =
      if s.slot c = .relay w.relay then
        (s.drain w.relay).2.put c ((s.drain w.relay).2.attached w.previous)
      else (s.drain w.relay).2.update w.relay fun r => { r with detached := true } := by
  by_cases h : s.slot c = .relay w.relay <;> simp [removeFrom, restore, h]

namespace Standing

/-- The taps stay where the relays and the slot do. -/
theorem of_keepsOn (h : s.Standing c base taps) (hk : KeepsOn c s s')
    (hs : s'.slot c = s.slot c) : s'.Standing c base taps :=
  ⟨hs ▸ hk.chain h.chain, hs.trans h.slot⟩

/-- The relay of the first tap is on top. -/
theorem chain_top {a : Tap} (h : s.Standing c base (a :: taps)) :
    s.Chain c base (.relay (a.on c).relay) (a :: taps) := by
  have hs : s.slot c = .relay (a.on c).relay := h.slot
  exact hs ▸ h.chain

/-- A new relay is the first tap. -/
theorem installOn {name : String} {n : Nat} (h : s.Standing c (.recorder name n) taps) {a : Tap}
    (ht : a.thread = t) (hc : a.client = client) (ha : a.on c = (s.installOn t client c).1) :
    (s.installOn t client c).2.Standing c (.recorder name n) (a :: taps) := by
  have hon : a.on c = ⟨s.relays.length, s.slot c⟩ := ha
  have hs : (s.installOn t client c).2.slot c = .relay (a.on c).relay := by
    simp [Streams.installOn, Streams.replace, Streams.put, Streams.wrap, hon]
  have hr : (s.installOn t client c).2.relays[(a.on c).relay]? = some (a.relay c []) := by
    simp [Streams.installOn, Streams.replace, Streams.put, Streams.wrap, hon, Tap.relay, ht, hc]
  have hk : KeepsOn c s (s.installOn t client c).2 := KeepsOn.wrap s c t client c
  have hage : (a.on c).previous.age ≤ (a.on c).relay := by
    simpa [hon] using h.chain.age_le
  have hchain : s.Chain c (.recorder name n) (a.on c).previous taps := by
    simpa [hon] using h.chain
  exact ⟨hs ▸ .tap hr hage (hk.chain hchain), hs⟩

/-- Taking off the relay that is on the slot takes the first tap away. -/
theorem restored {name : String} {n : Nat} {a : Tap}
    (h : s.Standing c (.recorder name n) (a :: taps)) :
    (s.put c (s.attached (a.on c).previous)).Standing c (.recorder name n) taps := by
  have hchain : s.Chain c (.recorder name n) (a.on c).previous taps := h.chain_top.tail
  have htop : s.attached (a.on c).previous = topOf c (.recorder name n) taps :=
    hchain.attachedFrom (Nat.le_succ_of_le hchain.age_le)
  have hk : KeepsOn c s (s.put c (topOf c (.recorder name n) taps)) := .of_relays rfl
  rw [htop]
  exact ⟨(put_slot_self s c _).symm ▸ hk.chain hchain.topOf, put_slot_self s c _⟩

/-- Detaching a relay that is not on the slot takes its tap away. -/
theorem detached {a b : Tap} (h : s.Standing c base (b :: taps)) {k : Nat}
    (hk : taps[k]? = some a) :
    (s.update (a.on c).relay fun r => { r with detached := true }).Standing c base
      (b :: taps.eraseIdx k) :=
  ⟨h.chain.detach (k := k + 1) hk, h.slot⟩

/-- Taking a relay off takes its tap away, wherever it is. -/
theorem removeFrom {name : String} {n : Nat} (h : s.Standing c (.recorder name n) taps) {k : Nat}
    {a : Tap} (hk : taps[k]? = some a) :
    (s.removeFrom c (a.on c)).2.Standing c (.recorder name n) (taps.eraseIdx k) := by
  have hd : (s.drain (a.on c).relay).2.Standing c (.recorder name n) taps :=
    h.of_keepsOn (KeepsOn.drain s c _) (congrFun (drain_slot s _) c)
  rw [removeFrom_snd]
  match taps, k with
  | [], _ => simp at hk
  | b :: taps, 0 =>
    obtain rfl : b = a := by simpa using hk
    have htop : s.slot c = .relay (b.on c).relay := h.slot
    rw [if_pos htop]
    exact hd.restored
  | b :: taps, k + 1 =>
    have hk : taps[k]? = some a := by simpa using hk
    have hne : (a.on c).relay ≠ (b.on c).relay := h.chain_top.head_ne (List.mem_of_getElem? hk)
    have htop : s.slot c ≠ .relay (a.on c).relay := by
      rw [h.slot]
      simpa [topOf] using hne.symm
    rw [if_neg htop]
    exact hd.detached hk

/-- A relay of another channel may be put on. -/
theorem installOn_other (h : s.Standing c base taps) (hc : c ≠ c') :
    (s.installOn t client c').2.Standing c base taps :=
  h.of_keepsOn (.trans (KeepsOn.wrap s c t client c') (.of_relays rfl)) (put_slot_of_ne _ _ hc)

/-- A relay of another channel may be taken off. -/
theorem removeFrom_other (h : s.Standing c base taps) (hc : c ≠ c') {w : Wrapping} {r : Relay}
    (hr : s.relays[w.relay]? = some r) (hrc : r.channel = c') :
    (s.removeFrom c' w).2.Standing c base taps := by
  have hd : (s.drain w.relay).2.Standing c base taps :=
    h.of_keepsOn (KeepsOn.drain s c _) (congrFun (drain_slot s _) c)
  rw [removeFrom_snd]
  split
  · exact hd.of_keepsOn (.of_relays rfl) (put_slot_of_ne _ _ hc)
  · obtain ⟨held, hr'⟩ := KeepsOn.drain s c' w.relay _ r hr hrc
    exact hd.of_keepsOn (.update_other hr' (hrc.trans_ne hc.symm) _) rfl

/-- The relay of a tap. -/
theorem relay_of_mem (h : s.Standing c base taps) {a : Tap} (ha : a ∈ taps) :
    ∃ held, s.relays[(a.on c).relay]? = some (a.relay c held) :=
  h.chain.relay_of_mem ha

/-- A deed is captured by the first tap of its thread. -/
theorem deliver_of_find? {name : String} {n : Nat} (h : s.Standing c (.recorder name n) taps)
    {a : Tap} (ha : taps.find? (·.thread = t) = some a) (deed : Deed) :
    ∃ held, s.relays[(a.on c).relay]? = some (a.relay c held) ∧
      s.deliver t c deed = s.capture (a.on c).relay (a.relay c held) deed :=
  h.chain.deliverFrom_of_find? (Nat.lt_succ_of_le h.chain.age_le) ha deed

/-- A deed of a thread without a tap comes to the recorder. -/
theorem deliver_of_none {name : String} {n : Nat} (h : s.Standing c (.recorder name n) taps)
    (ht : taps.find? (·.thread = t) = none) (deed : Deed) :
    s.deliver t c deed = ([deed.recorded name c], s) :=
  h.chain.deliverFrom_of_none (Nat.lt_succ_of_le h.chain.age_le) (by simpa using ht) deed

end Standing

/-! ## Taps on both channels -/

/-- The streams with the taps that are on them, the latest first. -/
structure Tapped where
  streams : Streams
  taps : List Tap

/-- What threads do to the streams. -/
inductive Move where
  /-- Thread `t` installs a relay. -/
  | install (t : ThreadId) (client : String)
  /-- The tap with number `k` is taken off; the latest has number zero. -/
  | remove (k : Nat)
  /-- The tap with number `k` gives away what it holds. -/
  | flush (k : Nat)
  /-- Thread `t` writes to a channel or flushes it. -/
  | deed (t : ThreadId) (c : Channel) (deed : Deed)
  deriving DecidableEq, Repr

namespace Tapped

/-- A recorder on each channel, and no taps. -/
def start (name : Channel → String) (n : Channel → Nat) : Tapped :=
  ⟨⟨fun c => .recorder (name c) (n c), []⟩, []⟩

/-- What one move gives away, and what it leads to. -/
def step (x : Tapped) : Move → List Delivery × Tapped
  | .install t client =>
    let (i, s) := x.streams.install t client
    ([], ⟨s, ⟨t, client, i⟩ :: x.taps⟩)
  | .remove k =>
    match x.taps[k]? with
    | none => ([], x)
    | some a =>
      let (given, s) := x.streams.remove a.installed
      (given, ⟨s, x.taps.eraseIdx k⟩)
  | .flush k =>
    match x.taps[k]? with
    | none => ([], x)
    | some a =>
      let (given, s) := x.streams.flushRelay a.installed
      (given, { x with streams := s })
  | .deed t c deed =>
    let (given, s) := x.streams.deliver t c deed
    (given, { x with streams := s })

/-- What a list of moves gives away, and what it leads to. -/
def run (x : Tapped) : List Move → List Delivery × Tapped
  | [] => ([], x)
  | m :: moves =>
    let (given, y) := x.step m
    let (more, z) := y.run moves
    (given ++ more, z)

/-- On each channel the taps are the chain down to the recorder that was there first. -/
def Standing (name : Channel → String) (n : Channel → Nat) (x : Tapped) : Prop :=
  ∀ c, x.streams.Standing c (.recorder (name c) (n c)) x.taps

variable {name : Channel → String} {n : Channel → Nat} {x : Tapped}

/-- At the start there are no taps. -/
theorem start_standing (name : Channel → String) (n : Channel → Nat) :
    (start name n).Standing name n :=
  fun _ => ⟨.base, rfl⟩

namespace Standing

/-- The streams may change in what the relays hold. -/
theorem of_keepsOn (h : x.Standing name n) (hk : ∀ c, KeepsOn c x.streams s)
    (hs : s.slot = x.streams.slot) : Tapped.Standing name n { x with streams := s } :=
  fun c => (h c).of_keepsOn (hk c) (congrFun hs c)

/-- Installing adds a tap. -/
theorem install (h : x.Standing name n) (t : ThreadId) (client : String) :
    (x.step (.install t client)).2.Standing name n := by
  let a : Tap := ⟨t, client, (x.streams.install t client).1⟩
  intro c
  cases c with
  | stdout =>
    have hout : (x.streams.installOn t client .stdout).2.Standing .stdout
        (.recorder (name .stdout) (n .stdout)) (a :: x.taps) := (h .stdout).installOn rfl rfl rfl
    exact hout.installOn_other (by decide)
  | stderr =>
    have herr : (x.streams.installOn t client .stdout).2.Standing .stderr
        (.recorder (name .stderr) (n .stderr)) x.taps := (h .stderr).installOn_other (by decide)
    exact herr.installOn (a := a) rfl rfl rfl

/-- Removing takes a tap away. -/
theorem remove (h : x.Standing name n) (k : Nat) : (x.step (.remove k)).2.Standing name n := by
  cases hk : x.taps[k]? with
  | none => simpa only [step, hk] using h
  | some a =>
    have ha : a ∈ x.taps := List.mem_of_getElem? hk
    simp only [step, hk]
    -- the relay on the first channel comes off before the one on the second
    obtain ⟨out, hout⟩ := (h .stdout).relay_of_mem ha
    have herr : (x.streams.removeFrom .stdout (a.on .stdout)).2.Standing .stderr
        (.recorder (name .stderr) (n .stderr)) x.taps :=
      (h .stderr).removeFrom_other (by decide) hout rfl
    intro c
    cases c with
    | stdout =>
      obtain ⟨err, herr⟩ := herr.relay_of_mem ha
      have hout := (h .stdout).removeFrom hk
      exact hout.removeFrom_other (by decide) herr rfl
    | stderr => exact herr.removeFrom hk

/-- Giving away what a tap holds leaves the taps. -/
theorem flush (h : x.Standing name n) (k : Nat) : (x.step (.flush k)).2.Standing name n := by
  cases hk : x.taps[k]? with
  | none => simpa only [step, hk] using h
  | some a =>
    simp only [step, hk]
    refine h.of_keepsOn (fun c => ?_) ?_
    · exact (KeepsOn.drain _ c _).trans (KeepsOn.drain _ c _)
    · simp [flushRelay]

/-- A deed leaves the taps. -/
theorem deed (h : x.Standing name n) (t : ThreadId) (c : Channel) (deed : Deed) :
    (x.step (.deed t c deed)).2.Standing name n := by
  simp only [step]
  cases ht : x.taps.find? (·.thread = t) with
  | none => simpa only [(h c).deliver_of_none ht deed] using h
  | some a =>
    obtain ⟨held, -, hd⟩ := (h c).deliver_of_find? ht deed
    rw [hd]
    exact h.of_keepsOn (fun c' => KeepsOn.capture _ c' _ _ deed) (capture_slot _ _ _ deed)

/-- A move leaves the taps the chain below the slot. -/
theorem step (h : x.Standing name n) (m : Move) : (x.step m).2.Standing name n := by
  cases m with
  | install t client => exact h.install t client
  | remove k => exact h.remove k
  | flush k => exact h.flush k
  | deed t c deed => exact h.deed t c deed

/-- Moves leave the taps the chain below the slot. -/
theorem run (h : x.Standing name n) (moves : List Move) : (x.run moves).2.Standing name n := by
  induction moves generalizing x with
  | nil => exact h
  | cons m moves ih => exact ih (h.step m)

/-- The slots hold what was there first when all taps are taken off. -/
theorem slot_of_nil (h : x.Standing name n) (hx : x.taps = []) (c : Channel) :
    x.streams.slot c = .recorder (name c) (n c) := by
  rw [(h c).slot, hx]
  rfl

end Standing

/-- Whatever threads do, the taps are the chain below the slot. -/
theorem run_standing (name : Channel → String) (n : Channel → Nat) (moves : List Move) :
    ((start name n).run moves).2.Standing name n :=
  (start_standing name n).run moves

end Tapped

end DebugAdapter.Streams
