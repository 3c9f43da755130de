import Mathlib.Data.List.Induction
import DebugAdapter.Proofs.Output.Taps
/-!
# Installations that overlap

An installation first makes a relay around the writer that a slot holds (`Streams.wrap`) and then
puts the relay on that slot (`Streams.replace`). `Shared` is the streams with the relays that were
made and not yet placed, and a `Part` is what a thread does to them in one go, so a list of parts is
any interleaving of the installations and deeds of any number of threads.

Between the two steps of an installation another thread may place a relay of its own. The relay of
the installation then overtakes that one (`Shared.Overtakes`): it takes its place on the slot
without wrapping it, and what the other thread does next comes to the recorder
(`Shared.Orderly.escapes`). As long as no relay overtakes another, the chain below each slot has
all relays that were placed (`Shared.Whole`). So each thread's relay captures what its thread does,
at all times, if and only if no relay overtakes another (`Shared.captures_iff_not_overtakes`).
-/

namespace DebugAdapter.Streams

variable {s : Streams} {c : Channel} {base w : Writer} {t : ThreadId} {client : String}
  {taps : List Tap} {id : Nat} {r : Relay}

/-- Relay `id` as a tap. -/
def Tap.of (id : Nat) (r : Relay) : Tap :=
  ⟨r.thread, r.client, ⟨id, r.delegate⟩, ⟨id, r.delegate⟩⟩

@[simp] theorem Tap.on_of (id : Nat) (r : Relay) (c : Channel) :
    (Tap.of id r).on c = ⟨id, r.delegate⟩ := by
  cases c <;> rfl

theorem Tap.relay_of (id : Nat) (hd : r.detached = false) :
    (Tap.of id r).relay r.channel r.held = r := by
  simp only [Tap.relay, on_of]
  cases r
  cases hd
  rfl

/-- A relay of before, or the one that was made. -/
theorem getElem?_of_wrap {i : Nat} (hr : (s.wrap t client c).2.relays[i]? = some r) :
    s.relays[i]? = some r ∨
      i = s.relays.length ∧ { thread := t, channel := c, client, delegate := s.slot c } = r := by
  rcases Nat.lt_trichotomy i s.relays.length with hi | rfl | hi
  · exact .inl ((List.getElem?_append_left hi).symm.trans hr)
  · exact .inr ⟨rfl, Option.some.inj (List.getElem?_concat_length.symm.trans hr)⟩
  · have hnone : (s.wrap t client c).2.relays[i]? = none := by
      simpa [Streams.wrap, Nat.succ_le_iff] using hi
    cases hnone.symm.trans hr

/-- A relay of before, where one was given something else to hold. -/
theorem getElem?_of_update_held {i : Nat} {held : Bytes}
    (hr : (s.update id fun r => { r with held }).relays[i]? = some r) :
    ∃ held, s.relays[i]? = some { r with held } := by
  by_cases hi : id = i
  · subst hi
    cases hr₀ : s.relays[id]? with
    | none => simp [update, hr₀] at hr
    | some r₀ =>
      obtain rfl := Option.some.inj ((getElem?_update hr₀ _).symm.trans hr)
      exact ⟨r₀.held, rfl⟩
  · exact ⟨r.held, (getElem?_update_of_ne hi _).symm.trans hr⟩

/-- The streams, and the numbers of the relays that are not on their slot yet. -/
structure Shared where
  streams : Streams
  waiting : List Nat := []

/-- What a thread does to the streams in one go. -/
inductive Part where
  /-- Thread `t` makes its relay around what a slot holds. -/
  | wrap (t : ThreadId) (client : String) (c : Channel)
  /-- Relay `id` is put on its slot. -/
  | place (id : Nat)
  /-- Thread `t` writes to a channel or flushes it. -/
  | deed (t : ThreadId) (c : Channel) (deed : Deed)
  deriving DecidableEq, Repr

namespace Shared

/-- A recorder on each channel, and no relays. -/
def start (name : Channel → String) (n : Channel → Nat) : Shared :=
  ⟨⟨fun c => .recorder (name c) (n c), []⟩, []⟩

/-- What one part leads to. A thread makes one relay for each channel, and a relay is placed
once. -/
def step (x : Shared) : Part → Shared
  | .wrap t client c =>
    if x.streams.relays.any fun r => r.thread = t ∧ r.channel = c then x
    else ⟨(x.streams.wrap t client c).2, x.streams.relays.length :: x.waiting⟩
  | .place id =>
    match x.streams.relays[id]? with
    | none => x
    | some r =>
      if id ∈ x.waiting then
        ⟨(x.streams.replace r.channel (.relay id)).2, x.waiting.filter (· ≠ id)⟩
      else x
  | .deed t c deed => { x with streams := (x.streams.deliver t c deed).2 }

/-- What a list of parts leads to. -/
def run (x : Shared) (parts : List Part) : Shared :=
  parts.foldl step x

/-- Whether `r` is relay `id` and was put on the slot of channel `c`. -/
structure Placed (x : Shared) (c : Channel) (id : Nat) (r : Relay) : Prop where
  relay : x.streams.relays[id]? = some r
  channel : r.channel = c
  placed : id ∉ x.waiting

/-- Whether relay `id` is about to take the place of a writer that it does not wrap. -/
def Overtakes (x : Shared) (id : Nat) : Prop :=
  id ∈ x.waiting ∧ ∃ r, x.streams.relays[id]? = some r ∧ x.streams.slot r.channel ≠ r.delegate

/-- Whether each relay that was placed captures what its thread does. -/
def Captures (x : Shared) : Prop :=
  ∀ c id r, x.Placed c id r → ∀ deed,
    x.streams.deliver r.thread c deed = x.streams.capture id r deed

variable {x : Shared} {name : Channel → String} {n : Channel → Nat}

/-! ## Steps -/

/-- A thread without a relay for a channel makes one. -/
theorem step_wrap (hfresh : ∀ r ∈ x.streams.relays, r.thread = t → r.channel ≠ c) :
    x.step (.wrap t client c) =
      ⟨(x.streams.wrap t client c).2, x.streams.relays.length :: x.waiting⟩ := by
  refine if_neg ?_
  simpa using hfresh

/-- A relay that waits is put on its slot. -/
theorem step_place (hr : x.streams.relays[id]? = some r) (hid : id ∈ x.waiting) :
    x.step (.place id) =
      ⟨x.streams.put r.channel (.relay id), x.waiting.filter (· ≠ id)⟩ := by
  simp only [step, hr, if_pos hid, replace]

/-- A part is a relay made, a relay placed or a deed, or it leads to nothing. -/
theorem step_cases (x : Shared) (p : Part) : x.step p = x ∨
    (∃ t client c, p = .wrap t client c ∧
      ∀ r ∈ x.streams.relays, r.thread = t → r.channel ≠ c) ∨
    (∃ id r, p = .place id ∧ x.streams.relays[id]? = some r ∧ id ∈ x.waiting) ∨
    ∃ t c deed, p = .deed t c deed := by
  cases p with
  | wrap t client c =>
    by_cases hfresh : ∀ r ∈ x.streams.relays, r.thread = t → r.channel ≠ c
    · exact .inr (.inl ⟨t, client, c, rfl, hfresh⟩)
    · refine .inl (if_pos ?_)
      simpa using hfresh
  | place id =>
    cases hr : x.streams.relays[id]? with
    | none => exact .inl (by simp only [step, hr])
    | some r =>
      by_cases hid : id ∈ x.waiting
      · exact .inr (.inr (.inl ⟨id, r, rfl, hr, hid⟩))
      · exact .inl (by simp only [step, hr, if_neg hid])
  | deed t c deed => exact .inr (.inr (.inr ⟨t, c, deed, rfl⟩))

/-- The two parts of an installation, with nobody else in between, make up the installation. -/
theorem run_installOn (hfresh : ∀ r ∈ x.streams.relays, r.thread = t → r.channel ≠ c) :
    x.run [.wrap t client c, .place x.streams.relays.length] =
      ⟨(x.streams.installOn t client c).2,
        (x.streams.relays.length :: x.waiting).filter (· ≠ x.streams.relays.length)⟩ := by
  simp only [run, List.foldl_cons, List.foldl_nil]
  rw [step_wrap hfresh, step_place List.getElem?_concat_length List.mem_cons_self]
  rfl

/-- One list of parts after the other. -/
theorem run_append (x : Shared) (parts parts' : List Part) :
    x.run (parts ++ parts') = (x.run parts).run parts' :=
  List.foldl_append

/-- On both channels, one after the other. -/
theorem streams_run_install (hfresh : ∀ r ∈ x.streams.relays, r.thread ≠ t) :
    (x.run ([.wrap t client .stdout, .place x.streams.relays.length] ++
      [.wrap t client .stderr, .place (x.streams.relays.length + 1)])).streams =
      (x.streams.install t client).2 := by
  let s := (x.streams.installOn t client .stdout).2
  have hlength : s.relays.length = x.streams.relays.length + 1 := List.length_append
  have hfresh' : ∀ r ∈ s.relays, r.thread = t → r.channel ≠ .stderr := by
    intro r hr ht
    rcases List.mem_append.1 hr with hr | hr
    · exact absurd ht (hfresh r hr)
    · simp [List.mem_singleton.1 hr]
  rw [run_append, run_installOn fun r hr ht => absurd ht (hfresh r hr), ← hlength]
  exact congrArg Shared.streams (run_installOn (x := ⟨s, _⟩) hfresh')

/-! ## What a relay that waits wraps -/

/-- `w` is the top of a chain of relays that were placed. -/
structure Heads (x : Shared) (c : Channel) (base w : Writer) (taps : List Tap) : Prop where
  chain : x.streams.Chain c base w taps
  placed : ∀ a ∈ taps, (a.on c).relay ∉ x.waiting

/-- Relay `id`, which waits, wraps what is on its slot, or it was overtaken: the relay on its slot
is not on the chain that it wraps. -/
structure Awaits (x : Shared) (base : Writer) (id : Nat) (r : Relay) : Prop where
  age : r.delegate.age ≤ id
  wraps : ∃ taps, x.Heads r.channel base r.delegate taps ∧
    (x.streams.slot r.channel = r.delegate ∨ ∃ i r', x.Placed r.channel i r' ∧
      x.streams.slot r.channel = .relay i ∧ ∀ a ∈ taps, (a.on r.channel).relay ≠ i)

/-- The streams as threads leave them that make one relay each for a channel. -/
structure Orderly (name : Channel → String) (n : Channel → Nat) (x : Shared) : Prop where
  lone {i j : Nat} {r r' : Relay} : x.streams.relays[i]? = some r →
    x.streams.relays[j]? = some r' → r.thread = r'.thread → r.channel = r'.channel → i = j
  attached {id : Nat} {r : Relay} : x.streams.relays[id]? = some r → r.detached = false
  slot (c : Channel) : ∃ taps, x.Heads c (.recorder (name c) (n c)) (x.streams.slot c) taps
  waits : ∀ id ∈ x.waiting, ∃ r, x.streams.relays[id]? = some r ∧
    x.Awaits (.recorder (name r.channel) (n r.channel)) id r

/-- At the start there is nothing on the recorders. -/
theorem start_orderly (name : Channel → String) (n : Channel → Nat) :
    (start name n).Orderly name n where
  lone h := by simp [start] at h
  attached h := by simp [start] at h
  slot c := ⟨[], .base, by simp⟩
  waits := by simp [start]

/-- The relays on a channel are as before, but for what they hold, and none waits again. -/
structure Kept (c : Channel) (x y : Shared) : Prop where
  relays : KeepsOn c x.streams y.streams
  waiting : ∀ id ∈ y.waiting, id ∈ x.waiting ∨ x.streams.relays[id]? = none

namespace Kept

variable {y : Shared}

/-- A chain of placed relays stays one. -/
theorem heads (hk : Kept c x y) (h : x.Heads c base w taps) : y.Heads c base w taps := by
  refine ⟨hk.relays.chain h.chain, fun a ha hw => ?_⟩
  rcases hk.waiting _ hw with hw | hnone
  · exact h.placed a ha hw
  · obtain ⟨held, hr⟩ := h.chain.relay_of_mem ha
    cases hnone.symm.trans hr

/-- What was placed stays so. -/
theorem placed (hk : Kept c x y) (h : x.Placed c id r) : ∃ r', y.Placed c id r' := by
  obtain ⟨held, hr⟩ := hk.relays id r h.relay h.channel
  refine ⟨_, hr, h.channel, fun hw => ?_⟩
  rcases hk.waiting _ hw with hw | hnone
  · exact h.placed hw
  · cases hnone.symm.trans h.relay

/-- What waits goes on waiting as long as its slot stays as it is. -/
theorem waits (hk : Kept r.channel x y) (hr : x.streams.relays[id]? = some r)
    (hslot : y.streams.slot r.channel = x.streams.slot r.channel) (h : x.Awaits base id r) :
    ∃ r', y.streams.relays[id]? = some r' ∧ r'.channel = r.channel ∧ y.Awaits base id r' := by
  obtain ⟨held, hr'⟩ := hk.relays id r hr rfl
  obtain ⟨taps, hheads, hwraps⟩ := h.wraps
  refine ⟨_, hr', rfl, h.age, taps, hk.heads hheads, ?_⟩
  rcases hwraps with hslot' | ⟨i, r', hplaced, hslot', hne⟩
  · exact .inl (hslot.trans hslot')
  · obtain ⟨r'', hplaced'⟩ := hk.placed hplaced
    exact .inr ⟨i, r'', hplaced', hslot.trans hslot', hne⟩

end Kept

namespace Orderly

/-- A deed leaves all as it is, but for what one relay holds. -/
theorem deliver_snd (h : x.Orderly name n) (t : ThreadId) (c : Channel) (deed : Deed) :
    (x.streams.deliver t c deed).2 = x.streams ∨ ∃ id held,
      (x.streams.deliver t c deed).2 = x.streams.update id fun r => { r with held } := by
  obtain ⟨taps, hheads⟩ := h.slot c
  have hfuel := Nat.lt_succ_of_le hheads.chain.age_le
  cases ht : taps.find? (·.thread = t) with
  | none =>
    refine .inl (congrArg Prod.snd (hheads.chain.deliverFrom_of_none hfuel ?_ deed))
    simpa using ht
  | some a =>
    obtain ⟨held, -, hd⟩ := hheads.chain.deliverFrom_of_find? hfuel ht deed
    exact .inr (by cases deed <;> exact ⟨_, _, congrArg Prod.snd hd⟩)

/-- A relay of before a deed. -/
theorem getElem?_of_deed (h : x.Orderly name n) {deed : Deed}
    (hr : (x.step (.deed t c deed)).streams.relays[id]? = some r) :
    ∃ held, x.streams.relays[id]? = some { r with held } := by
  rcases h.deliver_snd t c deed with hd | ⟨id', held, hd⟩
  · exact ⟨r.held, by simpa [Shared.step, hd] using hr⟩
  · exact getElem?_of_update_held (by simpa only [Shared.step, hd] using hr)

/-- A deed leaves the slots. -/
theorem slot_deed (h : x.Orderly name n) (t : ThreadId) (c : Channel) (deed : Deed) :
    (x.step (.deed t c deed)).streams.slot = x.streams.slot := by
  rcases h.deliver_snd t c deed with hd | ⟨id, held, hd⟩ <;> simp only [Shared.step, hd, update]

/-- A step keeps the relays. -/
theorem kept (h : x.Orderly name n) (c : Channel) (p : Part) : Kept c x (x.step p) := by
  rcases x.step_cases p with hp | ⟨t, client, c', rfl, hfresh⟩ | ⟨id, r, rfl, hr, hid⟩ |
    ⟨t, c', deed, rfl⟩
  · rw [hp]
    exact ⟨.of_relays rfl, fun _ hid => .inl hid⟩
  · rw [step_wrap hfresh]
    refine ⟨.wrap _ c t client c', fun id hid => ?_⟩
    rcases List.mem_cons.1 hid with rfl | hid
    · exact .inr (by simp)
    · exact .inl hid
  · rw [step_place hr hid]
    exact ⟨.of_relays rfl, fun _ hi => .inl (List.mem_filter.1 hi).1⟩
  · refine ⟨?_, fun _ hid => .inl hid⟩
    rcases h.deliver_snd t c' deed with hd | ⟨id, held, hd⟩
    · exact .of_relays (congrArg relays hd)
    · have hk := KeepsOn.update_held x.streams c id fun _ => held
      rwa [← hd] at hk

/-- A thread makes a relay. -/
theorem wrap (h : x.Orderly name n)
    (hfresh : ∀ r ∈ x.streams.relays, r.thread = t → r.channel ≠ c) :
    (x.step (.wrap t client c)).Orderly name n := by
  have hk (c' : Channel) := h.kept c' (.wrap t client c)
  rw [step_wrap hfresh] at hk ⊢
  refine ⟨fun hi hj ht hc => ?_, fun hr => ?_, fun c' => ?_, fun id hid => ?_⟩
  · rcases getElem?_of_wrap hi with hi | ⟨rfl, rfl⟩ <;>
      rcases getElem?_of_wrap hj with hj | ⟨rfl, rfl⟩
    · exact h.lone hi hj ht hc
    · exact absurd hc (hfresh _ (List.mem_of_getElem? hi) ht)
    · exact absurd hc.symm (hfresh _ (List.mem_of_getElem? hj) ht.symm)
    · rfl
  · rcases getElem?_of_wrap hr with hr | ⟨-, rfl⟩
    · exact h.attached hr
    · rfl
  · obtain ⟨taps, hheads⟩ := h.slot c'
    exact ⟨taps, (hk c').heads hheads⟩
  · rcases List.mem_cons.1 hid with rfl | hid
    · obtain ⟨taps, hheads⟩ := h.slot c
      exact ⟨_, List.getElem?_concat_length, hheads.chain.age_le, taps, (hk c).heads hheads,
        .inl rfl⟩
    · obtain ⟨r, hr, hawaits⟩ := h.waits id hid
      obtain ⟨r', hr', hc, hawaits'⟩ := (hk r.channel).waits hr rfl hawaits
      exact ⟨r', hr', hc ▸ hawaits'⟩

/-- A relay that waits becomes the top of the chain that it wraps. -/
theorem heads_place (h : x.Orderly name n) (hr : x.streams.relays[id]? = some r)
    (hid : id ∈ x.waiting) (hheads : x.Heads r.channel base r.delegate taps)
    (hage : r.delegate.age ≤ id) :
    (x.step (.place id)).Heads r.channel base (.relay id) (Tap.of id r :: taps) := by
  have hk := (h.kept r.channel (.place id)).heads hheads
  rw [step_place hr hid] at hk ⊢
  have hrelay := hr
  rw [← Tap.relay_of id (h.attached hr)] at hrelay
  refine ⟨?_, ?_⟩
  · have hon := Tap.on_of id r r.channel
    have hchain : (x.streams.put r.channel (.relay id)).Chain r.channel base
        (.relay ((Tap.of id r).on r.channel).relay) (Tap.of id r :: taps) :=
      .tap (by rw [hon]; exact hrelay) (by rw [hon]; exact hage) (by rw [hon]; exact hk.chain)
    rwa [hon] at hchain
  · intro a ha
    rcases List.mem_cons.1 ha with rfl | ha
    · simp
    · exact hk.placed a ha

/-- A relay that waits is placed. -/
theorem place (h : x.Orderly name n) (hr : x.streams.relays[id]? = some r)
    (hid : id ∈ x.waiting) : (x.step (.place id)).Orderly name n := by
  have hk (c' : Channel) := h.kept c' (.place id)
  obtain ⟨r', hr', hage, taps, hheads, -⟩ := h.waits id hid
  obtain rfl := Option.some.inj (hr.symm.trans hr')
  have htop := h.heads_place hr hid hheads hage
  rw [step_place hr hid] at hk htop ⊢
  refine ⟨h.lone, h.attached, fun c => ?_, fun i hi => ?_⟩
  · by_cases hc : c = r.channel
    · subst hc
      exact ⟨Tap.of id r :: taps, by rwa [put_slot_self]⟩
    · obtain ⟨taps, hheads⟩ := h.slot c
      exact ⟨taps, (put_slot_of_ne _ _ hc).symm ▸ (hk c).heads hheads⟩
  · obtain ⟨hi, hne⟩ := List.mem_filter.1 hi
    obtain ⟨r₁, hr₁, hawaits⟩ := h.waits i hi
    by_cases hc : r₁.channel = r.channel
    · obtain ⟨taps₁, hheads₁, -⟩ := hawaits.wraps
      -- the relay was on no chain as it waited
      have hnot : ∀ a ∈ taps₁, (a.on r₁.channel).relay ≠ id := fun a ha heq =>
        hheads₁.placed a ha (heq ▸ hid)
      refine ⟨r₁, hr₁, hawaits.age, taps₁, (hk _).heads hheads₁,
        .inr ⟨id, r, ⟨hr, hc.symm, ?_⟩, ?_, hnot⟩⟩
      · simp
      · exact hc ▸ put_slot_self _ _ _
    · obtain ⟨r', hr', hc', hawaits'⟩ := (hk _).waits hr₁ (put_slot_of_ne _ _ hc) hawaits
      exact ⟨r', hr', hc' ▸ hawaits'⟩

/-- A thread writes or flushes. -/
theorem deed (h : x.Orderly name n) (t : ThreadId) (c : Channel) (deed : Deed) :
    (x.step (.deed t c deed)).Orderly name n := by
  have hk (c' : Channel) := h.kept c' (.deed t c deed)
  have hslot := congrFun (h.slot_deed t c deed)
  refine ⟨fun hi hj ht hc => ?_, fun hr => ?_, fun c' => ?_, fun id hid => ?_⟩
  · obtain ⟨_, hi⟩ := h.getElem?_of_deed hi
    obtain ⟨_, hj⟩ := h.getElem?_of_deed hj
    exact h.lone hi hj ht hc
  · obtain ⟨_, hr⟩ := h.getElem?_of_deed hr
    have hd := h.attached hr
    exact hd
  · obtain ⟨taps, hheads⟩ := h.slot c'
    exact ⟨taps, (hslot c').symm ▸ (hk c').heads hheads⟩
  · obtain ⟨r, hr, hawaits⟩ := h.waits id hid
    obtain ⟨r', hr', hc, hawaits'⟩ := (hk r.channel).waits hr (hslot _) hawaits
    exact ⟨r', hr', hc ▸ hawaits'⟩

/-- Every step leaves the streams so. -/
theorem step (h : x.Orderly name n) (p : Part) : (x.step p).Orderly name n := by
  rcases x.step_cases p with hp | ⟨t, client, c, rfl, hfresh⟩ | ⟨id, r, rfl, hr, hid⟩ |
    ⟨t, c, deed, rfl⟩
  · rw [hp]
    exact h
  · exact h.wrap hfresh
  · exact h.place hr hid
  · exact h.deed t c deed

/-- Every list of parts leaves the streams so. -/
theorem run (h : x.Orderly name n) (parts : List Part) : (x.run parts).Orderly name n := by
  induction parts generalizing x with
  | nil => exact h
  | cons p parts ih => exact ih (h.step p)

/-- What is placed was placed before, or is being placed. -/
theorem placed_of_step (h : x.Orderly name n) {p : Part} (hp : p ≠ .place id)
    (hplaced : (x.step p).Placed c id r) : ∃ r', x.Placed c id r' := by
  rcases x.step_cases p with hx | ⟨t, client, c', rfl, hfresh⟩ | ⟨i, r', rfl, hr, hi⟩ |
    ⟨t, c', deed, rfl⟩
  · exact ⟨r, hx ▸ hplaced⟩
  · rw [step_wrap hfresh] at hplaced
    obtain ⟨hr, hc, hnot⟩ := hplaced
    obtain ⟨hne, hnot⟩ := not_or.1 (List.mem_cons.not.1 hnot)
    exact ⟨r, (getElem?_of_wrap hr).resolve_right fun hlast => hne hlast.1, hc, hnot⟩
  · rw [step_place hr hi] at hplaced
    refine ⟨r, hplaced.relay, hplaced.channel, fun hid => hplaced.placed ?_⟩
    exact List.mem_filter.2 ⟨hid, by simpa using fun heq : id = i => hp (heq ▸ rfl)⟩
  · obtain ⟨held, hr⟩ := h.getElem?_of_deed hplaced.relay
    exact ⟨_, hr, hplaced.channel, hplaced.placed⟩

/-- When a relay is placed that overtakes the one on the slot, what the thread of that one does next
comes to the recorder. -/
theorem escapes (h : x.Orderly name n) (hover : x.Overtakes id) :
    ∃ c i r, x.streams.slot c = .relay i ∧ (x.step (.place id)).Placed c i r ∧
      ∀ deed, (x.step (.place id)).streams.deliver r.thread c deed =
        ([deed.recorded (name c) c], (x.step (.place id)).streams) := by
  obtain ⟨hid, r, hr, hne⟩ := hover
  obtain ⟨r', hr', hage, taps, hheads, hwraps⟩ := h.waits id hid
  obtain rfl := Option.some.inj (hr.symm.trans hr')
  obtain ⟨i, r₀, hplaced₀, hslot, hnot⟩ := hwraps.resolve_left hne
  obtain ⟨r₁, hplaced₁⟩ := (h.kept r.channel (.place id)).placed hplaced₀
  have htop := h.heads_place hr hid hheads hage
  refine ⟨r.channel, i, r₁, hslot, hplaced₁, fun deed => ?_⟩
  have hnone : ∀ a ∈ Tap.of id r :: taps, a.thread ≠ r₁.thread := by
    intro a ha ht
    obtain ⟨held, hra⟩ := htop.chain.relay_of_mem ha
    have hi : (a.on r.channel).relay = i :=
      (h.step (.place id)).lone hra hplaced₁.relay ht hplaced₁.channel.symm
    rcases List.mem_cons.1 ha with rfl | ha
    · rw [Tap.on_of] at hi
      exact hplaced₀.placed (hi ▸ hid)
    · exact hnot a ha hi
  have hput : (x.step (.place id)).streams.slot r.channel = .relay id := by
    rw [step_place hr hid, put_slot_self]
  rw [deliver, hput]
  exact htop.chain.deliverFrom_of_none (Nat.lt_succ_of_le htop.chain.age_le) hnone deed

end Orderly

/-! ## Whose deeds are captured -/

/-- The chain below each slot has all relays that were placed on it. -/
def Whole (name : Channel → String) (n : Channel → Nat) (x : Shared) : Prop :=
  ∀ c, ∃ taps, x.Heads c (.recorder (name c) (n c)) (x.streams.slot c) taps ∧
    ∀ id r, x.Placed c id r → ∃ a ∈ taps, (a.on c).relay = id

/-- At the start none was placed. -/
theorem start_whole (name : Channel → String) (n : Channel → Nat) :
    (start name n).Whole name n :=
  fun _ => ⟨[], ⟨.base, by simp⟩, fun _ _ h => by simpa [start] using h.relay⟩

/-- A step that overtakes no relay keeps all of them on the chain. -/
theorem Whole.step (hx : x.Whole name n) (h : x.Orderly name n) {p : Part}
    (hp : ∀ id, p = .place id → ¬x.Overtakes id) : (x.step p).Whole name n := by
  intro c
  obtain ⟨taps, hheads, hall⟩ := hx c
  have hheads' := (h.kept c p).heads hheads
  have hbefore {id : Nat} {r : Relay} (hne : p ≠ .place id) (hplaced : (x.step p).Placed c id r) :
      ∃ a ∈ taps, (a.on c).relay = id :=
    (h.placed_of_step hne hplaced).elim (hall id)
  rcases x.step_cases p with hsame | ⟨t, client, c', rfl, hfresh⟩ | ⟨id, r, rfl, hr, hid⟩ |
    ⟨t, c', deed, rfl⟩
  · rw [hsame]
    exact ⟨taps, hheads, hall⟩
  · refine ⟨taps, ?_, fun id r => hbefore (by simp)⟩
    rw [step_wrap hfresh] at hheads' ⊢
    exact hheads'
  · by_cases hc : c = r.channel
    · subst hc
      have hdelegate : x.streams.slot r.channel = r.delegate := by
        by_contra hne
        exact hp id rfl ⟨hid, r, hr, hne⟩
      obtain ⟨r', hr', hawaits⟩ := h.waits id hid
      obtain rfl := Option.some.inj (hr.symm.trans hr')
      rw [hdelegate] at hheads
      have hput : (x.step (.place id)).streams.slot r.channel = .relay id := by
        rw [step_place hr hid, put_slot_self]
      refine ⟨Tap.of id r :: taps, hput.symm ▸ h.heads_place hr hid hheads hawaits.age, ?_⟩
      intro i r' hplaced
      by_cases hi : id = i
      · exact ⟨Tap.of id r, List.mem_cons_self, by rw [Tap.on_of, hi]⟩
      · obtain ⟨a, ha, heq⟩ := hbefore (by simpa using hi) hplaced
        exact ⟨a, List.mem_cons_of_mem _ ha, heq⟩
    · refine ⟨taps, ?_, fun i r' hplaced => hbefore ?_ hplaced⟩
      · rw [step_place hr hid] at hheads' ⊢
        rwa [put_slot_of_ne _ _ hc]
      · rw [step_place hr hid] at hplaced
        rintro heq
        cases heq
        obtain rfl := Option.some.inj (hr.symm.trans hplaced.relay)
        exact hc hplaced.channel.symm
  · refine ⟨taps, ?_, fun id r => hbefore (by simp)⟩
    rwa [h.slot_deed]

/-- As long as all relays that were placed are on the chain, each one captures what its thread
does. -/
theorem Whole.captures (hx : x.Whole name n) (h : x.Orderly name n) : x.Captures := by
  intro c id r hplaced deed
  obtain ⟨taps, hheads, hall⟩ := hx c
  obtain ⟨a, ha, rfl⟩ := hall id r hplaced
  obtain ⟨held, hr⟩ := hheads.chain.relay_of_mem ha
  obtain rfl := Option.some.inj (hplaced.relay.symm.trans hr)
  obtain ⟨b, hb⟩ : ∃ b, taps.find? (·.thread = a.thread) = some b :=
    Option.isSome_iff_exists.1 (List.find?_isSome.2 ⟨a, ha, by simp⟩)
  have ht : b.thread = a.thread := by simpa using List.find?_some hb
  obtain ⟨held', hrb, hdeliver⟩ := hheads.chain.deliverFrom_of_find?
    (Nat.lt_succ_of_le hheads.chain.age_le) hb deed
  have hid := h.lone hrb hr ht rfl
  rw [hid] at hrb hdeliver
  rwa [Option.some.inj (hrb.symm.trans hr)] at hdeliver

/-- A recorder is told what no relay captures. -/
theorem capture_ne_recorded (s s' : Streams) (id : Nat) (r : Relay) (name : String) (c : Channel) :
    s.capture id r .flush ≠ ([Deed.flush.recorded name c], s') := by
  intro h
  have hmem : Delivery.flush name c ∈ (s.capture id r .flush).1 := h ▸ List.mem_singleton_self _
  simp [capture, chunks] at hmem

/-- However the installations and deeds of threads fall, where each thread makes one relay for a
channel: at all times each relay that was placed captures what its thread does, if and only if no
relay is placed over another that it does not wrap. -/
theorem captures_iff_not_overtakes (name : Channel → String) (n : Channel → Nat)
    (parts : List Part) :
    (∀ parts', parts' <+: parts → ((start name n).run parts').Captures) ↔
      ∀ parts' id, parts' ++ [.place id] <+: parts →
        ¬((start name n).run parts').Overtakes id := by
  have horder (parts' : List Part) := (start_orderly name n).run parts'
  constructor
  · intro h parts' id hprefix hover
    obtain ⟨c, i, r, -, hplaced, hescapes⟩ := (horder parts').escapes hover
    have hcaptures := h _ hprefix
    rw [run_append] at hcaptures
    exact capture_ne_recorded _ _ _ _ _ _
      ((hcaptures c i r hplaced .flush).symm.trans (hescapes .flush))
  · intro h parts' hprefix
    suffices hwhole : ((start name n).run parts').Whole name n from
      hwhole.captures (horder parts')
    induction parts' using List.reverseRecOn with
    | nil => exact start_whole name n
    | append_singleton parts' p ih =>
      rw [run_append]
      refine (ih ((List.prefix_append _ _).trans hprefix)).step (horder parts') ?_
      rintro id rfl
      exact h parts' id hprefix

/-- Two threads make their relays before either is placed, and what the first one then writes comes
to the recorder. -/
theorem write_escapes_overlap :
    (((start (fun _ => "base") fun _ => 0).run [.wrap 1 "first" .stdout, .wrap 2 "second" .stdout,
      .place 0, .place 1]).streams.write 1 .stdout [104, 105, 10]).1 =
      [.bytes "base" .stdout [104, 105, 10]] := by
  decide

end Shared

end DebugAdapter.Streams
