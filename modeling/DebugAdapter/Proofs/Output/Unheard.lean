import Mathlib.Data.List.Forall2
import DebugAdapter.Proofs.Output.Taps
/-!
# What a client does not hear

A client whose relays were not installed by a thread never hears what that thread writes: it is
told the same, in the same order, when the thread does nothing (`Tapped.told_run`). Two runs are
compared, one with the deeds of the thread and one without; `Streams.Alike` says how far apart
their streams can be, namely in what the relays of that thread hold.
-/

namespace DebugAdapter

variable {t t' : ThreadId} {client : String}

/-- The texts that a client is given, among other deliveries. -/
def told (client : String) (given : List Delivery) : List Delivery :=
  given.filter fun
    | .chunk k _ _ => k = client
    | _ => false

/-- What one client is told is told to no other. -/
theorem told_chunks {r : Relay} (h : r.client ≠ client) (texts : List String) :
    told client (Streams.chunks r texts) = [] := by
  simp [told, Streams.chunks, h]

theorem told_append (client : String) (given more : List Delivery) :
    told client (given ++ more) = told client given ++ told client more :=
  List.filter_append _ _

/-- Two states of a relay that differ at most in what it holds, and only if it captures thread `t`
and tells someone other than `client`. -/
structure Relay.Alike (t : ThreadId) (client : String) (r r' : Relay) : Prop where
  thread_eq : r'.thread = r.thread
  channel_eq : r'.channel = r.channel
  client_eq : r'.client = r.client
  delegate_eq : r'.delegate = r.delegate
  detached_eq : r'.detached = r.detached
  held_eq : r.thread ≠ t → r'.held = r.held
  client_ne : r.thread = t → r.client ≠ client

namespace Relay.Alike

variable {r r' : Relay}

/-- A relay is like itself. -/
theorem refl (h : r.thread = t → r.client ≠ client) : r.Alike t client r :=
  ⟨rfl, rfl, rfl, rfl, rfl, fun _ => rfl, h⟩

/-- A relay of another thread is the same. -/
theorem eq_of_ne (h : r.Alike t client r') (ht : r.thread ≠ t) : r' = r := by
  obtain ⟨hth, hch, hcl, hde, hdt, hhe, -⟩ := h
  cases r
  cases r'
  simp_all

/-- Both relays may come to hold the same. -/
theorem hold (h : r.Alike t client r') (bytes : Bytes) :
    Relay.Alike t client { r with held := bytes } { r' with held := bytes } :=
  { h with held_eq := fun _ => rfl }

/-- One of them may come to hold anything if it captures the thread. -/
theorem hold_left (h : r.Alike t client r') (ht : r.thread = t) (bytes : Bytes) :
    Relay.Alike t client { r with held := bytes } r' :=
  { h with held_eq := fun hn => absurd ht hn }

/-- Both relays may be detached. -/
theorem detach (h : r.Alike t client r') :
    Relay.Alike t client { r with detached := true } { r' with detached := true } :=
  { h with detached_eq := rfl }

/-- Giving away what they hold, they tell the client the same. -/
theorem told_drain (h : r.Alike t client r') :
    told client (Streams.chunks r (LineBuffer.drain r.held)) =
      told client (Streams.chunks r' (LineBuffer.drain r'.held)) := by
  by_cases ht : r.thread = t
  · have hc : r'.client ≠ client := h.client_eq.trans_ne (h.client_ne ht)
    rw [told_chunks (h.client_ne ht), told_chunks hc]
  · rw [h.eq_of_ne ht]

end Relay.Alike

namespace Streams

/-- Lists that are alike stay so if elements of one number are changed in the same way. -/
theorem forall₂_modify {R : Relay → Relay → Prop} {l l' : List Relay} (h : List.Forall₂ R l l')
    {i : Nat} {f g : Relay → Relay} (hfg : ∀ r r', l[i]? = some r → R r r' → R (f r) (g r')) :
    List.Forall₂ R (l.modify i f) (l'.modify i g) := by
  induction h generalizing i with
  | nil => simp
  | @cons r r' l l' hr hl ih =>
    cases i with
    | zero => exact .cons (hfg r r' rfl hr) hl
    | succ i => exact .cons hr (ih fun r r' h => hfg r r' (by simpa using h))

/-- The same slots, and relays that differ at most in what those of thread `t` hold. -/
structure Alike (t : ThreadId) (client : String) (s s' : Streams) : Prop where
  slot : s'.slot = s.slot
  relays : List.Forall₂ (Relay.Alike t client) s.relays s'.relays

namespace Alike

variable {s s' : Streams} {c : Channel} {w : Writer}

/-- A relay of one is like the relay of the same number of the other. -/
theorem lookup (h : Alike t client s s') (id : Nat) :
    (s.relays[id]? = none ∧ s'.relays[id]? = none) ∨
      ∃ r r', s.relays[id]? = some r ∧ s'.relays[id]? = some r' ∧ r.Alike t client r' := by
  have hlen : s.relays.length = s'.relays.length := h.relays.length_eq
  by_cases hid : id < s.relays.length
  · have hid' : id < s'.relays.length := hlen ▸ hid
    exact .inr ⟨s.relays[id], s'.relays[id], List.getElem?_eq_getElem hid,
      List.getElem?_eq_getElem hid', h.relays.get hid hid'⟩
  · exact .inl ⟨List.getElem?_eq_none (by omega), List.getElem?_eq_none (by omega)⟩

/-- Relays of one number may be changed in the same way. -/
theorem update (h : Alike t client s s') {id : Nat} {f g : Relay → Relay}
    (hfg : ∀ r r', s.relays[id]? = some r → r.Alike t client r' → (f r).Alike t client (g r')) :
    Alike t client (s.update id f) (s'.update id g) :=
  ⟨h.slot, forall₂_modify h.relays hfg⟩

/-- A relay of the thread may come to hold anything. -/
theorem update_left (h : Alike t client s s') {id : Nat} {r : Relay}
    (hr : s.relays[id]? = some r) (ht : r.thread = t) (bytes : Bytes) :
    Alike t client (s.update id fun r => { r with held := bytes }) s' := by
  have hleft : Alike t client (s.update id fun r => { r with held := bytes })
      (s'.update id fun r => r) := by
    refine h.update fun r₁ r' hr₁ hrr => hrr.hold_left ?_ bytes
    rwa [Option.some.inj (hr₁.symm.trans hr)]
  have hsame : s'.relays.modify id (fun r => r) = s'.relays := List.modify_id id s'.relays
  exact ⟨h.slot, hsame ▸ hleft.relays⟩

/-- Both may have the same writer put on a slot. -/
theorem put (h : Alike t client s s') (c : Channel) (w : Writer) :
    Alike t client (s.put c w) (s'.put c w) :=
  ⟨by simp [Streams.put, h.slot], h.relays⟩

/-- The detached relays are the same. -/
theorem attachedFrom (h : Alike t client s s') (fuel : Nat) (w : Writer) :
    s'.attachedFrom fuel w = s.attachedFrom fuel w := by
  induction fuel generalizing w with
  | zero => rfl
  | succ fuel ih =>
    cases w with
    | recorder name n => rfl
    | relay id =>
      obtain ⟨hr, hr'⟩ | ⟨r, r', hr, hr', hrr⟩ := h.lookup id
      · simp only [Streams.attachedFrom, hr, hr']
      · simp only [Streams.attachedFrom, hr, hr', hrr.detached_eq, hrr.delegate_eq, ih]

/-- The same writers are left of a chain whose top is taken off. -/
theorem attached (h : Alike t client s s') (w : Writer) : s'.attached w = s.attached w := by
  rw [Streams.attached, Streams.attached, ← h.relays.length_eq]
  exact h.attachedFrom _ w

/-- Both may have a relay installed, unless the thread tells the client. -/
theorem installOn (h : Alike t client s s') {k : String} (hk : t' = t → k ≠ client) (c : Channel) :
    (s'.installOn t' k c).1 = (s.installOn t' k c).1 ∧
      Alike t client (s.installOn t' k c).2 (s'.installOn t' k c).2 := by
  have hlen : s'.relays.length = s.relays.length := h.relays.length_eq.symm
  have hwrap : Alike t client (s.wrap t' k c).2 (s'.wrap t' k c).2 := by
    refine ⟨h.slot, List.rel_append h.relays (.cons ?_ .nil)⟩
    simpa only [h.slot] using Relay.Alike.refl hk
  constructor
  · simp only [Streams.installOn, Streams.replace, Streams.wrap, hlen, h.slot]
  · simpa only [Streams.installOn, Streams.replace, Streams.wrap, hlen] using hwrap.put c _

/-- Both may have relays installed, unless the thread tells the client. -/
theorem install (h : Alike t client s s') {k : String} (hk : t' = t → k ≠ client) :
    (s'.install t' k).1 = (s.install t' k).1 ∧
      Alike t client (s.install t' k).2 (s'.install t' k).2 := by
  obtain ⟨hout, h⟩ := h.installOn hk .stdout
  obtain ⟨herr, h⟩ := h.installOn hk .stderr
  constructor
  · simp only [Streams.install, hout, herr]
  · exact h

/-- Both may give away what a relay holds, and the client is told the same. -/
theorem drain (h : Alike t client s s') (id : Nat) :
    told client (s.drain id).1 = told client (s'.drain id).1 ∧
      Alike t client (s.drain id).2 (s'.drain id).2 := by
  obtain ⟨hr, hr'⟩ | ⟨r, r', hr, hr', hrr⟩ := h.lookup id
  · rw [drain_none hr, drain_none hr']
    exact ⟨rfl, h⟩
  · simp only [Streams.drain, hr, hr']
    exact ⟨hrr.told_drain, h.update fun _ _ _ hrr => hrr.hold []⟩

/-- Both may have a relay taken off, and the client is told the same. -/
theorem removeFrom (h : Alike t client s s') (c : Channel) (w : Wrapping) :
    told client (s.removeFrom c w).1 = told client (s'.removeFrom c w).1 ∧
      Alike t client (s.removeFrom c w).2 (s'.removeFrom c w).2 := by
  obtain ⟨htold, hd⟩ := h.drain w.relay
  refine ⟨htold, ?_⟩
  rw [removeFrom_snd, removeFrom_snd, h.slot]
  split
  · rw [hd.attached]
    exact hd.put c _
  · exact hd.update fun _ _ _ hrr => hrr.detach

/-- A deed of another thread does the same to both. -/
theorem deliverFrom (h : Alike t client s s') (ht : t' ≠ t) (c : Channel) (deed : Deed)
    (fuel : Nat) (w : Writer) :
    (s'.deliverFrom t' c deed fuel w).1 = (s.deliverFrom t' c deed fuel w).1 ∧
      Alike t client (s.deliverFrom t' c deed fuel w).2 (s'.deliverFrom t' c deed fuel w).2 := by
  induction fuel generalizing w with
  | zero => exact ⟨rfl, h⟩
  | succ fuel ih =>
    cases w with
    | recorder name n =>
      rw [deliverFrom_recorder, deliverFrom_recorder]
      exact ⟨rfl, h⟩
    | relay id =>
      obtain ⟨hr, hr'⟩ | ⟨r, r', hr, hr', hrr⟩ := h.lookup id
      · rw [deliverFrom_none hr, deliverFrom_none hr']
        exact ⟨rfl, h⟩
      · by_cases hp : r.detached = true ∨ r.thread ≠ t'
        · have hp' : r'.detached = true ∨ r'.thread ≠ t' := by
            rwa [hrr.detached_eq, hrr.thread_eq]
          rw [deliverFrom_passed hr hp, deliverFrom_passed hr' hp', hrr.delegate_eq]
          exact ih r.delegate
        · obtain ⟨hd, hth⟩ : r.detached = false ∧ r.thread = t' := by simpa using hp
          obtain rfl : r' = r := hrr.eq_of_ne (hth.trans_ne ht)
          rw [deliverFrom_captured hr hd hth, deliverFrom_captured hr' hd hth]
          cases deed with
          | write bytes => exact ⟨rfl, h.update fun _ _ _ hrr => hrr.hold _⟩
          | flush => exact ⟨rfl, h.update fun _ _ _ hrr => hrr.hold []⟩

/-- A deed of another thread does the same to both. -/
theorem deliver (h : Alike t client s s') (ht : t' ≠ t) (c : Channel) (deed : Deed) :
    (s'.deliver t' c deed).1 = (s.deliver t' c deed).1 ∧
      Alike t client (s.deliver t' c deed).2 (s'.deliver t' c deed).2 := by
  rw [Streams.deliver, Streams.deliver, h.slot, ← h.relays.length_eq]
  exact h.deliverFrom ht c deed _ _

/-- A deed of the thread tells the client nothing. -/
theorem deliverFrom_left (h : Alike t client s s') (c : Channel) (deed : Deed) (fuel : Nat)
    (w : Writer) :
    told client (s.deliverFrom t c deed fuel w).1 = [] ∧
      Alike t client (s.deliverFrom t c deed fuel w).2 s' := by
  induction fuel generalizing w with
  | zero => exact ⟨rfl, h⟩
  | succ fuel ih =>
    cases w with
    | recorder name n =>
      rw [deliverFrom_recorder]
      exact ⟨by cases deed <;> rfl, h⟩
    | relay id =>
      obtain ⟨hr, hr'⟩ | ⟨r, r', hr, hr', hrr⟩ := h.lookup id
      · rw [deliverFrom_none hr]
        exact ⟨rfl, h⟩
      · by_cases hp : r.detached = true ∨ r.thread ≠ t
        · rw [deliverFrom_passed hr hp]
          exact ih r.delegate
        · obtain ⟨hd, hth⟩ : r.detached = false ∧ r.thread = t := by simpa using hp
          rw [deliverFrom_captured hr hd hth]
          cases deed with
          | write bytes => exact ⟨told_chunks (hrr.client_ne hth) _, h.update_left hr hth _⟩
          | flush => exact ⟨told_chunks (hrr.client_ne hth) _, h.update_left hr hth []⟩

end Alike

/-! ## Runs without a thread's deeds -/

/-- Whether a move is a deed of thread `t`. -/
def Move.isDeedOf (t : ThreadId) : Move → Bool
  | .deed t' _ _ => t' = t
  | _ => false

/-- A deed of the thread is one. -/
theorem Move.eq_deed_of_isDeedOf {m : Move} (h : m.isDeedOf t = true) :
    ∃ c deed, m = .deed t c deed := by
  cases m with
  | deed t' c deed =>
    obtain rfl : t' = t := by simpa [Move.isDeedOf] using h
    exact ⟨c, deed, rfl⟩
  | _ => simp [Move.isDeedOf] at h

namespace Tapped

/-- The same taps, on streams that are alike. -/
structure Alike (t : ThreadId) (client : String) (x x' : Tapped) : Prop where
  taps : x'.taps = x.taps
  streams : Streams.Alike t client x.streams x'.streams

namespace Alike

variable {x x' : Tapped}

/-- A move that is not a deed of the thread tells the client the same. -/
theorem step (h : Alike t client x x') {m : Move} (hm : m ≠ .install t client)
    (hd : m.isDeedOf t = false) :
    told client (x.step m).1 = told client (x'.step m).1 ∧
      Alike t client (x.step m).2 (x'.step m).2 := by
  cases m with
  | install t' k =>
    have hk : t' = t → k ≠ client := by
      rintro rfl rfl
      exact hm rfl
    obtain ⟨hi, hs⟩ := h.streams.install hk
    exact ⟨rfl, by simp only [Tapped.step, hi, h.taps], hs⟩
  | remove k =>
    simp only [Tapped.step, h.taps]
    cases hk : x.taps[k]? with
    | none => exact ⟨rfl, h⟩
    | some a =>
      obtain ⟨hout, hs⟩ := h.streams.removeFrom .stdout a.installed.out
      obtain ⟨herr, hs⟩ := hs.removeFrom .stderr a.installed.err
      refine ⟨?_, rfl, hs⟩
      simp only [Streams.remove, told_append, hout, herr]
  | flush k =>
    simp only [Tapped.step, h.taps]
    cases hk : x.taps[k]? with
    | none => exact ⟨rfl, h⟩
    | some a =>
      obtain ⟨hout, hs⟩ := h.streams.drain a.installed.out.relay
      obtain ⟨herr, hs⟩ := hs.drain a.installed.err.relay
      refine ⟨?_, rfl, hs⟩
      simp only [Streams.flushRelay, told_append, hout, herr]
  | deed t' c deed =>
    have ht : t' ≠ t := by simpa [Move.isDeedOf] using hd
    obtain ⟨hgiven, hs⟩ := h.streams.deliver ht c deed
    refine ⟨?_, h.taps, hs⟩
    simp only [Tapped.step, hgiven]

/-- A deed of the thread tells the client nothing. -/
theorem deed (h : Alike t client x x') (c : Channel) (deed : Deed) :
    told client (x.step (.deed t c deed)).1 = [] ∧
      Alike t client (x.step (.deed t c deed)).2 x' := by
  obtain ⟨hgiven, hs⟩ := h.streams.deliverFrom_left c deed _ _
  exact ⟨hgiven, h.taps, hs⟩

/-- Moves tell the client the same without the deeds of the thread. -/
theorem run (h : Alike t client x x') (moves : List Move)
    (hm : Move.install t client ∉ moves) :
    told client (x.run moves).1 =
      told client (x'.run (moves.filter fun m => ¬ m.isDeedOf t)).1 := by
  induction moves generalizing x x' with
  | nil => rfl
  | cons m moves ih =>
    have hne : m ≠ .install t client := fun h => hm (h ▸ List.mem_cons_self)
    have hmoves : Move.install t client ∉ moves := fun h => hm (List.mem_cons_of_mem _ h)
    cases hd : m.isDeedOf t with
    | false =>
      obtain ⟨htold, hx⟩ := h.step hne hd
      rw [List.filter_cons_of_pos (by simp [hd])]
      simp only [Tapped.run, told_append, htold, ih hx hmoves]
    | true =>
      obtain ⟨c, deed, rfl⟩ := Move.eq_deed_of_isDeedOf hd
      obtain ⟨htold, hx⟩ := h.deed c deed
      rw [List.filter_cons_of_neg (by simp [hd])]
      simp only [Tapped.run, told_append, htold, List.nil_append, ih hx hmoves]

end Alike

/-- A client whom a thread's relays do not tell is told the same without the thread's deeds. -/
theorem told_run (name : Channel → String) (n : Channel → Nat) (moves : List Move)
    (h : Move.install t client ∉ moves) :
    told client ((start name n).run moves).1 =
      told client ((start name n).run (moves.filter fun m => ¬ m.isDeedOf t)).1 :=
  Alike.run ⟨rfl, rfl, .nil⟩ moves h

/-! ## What a write reaches -/

/-- After any moves, what thread `t` writes is captured by its latest tap, and nothing but what the
tap's relay on the channel holds changes; if it has no tap the writer that was there first is given
the bytes. Clients whom relays of `t` do not tell never hear of it. When all taps are taken off the
slots hold the writers that were there first. -/
theorem write_captured (name : Channel → String) (n : Channel → Nat) (moves : List Move)
    (t : ThreadId) (c : Channel) (bytes : Bytes) :
    let x := ((start name n).run moves).2
    (∀ a, x.taps.find? (·.thread = t) = some a →
      ∃ held, x.streams.relays[(a.on c).relay]? = some (a.relay c held) ∧
        x.streams.write t c bytes =
          ((LineBuffer.write held bytes).1.map (.chunk a.client c),
            x.streams.update (a.on c).relay fun r =>
              { r with held := (LineBuffer.write held bytes).2 })) ∧
    (x.taps.find? (·.thread = t) = none →
      x.streams.write t c bytes = ([.bytes (name c) c bytes], x.streams)) ∧
    (∀ client, Move.install t client ∉ moves →
      told client ((start name n).run moves).1 =
        told client ((start name n).run (moves.filter fun m => ¬ m.isDeedOf t)).1) ∧
    (x.taps = [] → ∀ c, x.streams.slot c = .recorder (name c) (n c)) := by
  intro x
  have hx : x.Standing name n := run_standing name n moves
  refine ⟨fun a ha => ?_, fun ht => ?_, fun client h => told_run name n moves h, hx.slot_of_nil⟩
  · exact (hx c).deliver_of_find? ha (.write bytes)
  · exact (hx c).deliver_of_none ht (.write bytes)

/-- Relays of two threads that come off in another order than they went on. -/
theorem write_captured_crosswise :
    let start := start (fun _ => "terminal") fun _ => 0
    let moves := [.install 1 "first", .install 2 "second", .deed 1 .stdout (.write [72, 105]),
      .install 1 "third", .remove 2, .remove 1]
    let x := (start.run moves).2
    let y := (start.run (moves ++ [.remove 0])).2
    (∃ (a : Tap) (held : Bytes), a.client = "third" ∧ x.streams.write 1 .stderr [10] =
      ((LineBuffer.write held [10]).1.map (.chunk a.client .stderr),
        x.streams.update (a.on .stderr).relay fun r =>
          { r with held := (LineBuffer.write held [10]).2 })) ∧
      x.streams.write 2 .stderr [10] = ([.bytes "terminal" .stderr [10]], x.streams) ∧
      told "second" (start.run moves).1 =
        told "second" (start.run (moves.filter fun m => ¬ m.isDeedOf 1)).1 ∧
      y.streams.slot .stdout = .recorder "terminal" 0 := by
  intro start moves x y
  have hx := write_captured (fun _ => "terminal") (fun _ => 0) moves
  have hy := write_captured (fun _ => "terminal") (fun _ => 0) (moves ++ [.remove 0]) 1 .stdout []
  refine ⟨?_, (hx 2 .stderr [10]).2.1 rfl, (hx 1 .stderr [10]).2.2.1 "second" (by decide),
    hy.2.2.2 rfl .stdout⟩
  obtain ⟨held, -, hw⟩ := (hx 1 .stderr [10]).1 ⟨1, "third", _⟩ rfl
  exact ⟨_, held, rfl, hw⟩

end Tapped

end Streams

end DebugAdapter
