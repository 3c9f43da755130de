import DebugAdapter.Proofs.Output.Taps
/-!
# What a tap holds

The relays of a tap hold the bytes of the lines that are not yet complete (`Tap.Holds`). What its
thread writes gives the client the lines that it completes (`Tap.Holds.write`), and when the relays
give away what they hold (`Tap.Holds.flush`) or come off (`Tap.Holds.remove`) the client is given
the rest. Where on its channel a relay is does not matter for this.
-/

namespace DebugAdapter.Streams

variable {s : Streams} {a : Tap} {held : Channel → Bytes} {c c' : Channel}

theorem getElem?_drain_of_ne {id id' : Nat} (h : id ≠ id') :
    (s.drain id).2.relays[id']? = s.relays[id']? := by
  unfold drain
  split
  · rfl
  · exact getElem?_update_of_ne h _

theorem getElem?_removeFrom_of_ne {w : Wrapping} {id : Nat} (h : w.relay ≠ id) :
    (s.removeFrom c w).2.relays[id]? = s.relays[id]? := by
  rw [removeFrom_snd]
  split
  · exact getElem?_drain_of_ne h
  · exact (getElem?_update_of_ne h _).trans (getElem?_drain_of_ne h)

/-- Whether the relays of a tap hold these bytes. -/
def Tap.Holds (a : Tap) (held : Channel → Bytes) (s : Streams) : Prop :=
  ∀ c, s.relays[(a.on c).relay]? = some (a.relay c (held c))

/-- What is left for the client of a tap whose relays hold these bytes. -/
def Tap.rest (a : Tap) (held : Channel → Bytes) : List Delivery :=
  (LineBuffer.drain (held .stdout)).map (.chunk a.client .stdout) ++
    (LineBuffer.drain (held .stderr)).map (.chunk a.client .stderr)

namespace Tap.Holds

/-- A tap that is just installed holds nothing. -/
theorem install (s : Streams) (t : ThreadId) (client : String) :
    Tap.Holds ⟨t, client, (s.install t client).1⟩ (fun _ => []) (s.install t client).2 := by
  intro c
  cases c <;>
    simp [Streams.install, installOn, replace, put, wrap, Tap.on, Installed.on, Tap.relay]

/-- A tap has a relay for each channel. -/
theorem relay_ne (h : a.Holds held s) (hc : c ≠ c') : (a.on c).relay ≠ (a.on c').relay := by
  intro heq
  have hr := h c
  rw [heq, h c'] at hr
  exact hc (congrArg Relay.channel (Option.some.inj hr)).symm

/-- One of the relays may come to hold something else. -/
theorem hold (h : a.Holds held s) (c : Channel) (bytes : Bytes) :
    a.Holds (Function.update held c bytes)
      (s.update (a.on c).relay fun r => { r with held := bytes }) := by
  intro c'
  by_cases hc : c' = c
  · subst hc
    rw [getElem?_update (h c'), Function.update_self]
    rfl
  · rw [getElem?_update_of_ne (h.relay_ne (Ne.symm hc)), h c', Function.update_of_ne hc]

/-- What is captured goes line by line to the client. -/
theorem write (h : a.Holds held s) (c : Channel) (bytes : Bytes) :
    (s.capture (a.on c).relay (a.relay c (held c)) (.write bytes)).1 =
        (LineBuffer.write (held c) bytes).1.map (.chunk a.client c) ∧
      a.Holds (Function.update held c (LineBuffer.write (held c) bytes).2)
        (s.capture (a.on c).relay (a.relay c (held c)) (.write bytes)).2 :=
  ⟨rfl, h.hold c _⟩

/-- What a relay holds goes to the client when it gives it away. -/
theorem drain (h : a.Holds held s) (c : Channel) :
    (s.drain (a.on c).relay).1 = (LineBuffer.drain (held c)).map (.chunk a.client c) ∧
      a.Holds (Function.update held c []) (s.drain (a.on c).relay).2 := by
  simp only [Streams.drain, h c]
  exact ⟨rfl, h.hold c []⟩

/-- What is held goes to the client when both relays give it away. -/
theorem flush (h : a.Holds held s) : (s.flushRelay a.installed).1 = a.rest held ∧
    a.Holds (fun _ => []) (s.flushRelay a.installed).2 := by
  obtain ⟨hout, h'⟩ := h.drain .stdout
  obtain ⟨herr, h''⟩ := h'.drain .stderr
  have hheld : (fun _ => []) = Function.update (Function.update held .stdout []) .stderr [] := by
    funext c
    cases c <;> rfl
  exact ⟨congrArg₂ _ hout herr, hheld ▸ h''⟩

/-- What is held goes to the client when the relays come off. -/
theorem remove (h : a.Holds held s) : (s.remove a.installed).1 = a.rest held := by
  have hne : (a.on .stdout).relay ≠ (a.on .stderr).relay := h.relay_ne (by decide)
  have herr : (s.removeFrom .stdout (a.on .stdout)).2.relays[(a.on .stderr).relay]? =
      some (a.relay .stderr (held .stderr)) :=
    (getElem?_removeFrom_of_ne hne).trans (h .stderr)
  have herr : ((s.removeFrom .stdout (a.on .stdout)).2.drain (a.on .stderr).relay).1 =
      (LineBuffer.drain (held .stderr)).map (.chunk a.client .stderr) := by
    simp only [Streams.drain, herr]
    rfl
  exact congrArg₂ _ (h.drain .stdout).1 herr

end Tap.Holds

end DebugAdapter.Streams
