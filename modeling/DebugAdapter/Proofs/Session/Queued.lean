import DebugAdapter.Proofs.Session.Shown
/-!
# What is queued for the client

The events of a run are sent by the handler, by the starter and by the thread of the run. What a
step queues on behalf of a run (`queuedIn`) is what it leaves in the outbox when its duty is about
the run; it is the event that the duty sends, if the run is live (`State.Orderly.queuedIn_eq`).
-/

namespace DebugAdapter.Session

open Protocol (Event Outgoing)

/-- What a step queued for the client on behalf of run `r`. -/
def queuedIn (b : Backend) (r : RunId) (e : State × Party) : List Outgoing :=
  if (e.1.agenda e.2).head?.bind Duty.subject? = some r then
    ((e.1.advance? b e.2).map fun t => t.outbox.drop e.1.outbox.length).getD []
  else []

/-- What these steps queued for the client on behalf of run `r`, in order. -/
def queuedBy (b : Backend) (r : RunId) (es : List (State × Party)) : List Outgoing :=
  es.flatMap (queuedIn b r)

@[simp] theorem queuedBy_nil (b : Backend) (r : RunId) : queuedBy b r [] = [] := rfl

@[simp] theorem queuedBy_append (b : Backend) (r : RunId) (es es' : List (State × Party)) :
    queuedBy b r (es ++ es') = queuedBy b r es ++ queuedBy b r es' :=
  List.flatMap_append

@[simp] theorem queuedBy_singleton (b : Backend) (r : RunId) (e : State × Party) :
    queuedBy b r [e] = queuedIn b r e :=
  List.flatMap_singleton ..

/-- The event that a duty sends. -/
def Duty.event? : Duty → Option Event
  | .run _ (.emit e) => some e
  | _ => none

/-- What a duty sends on behalf of a run in this state. -/
def Duty.sends (run : Run) (d : Duty) : List Outgoing :=
  (d.event?.map (gated run)).getD []

variable {b : Backend} {s t : State} {p : Party} {r : RunId} {run : Run} {d : Duty}
  {ds : List Duty} {done : Done}

theorem RequestDuty.sent_of_perform? {d : RequestDuty} (hd : d.perform? b r run = some done) :
    done.sent = [] := by
  cases leads_of_perform? hd <;> rfl

theorem StarterDuty.sent_of_perform? {d : StarterDuty} (hd : d.perform? b s r run = some done) :
    done.sent = [] := by
  cases d <;> simp only [perform?] at hd <;> (repeat' split at hd) <;> cases hd <;> rfl

/-- Only a duty to send an event sends something. -/
theorem Duty.sent_of_stroke? (hd : d.stroke? b s r run = some done) : done.sent = d.sends run := by
  cases d with
  | session d => cases hd
  | run r' d =>
    cases d <;> simp only [stroke?, RunDuty.perform?] at hd <;> (repeat' split at hd) <;>
      cases hd <;> rfl
  | starter _ d => exact StarterDuty.sent_of_perform? (d := d) hd
  | request _ d => exact RequestDuty.sent_of_perform? (d := d) hd
  | thread _ d => exact ThreadDuty.sent_of_perform? (d := d) hd

/-- What a duty sends depends on whether its run is live. -/
theorem Duty.sends_congr {run' : Run} (h : run'.isLive = run.isLive) (d : Duty) :
    d.sends run' = d.sends run := by
  have hgated : gated run' = gated run := by
    funext e
    simp only [gated, h]
  simp only [sends, hgated]

/-- A run that is not live sends nothing. -/
theorem Duty.sends_eq_nil (h : run.isLive = false) (d : Duty) : d.sends run = [] := by
  cases hevent : d.event? <;> simp [sends, gated, h, hevent]

/-- A step on a run queues what its duty sends. -/
theorem State.Orderly.outbox_of_advance? (horder : s.Orderly) (hp : s.advance? b p = some t)
    (hagenda : s.agenda p = d :: ds) (hsub : d.subject? = some r) (hr : s.runs[r]? = some run) :
    t.outbox = s.outbox ++ d.sends run := by
  have hown := horder.belongsTo hagenda
  have hst := horder.stride hp
  cases hst with
  | session hs =>
    obtain ⟨rfl, -⟩ := List.cons.inj (hagenda.symm.trans hs)
    cases hsub
  | handler hs hsub' hr' hd ht =>
    obtain ⟨rfl, -⟩ := List.cons.inj (hagenda.symm.trans hs)
    obtain rfl := Option.some.inj (hsub.symm.trans hsub')
    obtain rfl := Option.some.inj (hr.symm.trans hr')
    rw [ht, Duty.sent_of_stroke? hd]
    rfl
  | @starter r' run' d' ds' done hs hr' hd ht =>
    have hagenda' : s.agenda (.starter r') = d' :: ds' := by simp [agenda, hr', hs]
    obtain ⟨rfl, -⟩ := List.cons.inj (hagenda.symm.trans hagenda')
    obtain rfl : r = r' :=
      Option.some.inj (hsub.symm.trans (Duty.subject_of_belongsTo (.inl hown)))
    obtain rfl := Option.some.inj (hr.symm.trans hr')
    rw [ht, Duty.sent_of_stroke? hd]
    rfl
  | @thread r' run' d' ds' done hs hr' hd ht =>
    have hagenda' : s.agenda (.thread r') = d' :: ds' := by simp [agenda, hr', hs]
    obtain ⟨rfl, -⟩ := List.cons.inj (hagenda.symm.trans hagenda')
    obtain rfl : r = r' :=
      Option.some.inj (hsub.symm.trans (Duty.subject_of_belongsTo (.inr hown)))
    obtain rfl := Option.some.inj (hr.symm.trans hr')
    rw [ht, Duty.sent_of_stroke? hd]
    rfl

/-- A step queues on behalf of a run what its duty sends, if the duty is about that run. -/
theorem State.Orderly.queuedIn_eq (horder : s.Orderly) (hp : s.advance? b p = some t)
    (hagenda : s.agenda p = d :: ds) (hr : s.runs[r]? = some run) :
    queuedIn b r (s, p) = if d.subject? = some r then d.sends run else [] := by
  simp only [queuedIn, hagenda, List.head?_cons, Option.bind_some, hp, Option.map_some,
    Option.getD_some]
  split
  next hsub => rw [horder.outbox_of_advance? hp hagenda hsub hr, List.drop_left]
  · rfl

end DebugAdapter.Session
