import DebugAdapter.Proofs.Protocol.Growing
import DebugAdapter.Proofs.Session.Answers
import DebugAdapter.Proofs.Session.AtRest
import DebugAdapter.Server
/-!
# Serving

`Server.Serves` follows a server from its start, whatever the client sends and in whatever order the
reader, the writer and the parties of the session move: it remembers what the client sent and what
was queued for it while the stream was open. `Server.requestsIn` are the requests that are to be
answered.

`Server.Attends` is what every move keeps (`Server.Serves.attends`): what was queued is written or
is still in the outbox, in order; the requests read so far are those that the client made first; and
each of them is answered already or the handler is about to answer it.
-/

namespace DebugAdapter.Server

open Protocol (Feed Outgoing Request)
open Protocol.Frame (ReadsOff valueIn readAll readValue)
open Session (RequestName answered? answersOf endsSession nameOf)

/-! ## What a client asks for -/

/-- The request that a message is, if it is one. -/
def request? (message : Json) : Option Request :=
  if Protocol.isRequest message then (Request.shape.decode message).toOption else none

/-- The requests up to the first one that ends the session, with it. -/
def upToEnd : List Request → List Request
  | [] => []
  | request :: requests => request :: if endsSession request then [] else upToEnd requests

/-- The requests that are to be answered to a client that sends `input`: those that come before
anything that cannot be read, up to the first one that ends the session. -/
def requestsIn (input : Feed) : List Request :=
  upToEnd ((readAll readValue input).1.filterMap request?)

/-! ## Courses of a server -/

/-- What the client has sent once this has come, too. -/
def Input.after (input : Feed) : Input → Feed
  | bytes bs => input.push bs
  | finish => input.finish
  | elapse _ | release => input

/-- Whether this may come from a client that has sent `input`: nothing follows the end. -/
def Input.follows (input : Feed) : Input → Bool
  | bytes _ => input.isOpen
  | finish | elapse _ | release => true

/-- What is queued for the client by a move, while the stream is open. -/
def queuedIn (s t : Server) : List Outgoing :=
  if s.isClosed then [] else t.session.outbox.drop s.session.outbox.length

/-- A server that has got to `s` after the client sent `input` and the messages `queued` were queued
for it while the stream was open. -/
inductive Serves (b : Session.Backend) : (input : Feed) → (queued : List Outgoing) → Server → Prop
  | start : Serves b ⟨[], true⟩ [] {}
  | move {input : Feed} {queued : List Outgoing} {s t : Server} (m : Move) :
      Serves b input queued s → s.move? b m = some t → Serves b input (queued ++ s.queuedIn t) t
  | accept {input : Feed} {queued : List Outgoing} {s : Server} (i : Input) :
      Serves b input queued s → i.follows input = true →
        Serves b (i.after input) queued (s.accept i)

/-! ## Requests up to the end -/

/-- Whether one of these requests ends the session. -/
def IsOver (asked : List Request) : Prop :=
  ∃ request ∈ asked, endsSession request = true

theorem upToEnd_append_of_isOver {asked : List Request} (h : IsOver asked) (more : List Request) :
    upToEnd (asked ++ more) = upToEnd asked := by
  induction asked with
  | nil => simp [IsOver] at h
  | cons request asked ih =>
    cases hends : endsSession request with
    | true => simp [upToEnd, hends]
    | false =>
      have hover : IsOver asked := by simpa [IsOver, hends] using h
      simp [upToEnd, hends, ih hover]

theorem upToEnd_append_of_not {asked : List Request} (h : ¬IsOver asked) (more : List Request) :
    upToEnd (asked ++ more) = asked ++ upToEnd more := by
  induction asked with
  | nil => rfl
  | cons request asked ih =>
    obtain ⟨hends, hasked⟩ : endsSession request = false ∧ ¬IsOver asked := by
      simpa [IsOver] using h
    simp [upToEnd, hends, ih hasked]

/-! ## Numbering -/

theorem length_numbered (count : Nat) (ms : List Outgoing) :
    (numbered count ms).length = ms.length := by
  induction ms generalizing count with
  | nil => rfl
  | cons m ms ih => simp [numbered, ih]

theorem numbered_append (count : Nat) (ms ms' : List Outgoing) :
    numbered count (ms ++ ms') = numbered count ms ++ numbered (count + ms.length) ms' := by
  induction ms generalizing count with
  | nil => rfl
  | cons m ms ih =>
    rw [List.cons_append, numbered, numbered, ih, List.length_cons, List.cons_append,
      Nat.add_assoc, Nat.add_comm 1]

/-! ## What the reader does -/

/-- What a move of the reader is. -/
inductive ReadsTo (s : Server) : Server → Prop where
  /-- The client has disconnected. -/
  | leave (hover : s.session.disconnected = true) :
      ReadsTo s { s with outcome := some (.ok ()) }
  | message {m : Json} {feed : Feed} (hconnected : s.session.disconnected = false)
      (hread : readValue s.feed = .ok (some (m, feed))) : ReadsTo s ({ s with feed }.deliver m)
  /-- The client sends no more. -/
  | finish (hread : readValue s.feed = .ok none) : ReadsTo s (s.stop (.ok ()))
  | fail {e : Protocol.FrameError} (hread : readValue s.feed = .error (.failed e)) :
      ReadsTo s (s.stop (.error e))

variable {b : Session.Backend} {input : Feed} {queued : List Outgoing} {asked : List Request}
  {s t : Server}

theorem readsTo_of_read? (h : s.read? = some t) :
    s.outcome = none ∧ s.session.handler = [] ∧ s.ReadsTo t := by
  unfold read? at h
  split at h
  · cases h
  next hgoing =>
  obtain ⟨hnone, hrest⟩ : s.outcome = none ∧ s.session.handler = [] := by simpa using hgoing
  refine ⟨hnone, hrest, ?_⟩
  split at h
  next hover =>
    obtain rfl := Option.some.inj h
    exact .leave hover
  next hconnected =>
    split at h <;> cases h
    next m feed hread => exact .message (by simpa using hconnected) hread
    next hread => exact .finish hread
    next e hread => exact .fail hread

/-- A reader that cannot go on waits for the handler or for more bytes, or is done. -/
theorem cases_of_read?_none (h : s.read? = none) : s.outcome ≠ none ∨ s.session.handler ≠ [] ∨
    s.session.disconnected = false ∧ readValue s.feed = .error .starved := by
  by_cases hnone : s.outcome = none
  case neg => exact .inl hnone
  by_cases hrest : s.session.handler = []
  case neg => exact .inr (.inl hrest)
  refine .inr (.inr ?_)
  unfold read? at h
  rw [if_neg (by simp [hnone, hrest])] at h
  split at h
  · cases h
  next hconnected =>
    split at h
    · cases h
    · cases h
    · cases h
    next hread => exact ⟨by simpa using hconnected, hread⟩

/-- A message that is no request is ignored. -/
theorem deliver_of_none {m : Json} (h : request? m = none) : s.deliver m = s := by
  unfold request? at h
  unfold deliver
  split
  next hrequest =>
    rw [if_pos hrequest] at h
    cases hdecode : Request.shape.decode m with
    | error e => rfl
    | ok request =>
      rw [hdecode] at h
      cases h
  · rfl

theorem deliver_of_some {m : Json} {request : Request} (h : request? m = some request) :
    s.deliver m = { s with session := s.session.accept (.request request) } := by
  unfold request? at h
  unfold deliver
  split at h
  next hrequest =>
    rw [if_pos hrequest]
    cases hdecode : Request.shape.decode m with
    | error e =>
      rw [hdecode] at h
      cases h
    | ok request' =>
      rw [hdecode] at h
      obtain rfl : request' = request := Option.some.inj h
      rfl
  · cases h

theorem outbox_deliver {m : Json} : (s.deliver m).session.outbox = s.session.outbox := by
  cases hm : request? m with
  | none => rw [deliver_of_none hm]
  | some request =>
    rw [deliver_of_some hm]
    rfl

/-! ## What every move keeps -/

/-- The requests `asked` are read off what the client sent, and `rest` is left. -/
def ReadsRequests (input : Feed) (asked : List Request) (rest : Bytes) : Prop :=
  ∃ vs, ReadsOff input.isOpen input.bytes vs rest ∧ vs.filterMap request? = asked

/-- Whether no message can be read off these bytes, also if more come. -/
def Ended (isOpen : Bool) (rest : Bytes) : Prop :=
  valueIn isOpen rest = .ok none ∨ ∃ e, valueIn isOpen rest = .error (.failed e)

/-- Whether a session is disconnected, or about to be, if one of these requests ends it. -/
def Heeds (asked : List Request) (u : Session.State) : Prop :=
  ¬IsOver asked ∧ u.disconnected = false ∧ (∀ d ∈ u.handler, d.disconnects = false) ∨
    IsOver asked ∧ (u.disconnected = true ∨
      ∃ request ds, u.handler = .session (.handle request) :: ds ∧ endsSession request = true)

/-- How far the reader is. -/
inductive Reading (input : Feed) (asked : List Request) (s : Server) : Prop where
  | going (hnone : s.outcome = none) (hreads : ReadsRequests input asked s.feed.bytes)
      (hheeds : Heeds asked s.session)
  | done {rest : Bytes} (hdone : s.outcome ≠ none) (hreads : ReadsRequests input asked rest)
      (hend : IsOver asked ∨ Ended input.isOpen rest)

/-- What is true of a server that has read the requests `asked`. The writer takes messages out of
the outbox, so the session is on a path only with those messages put back. -/
structure Attends (b : Session.Backend) (input : Feed) (queued : List Outgoing)
    (asked : List Request) (s : Server) : Prop where
  session : ∃ es ms, Session.State.Path b {} es (s.session.withOutbox ms)
  numbers : numbered 0 queued =
    s.written ++ if s.isClosed then [] else numbered s.written.length s.session.outbox
  closed : s.isClosed = true → s.session.handler = [] ∧ s.outcome ≠ none
  answers : queued.filterMap answered? ++ answersOf s.session.handler = asked.map nameOf
  isOpen : s.feed.isOpen = input.isOpen
  upToEnd : upToEnd asked = asked
  reading : Reading input asked s

theorem Heeds.iff_of_nil {u : Session.State} (h : Heeds asked u) (hnil : u.handler = []) :
    u.disconnected = true ↔ IsOver asked := by
  rcases h with ⟨hnot, hconnected, -⟩ | ⟨hover, hdisconnected | ⟨_, _, hhandler, -⟩⟩
  · simp [hnot, hconnected]
  · simp [hover, hdisconnected]
  · cases hnil.symm.trans hhandler

/-- How far the reader is can be seen from its outcome, the bytes left and what the session
heeds. -/
theorem Reading.congr (h : Reading input asked s) (houtcome : t.outcome = s.outcome)
    (hfeed : t.feed = s.feed) (hheeds : Heeds asked s.session → Heeds asked t.session) :
    Reading input asked t := by
  cases h with
  | going hnone hreads hsession =>
    rw [← hfeed] at hreads
    exact .going (houtcome.trans hnone) hreads (hheeds hsession)
  | done hdone hreads hend => exact .done (houtcome ▸ hdone) hreads hend

/-- The stream stays open as long as the reader reads. -/
theorem Attends.not_closed (h : Attends b input queued asked s) (hnone : s.outcome = none) :
    ¬s.isClosed = true :=
  fun hclosed => (h.closed hclosed).2 hnone

/-- A move that adds nothing to the outbox queues nothing. -/
theorem Attends.of_outbox (h : Attends b input queued asked t)
    (hle : t.session.outbox.length ≤ s.session.outbox.length) :
    Attends b input (queued ++ s.queuedIn t) asked t := by
  have hqueued : s.queuedIn t = [] := by simp [queuedIn, List.drop_eq_nil_of_le hle]
  rwa [hqueued, List.append_nil]

theorem Heeds.of_stride {u v : Session.State} {p : Session.Party} (h : Heeds asked u)
    (horder : u.Orderly) (hst : u.Stride b v p) : Heeds asked v := by
  rcases h with ⟨hnot, hconnected, hhandler⟩ | ⟨hover, hdisconnected | ⟨request, ds, hs, hends⟩⟩
  · obtain ⟨hsame, hhandler⟩ := hst.connected horder hhandler
    exact .inl ⟨hnot, hsame.trans hconnected, hhandler⟩
  · exact .inr ⟨hover, .inl (hst.disconnected hdisconnected)⟩
  · by_cases hp : p = .handler
    · subst hp
      exact .inr ⟨hover, .inl (hst.disconnects hs hends)⟩
    · exact .inr ⟨hover, .inr ⟨request, ds, (hst.handler_eq hp).trans hs, hends⟩⟩

/-- A step of the session. -/
theorem Attends.work (h : Attends b input queued asked s) {p : Session.Party} {u : Session.State}
    (hp : s.session.advance? b p = some u) :
    Attends b input (queued ++ s.queuedIn { s with session := u }) asked
      { s with session := u } := by
  obtain ⟨es, ms, hpath⟩ := h.session
  -- the same step with the outbox of the path, where the invariants of the session hold
  obtain ⟨sent, hsent, hany⟩ := Session.State.advance?_withOutbox hp
  have horder := hpath.orderly Session.State.orderly_empty
  have hst := horder.stride (hany ms)
  obtain ⟨sent', hsent', hanswers⟩ := hst.answers horder
  obtain rfl : sent = sent' := List.append_cancel_left hsent'
  have hqueued : s.queuedIn { s with session := u } = if s.isClosed then [] else sent := by
    simp only [queuedIn, hsent, List.drop_left]
  -- once the stream is closed the handler rests, and no one else answers
  have hhandler (hclosed : s.isClosed = true) : p ≠ .handler := by
    rintro rfl
    simp [Session.State.advance?, Session.State.agenda, (h.closed hclosed).1] at hp
  refine ⟨⟨_, _, hpath.step (hany ms)⟩, ?_, fun hclosed => ?_, ?_, h.isOpen, h.upToEnd, ?_⟩
  · rw [numbered_append, h.numbers, hqueued]
    cases hclosed : s.isClosed with
    | true => simp [numbered]
    | false =>
      have hlength := congrArg List.length h.numbers
      simp only [hclosed, length_numbered, List.length_append, Bool.false_eq_true, if_false]
        at hlength
      simp only [hsent, numbered_append, List.append_assoc, Bool.false_eq_true, if_false, hlength,
        Nat.zero_add]
  · exact ⟨(hst.handler_eq (hhandler hclosed)).trans (h.closed hclosed).1, (h.closed hclosed).2⟩
  · rw [← h.answers, List.filterMap_append, hqueued, List.append_assoc]
    congr 1
    cases hclosed : s.isClosed with
    | true => exact congrArg answersOf (hst.handler_eq (hhandler hclosed))
    | false => exact hanswers
  · refine h.reading.congr rfl rfl fun hheeds => ?_
    have hbefore : Heeds asked (s.session.withOutbox ms) := hheeds
    have hafter : Heeds asked (u.withOutbox (ms ++ sent)) := hbefore.of_stride horder hst
    exact hafter

/-- The writer takes a message out of the outbox. -/
theorem Attends.write (h : Attends b input queued asked s) (hwrite : s.write? = some t) :
    Attends b input (queued ++ s.queuedIn t) asked t := by
  unfold write? at hwrite
  split at hwrite
  next m ms hopen houtbox =>
    obtain rfl := Option.some.inj hwrite
    refine .of_outbox ⟨h.session, ?_, h.closed, h.answers, h.isOpen, h.upToEnd,
      h.reading.congr rfl rfl id⟩ (by simp [houtbox])
    rw [h.numbers]
    simp [hopen, houtbox, numbered]
  · cases hwrite

/-- The stream is closed once everything is written. -/
theorem Attends.close (h : Attends b input queued asked s) (hclose : s.close? = some t) :
    Attends b input (queued ++ s.queuedIn t) asked t := by
  unfold close? at hclose
  split at hclose
  next hcan =>
    obtain rfl := Option.some.inj hclose
    obtain ⟨⟨⟨hdone, hhandler⟩, houtbox⟩, hopen⟩ : ((s.outcome ≠ none ∧ s.session.handler = []) ∧
        s.session.outbox = []) ∧ s.isClosed = false := by
      simpa [Option.isSome_iff_ne_none] using hcan
    refine .of_outbox ⟨h.session, ?_, fun _ => ⟨hhandler, hdone⟩, h.answers, h.isOpen, h.upToEnd,
      h.reading.congr rfl rfl id⟩ (Nat.le_refl _)
    rw [h.numbers]
    simp [hopen, houtbox, numbered]
  · cases hclose

/-- A session is given something to do. -/
theorem Attends.path_accept (h : Attends b input queued asked s) {i : Session.State.Input}
    (hi : s.session.Admits i) :
    ∃ es ms, Session.State.Path b {} es ((s.session.accept i).withOutbox ms) := by
  obtain ⟨es, ms, hpath⟩ := h.session
  have hstep : Session.State.Path b {} es ((s.session.withOutbox ms).accept i) := by
    refine hpath.accept i ?_
    cases i <;> exact hi
  cases i <;> exact ⟨es, ms, hstep⟩

/-- The reader gets to the end, and the session lets go of what runs. -/
theorem Attends.stop (h : Attends b input queued asked s) (hnone : s.outcome = none)
    (hrest : s.session.handler = []) (hreads : ReadsRequests input asked s.feed.bytes)
    (hend : Ended input.isOpen s.feed.bytes) (outcome : ServerOutcome) :
    Attends b input queued asked (s.stop outcome) := by
  refine ⟨h.path_accept (i := .hangUp) hrest, h.numbers,
    fun hclosed => absurd hclosed (h.not_closed hnone), ?_, h.isOpen, h.upToEnd,
    .done (by simp [Server.stop]) hreads (.inr hend)⟩
  have hanswers := h.answers
  rw [hrest] at hanswers
  simpa [Server.stop, Session.State.accept, hrest, Session.SessionDuty.answers] using hanswers

/-- The reader hands a message to the session. -/
theorem Attends.message (h : Attends b input queued asked s) (hnone : s.outcome = none)
    (hrest : s.session.handler = []) (hreads : ReadsRequests input asked s.feed.bytes)
    (hnot : ¬IsOver asked) (hconnected : s.session.disconnected = false) {m : Json} {feed : Feed}
    (hread : readValue s.feed = .ok (some (m, feed))) :
    Attends b input queued (asked ++ (request? m).toList) ({ s with feed }.deliver m) := by
  have hopen : feed.isOpen = input.isOpen :=
    (Protocol.Frame.isOpen_of_readValue hread).trans h.isOpen
  have hvalue : valueIn input.isOpen s.feed.bytes = .ok (some (m, feed.bytes)) := by
    rw [← h.isOpen, Protocol.Frame.valueIn_bytes, hread]
    rfl
  have hreads' : ReadsRequests input (asked ++ (request? m).toList) feed.bytes := by
    obtain ⟨vs, hoff, rfl⟩ := hreads
    refine ⟨_, hoff.next hvalue, ?_⟩
    cases hm : request? m <;> simp [List.filterMap_append, hm]
  have hupToEnd : Server.upToEnd (asked ++ (request? m).toList) = asked ++ (request? m).toList := by
    rw [upToEnd_append_of_not hnot]
    cases request? m with
    | none => rfl
    | some request => cases hends : endsSession request <;> simp [Server.upToEnd, hends]
  have hclosed := h.not_closed hnone
  have hanswers := h.answers
  rw [hrest, Session.answersOf_nil, List.append_nil] at hanswers
  cases hm : request? m with
  | none =>
    rw [hm] at hreads' hupToEnd
    rw [deliver_of_none hm]
    refine ⟨h.session, h.numbers, fun hc => absurd hc hclosed, ?_, hopen, hupToEnd,
      .going hnone hreads' ?_⟩
    · simpa [hrest] using hanswers
    · rw [Option.toList_none, List.append_nil]
      exact .inl ⟨hnot, hconnected, by simp [hrest]⟩
  | some request =>
    rw [hm] at hreads' hupToEnd
    rw [deliver_of_some hm]
    refine ⟨h.path_accept (i := .request request) hrest, h.numbers, fun hc => absurd hc hclosed,
      ?_, hopen, hupToEnd, .going hnone hreads' ?_⟩
    · simp [Session.State.accept, hrest, Session.SessionDuty.answers, hanswers]
    · cases hends : endsSession request with
      | true =>
        refine .inr ⟨⟨request, by simp, hends⟩, .inr ⟨request, [], ?_, hends⟩⟩
        simp [Session.State.accept, hrest]
      | false =>
        refine .inl ⟨?_, hconnected, ?_⟩
        · rintro ⟨request', hmem, hends'⟩
          rcases List.mem_append.1 hmem with hmem | hmem
          · exact hnot ⟨request', hmem, hends'⟩
          · obtain rfl : request' = request := by simpa using hmem
            exact Bool.false_ne_true (hends.symm.trans hends')
        · simp [Session.State.accept, hrest, Session.Duty.disconnects, hends]

/-- The reader reads the next message, or gets to the end. -/
theorem Attends.read (h : Attends b input queued asked s) (ht : s.read? = some t) :
    ∃ asked', Attends b input (queued ++ s.queuedIn t) asked' t := by
  obtain ⟨hnone, hrest, hto⟩ := readsTo_of_read? ht
  cases h.reading with
  | done hdone => exact absurd hnone hdone
  | going _ hreads hheeds =>
    have hiff := hheeds.iff_of_nil hrest
    have hbytes := Protocol.Frame.valueIn_bytes s.feed
    rw [h.isOpen] at hbytes
    cases hto with
    | leave hover =>
      refine ⟨asked, .of_outbox ?_ (Nat.le_refl _)⟩
      exact ⟨h.session, h.numbers, fun hclosed => absurd hclosed (h.not_closed hnone), h.answers,
        h.isOpen, h.upToEnd, .done (by simp) hreads (.inl (hiff.1 hover))⟩
    | message hconnected hread =>
      have hnot : ¬IsOver asked := by simp [← hiff, hconnected]
      exact ⟨_, (h.message hnone hrest hreads hnot hconnected hread).of_outbox
        (Nat.le_of_eq (congrArg List.length outbox_deliver))⟩
    | finish hread =>
      rw [hread] at hbytes
      exact ⟨asked, (h.stop hnone hrest hreads (.inl hbytes) _).of_outbox (Nat.le_refl _)⟩
    | fail hread =>
      rw [hread] at hbytes
      exact ⟨asked, (h.stop hnone hrest hreads (.inr ⟨_, hbytes⟩) _).of_outbox (Nat.le_refl _)⟩

/-! ## What comes from outside -/

theorem bytes_push (f : Feed) (bs : Bytes) : (f.push bs).bytes = f.bytes ++ bs := by
  simp [Feed.push, Feed.bytes]

theorem finish_eq_self {f : Feed} (h : f.isOpen = false) : f.finish = f := by
  rw [Feed.finish, ← h]

theorem ReadsRequests.grow {rest : Bytes} (h : ReadsRequests input asked rest)
    (hopen : input.isOpen = true) {input' : Feed} {more : Bytes}
    (hbytes : input'.bytes = input.bytes ++ more) : ReadsRequests input' asked (rest ++ more) := by
  obtain ⟨vs, hoff, hvs⟩ := h
  rw [hopen] at hoff
  refine ⟨vs, ?_, hvs⟩
  rw [hbytes]
  exact hoff.grow _ more

theorem Ended.grow {rest : Bytes} (h : Ended true rest) (isOpen : Bool) (more : Bytes) :
    Ended isOpen (rest ++ more) := by
  rcases h with h | ⟨e, h⟩
  · refine .inl ?_
    rw [Protocol.Frame.valueIn_append (by rw [h]; simp), h]
    rfl
  · refine .inr ⟨e, ?_⟩
    rw [Protocol.Frame.valueIn_append (by rw [h]; simp), h]
    rfl

/-- What the reader has read is not changed by what it has not read yet. -/
theorem Reading.grow (h : Reading input asked s) (hopen : input.isOpen = true) {input' : Feed}
    {more : Bytes} (hbytes : input'.bytes = input.bytes ++ more) {f : Feed}
    (hf : f.bytes = s.feed.bytes ++ more) : Reading input' asked { s with feed := f } := by
  cases h with
  | going hnone hreads hheeds =>
    refine .going hnone ?_ hheeds
    rw [hf]
    exact hreads.grow hopen hbytes
  | done hdone hreads hend =>
    rw [hopen] at hend
    exact .done hdone (hreads.grow hopen hbytes) (hend.imp_right fun hend => hend.grow _ more)

/-- Whatever comes from outside. -/
theorem Attends.accept (h : Attends b input queued asked s) {i : Input}
    (hi : i.follows input = true) :
    Attends b (i.after input) queued asked (s.accept i) := by
  cases i with
  | bytes bs =>
    exact ⟨h.session, h.numbers, h.closed, h.answers, h.isOpen, h.upToEnd,
      h.reading.grow hi (bytes_push input bs) (bytes_push s.feed bs)⟩
  | finish =>
    refine ⟨h.session, h.numbers, h.closed, h.answers, rfl, h.upToEnd, ?_⟩
    change Reading input.finish asked { s with feed := s.feed.finish }
    cases hopen : input.isOpen with
    | true =>
      have hsame (f : Feed) : f.finish.bytes = f.bytes ++ [] := (List.append_nil _).symm
      exact h.reading.grow hopen (hsame input) (hsame s.feed)
    | false =>
      rw [finish_eq_self hopen, finish_eq_self (h.isOpen.trans hopen)]
      exact h.reading
  | elapse milliseconds =>
    exact ⟨h.path_accept (i := .elapse milliseconds) trivial, h.numbers, h.closed, h.answers,
      h.isOpen, h.upToEnd, h.reading.congr rfl rfl id⟩
  | release =>
    exact ⟨h.path_accept (i := .release) trivial, h.numbers, h.closed, h.answers,
      h.isOpen, h.upToEnd, h.reading.congr rfl rfl id⟩

/-! ## Whole courses -/

theorem attends_start (b : Session.Backend) : Attends b ⟨[], true⟩ [] [] {} where
  session := ⟨[], [], .refl⟩
  numbers := rfl
  closed h := by cases h
  answers := rfl
  isOpen := rfl
  upToEnd := rfl
  reading := .going rfl ⟨[], .start, rfl⟩ (.inl ⟨by simp [IsOver], rfl, by simp⟩)

/-- A server has read some requests and attends to them. -/
theorem Serves.attends (h : Serves b input queued s) : ∃ asked, Attends b input queued asked s := by
  induction h with
  | start => exact ⟨[], attends_start b⟩
  | move m _ hm ih =>
    obtain ⟨asked, ih⟩ := ih
    cases m with
    | read => exact ih.read hm
    | write => exact ⟨asked, ih.write hm⟩
    | close => exact ⟨asked, ih.close hm⟩
    | work p =>
      obtain ⟨u, hp, rfl⟩ := Option.map_eq_some_iff.1 hm
      exact ⟨asked, ih.work hp⟩
  | accept i _ hi ih =>
    obtain ⟨asked, ih⟩ := ih
    exact ⟨asked, ih.accept hi⟩

end DebugAdapter.Server
