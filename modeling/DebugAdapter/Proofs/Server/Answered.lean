import DebugAdapter.Proofs.Server.Serving
/-!
# Requests are answered once and in order

Main statement: `serves_in_order`. Whatever a client sends and in whatever order the reader, the
writer and the parties of the session move, the messages that are written are numbered 1, 2, 3 and
so on, and the responses among them answer the client's requests, each once and in order. The moves
come to an end, and when none is left every request is answered and everything that was queued is
written.

The moves come to an end because each of them makes the server lighter (`Server.Lighter`,
`lighter_of_move?`).
-/

namespace DebugAdapter.Server

open Protocol (Feed Outgoing Request)
open Protocol.Frame (valueIn valuesIn readAll readValue)
open Session (answered? answersOf nameOf)

/-! ## Written messages -/

/-- What names the request that a written message answers, if the message is a response. -/
def answerOf? (message : Json) : Option (Option Json × Option Json) :=
  if (message.member? "type").bind Json.text? == some "response" then
    some (message.member? "request_seq", message.member? "command")
  else none

/-- What names a request in its response. -/
def answerTo (request : Request) : Option Json × Option Json :=
  (some (Json.ofInt request.seq), some (.string request.command))

theorem member?_seq (m : Outgoing) (seq : Int) :
    (m.toJson seq).member? "seq" = some (Json.ofInt seq) := by
  cases m with
  | response r =>
    cases hmessage : r.message <;> cases hbody : r.body <;>
      simp [Outgoing.toJson, Json.mk, Json.member?, Table.get?_ofList, Bindings.find?,
        Protocol.memberOf, hmessage, hbody]
  | event e =>
    cases hbody : e.body <;>
      simp [Outgoing.toJson, Json.mk, Json.member?, Table.get?_ofList, Bindings.find?,
        Protocol.memberOf, hbody]

theorem answerOf?_toJson (m : Outgoing) (seq : Int) :
    answerOf? (m.toJson seq) = (answered? m).map fun name =>
      (some (Json.ofInt name.1), some (.string name.2)) := by
  cases m with
  | response r =>
    cases hmessage : r.message <;> cases hbody : r.body <;>
      simp [answerOf?, answered?, Outgoing.toJson, Json.mk, Json.member?, Table.get?_ofList,
        Bindings.find?, Protocol.memberOf, Json.text?, hmessage, hbody]
  | event e =>
    cases hbody : e.body <;>
      simp [answerOf?, answered?, Outgoing.toJson, Json.mk, Json.member?, Table.get?_ofList,
        Bindings.find?, Protocol.memberOf, Json.text?, hbody]

theorem getElem?_numbered (count : Nat) (ms : List Outgoing) (i : Nat) :
    (numbered count ms)[i]? = (ms[i]?).map fun m => m.toJson ((count + i : Nat) + 1) := by
  induction ms generalizing count i with
  | nil => rfl
  | cons m ms ih =>
    cases i with
    | zero => rfl
    | succ i =>
      rw [numbered, List.getElem?_cons_succ, List.getElem?_cons_succ, ih, Nat.add_right_comm]
      rfl

theorem filterMap_numbered (count : Nat) (ms : List Outgoing) :
    (numbered count ms).filterMap answerOf? = (ms.filterMap answered?).map fun name =>
      (some (Json.ofInt name.1), some (.string name.2)) := by
  induction ms generalizing count with
  | nil => rfl
  | cons m ms ih =>
    rw [numbered, List.filterMap_cons, List.filterMap_cons, answerOf?_toJson, ih]
    cases answered? m <;> rfl

/-! ## Moves come to an end -/

/-- Whether a server still reads. -/
def readings (s : Server) : Nat :=
  if s.outcome.isSome then 0 else 1

/-- Whether a server can still close the stream. -/
def closings (s : Server) : Nat :=
  if s.isClosed then 0 else 1

/-- How much a server can do at most, before something comes from outside. -/
def effort (s : Server) : Nat × Nat × Nat × Nat × Nat × Nat × Nat :=
  (s.readings, s.feed.bytes.length, s.session.handling, s.session.statements, s.session.weight,
    s.session.outbox.length, s.closings)

/-- Whether less is left to do in `s` than in `t`. -/
def Lighter (s t : Server) : Prop :=
  WellFoundedRelation.rel s.effort t.effort

theorem wellFounded_lighter : WellFounded Lighter :=
  InvImage.wf effort WellFoundedRelation.wf

variable {b : Session.Backend} {input : Feed} {queued : List Outgoing} {asked : List Request}
  {s t : Server}

theorem lighter_iff : s.Lighter t ↔ s.readings < t.readings ∨ s.readings = t.readings ∧
    (s.feed.bytes.length < t.feed.bytes.length ∨ s.feed.bytes.length = t.feed.bytes.length ∧
      (s.session.Lighter t.session ∨
        (s.session.handling = t.session.handling ∧ s.session.statements = t.session.statements ∧
          s.session.weight = t.session.weight) ∧
        (s.session.outbox.length < t.session.outbox.length ∨
          s.session.outbox.length = t.session.outbox.length ∧ s.closings < t.closings))) := by
  have hrel : s.Lighter t ↔ Prod.Lex (· < ·) (Prod.Lex (· < ·) (Prod.Lex (· < ·) (Prod.Lex (· < ·)
      (Prod.Lex (· < ·) (Prod.Lex (· < ·) (· < ·)))))) s.effort t.effort := Iff.rfl
  rw [hrel]
  simp only [effort, Prod.lex_def, Session.State.lighter_iff]
  omega

theorem lighter_of_read? (h : s.read? = some t) : t.Lighter s := by
  obtain ⟨hnone, -, hto⟩ := readsTo_of_read? h
  have hreading : s.readings = 1 := by simp [readings, hnone]
  refine lighter_iff.2 ?_
  -- a message is shorter than the bytes it was read off; everything else ends the reading
  cases hto with
  | @message m feed _ hread =>
    have hvalue := Protocol.Frame.valueIn_bytes s.feed
    rw [hread] at hvalue
    have hshorter : feed.bytes.length < s.feed.bytes.length :=
      Protocol.Frame.valueIn_length hvalue
    have hsame : ({ s with feed }.deliver m).readings = s.readings ∧
        ({ s with feed }.deliver m).feed = feed := by
      cases hm : request? m with
      | none =>
        rw [deliver_of_none hm]
        exact ⟨rfl, rfl⟩
      | some request =>
        rw [deliver_of_some hm]
        exact ⟨rfl, rfl⟩
    rw [hsame.1, hsame.2]
    exact .inr ⟨rfl, .inl hshorter⟩
  | leave | finish | fail =>
    rw [hreading]
    exact .inl Nat.zero_lt_one

/-- Every move makes a server lighter. -/
theorem lighter_of_move? {m : Move} (h : s.move? b m = some t) : t.Lighter s := by
  cases m with
  | read => exact lighter_of_read? h
  | write =>
    simp only [move?, write?] at h
    split at h
    next m ms hopen houtbox =>
      obtain rfl := Option.some.inj h
      refine lighter_iff.2 (.inr ⟨rfl, .inr ⟨rfl, .inr ⟨⟨rfl, rfl, rfl⟩, .inl ?_⟩⟩⟩)
      rw [houtbox]
      exact Nat.lt_succ_self _
    · cases h
  | close =>
    simp only [move?, close?] at h
    split at h
    next hcan =>
      obtain rfl := Option.some.inj h
      have hopen : s.isClosed = false := by
        simp only [Bool.and_eq_true, Bool.not_eq_true'] at hcan
        exact hcan.2
      refine lighter_iff.2 (.inr ⟨rfl, .inr ⟨rfl, .inr ⟨⟨rfl, rfl, rfl⟩, .inr ⟨rfl, ?_⟩⟩⟩⟩)
      simp [closings, hopen]
    · cases h
  | work p =>
    obtain ⟨u, hp, rfl⟩ := Option.map_eq_some_iff.1 h
    exact lighter_iff.2 (.inr ⟨rfl, .inr ⟨rfl, .inl (Session.State.lighter_of_advance? hp)⟩⟩)

/-- No server moves forever. -/
theorem exists_no_move (b : Session.Backend) (f : Nat → Server) :
    ∃ n, ∀ m, (f n).move? b m ≠ some (f (n + 1)) := by
  -- on the first server of the course: after a move the rest of the course begins with a lighter
  -- one
  induction hs : f 0 using wellFounded_lighter.induction generalizing f with
  | _ s ih =>
    by_cases hmove : ∃ m, (f 0).move? b m = some (f 1)
    · obtain ⟨m, hm⟩ := hmove
      obtain ⟨n, hn⟩ := ih (f 1) (hs ▸ lighter_of_move? hm) (fun n => f (n + 1)) rfl
      exact ⟨n + 1, hn⟩
    · exact ⟨0, fun m hm => hmove ⟨m, hm⟩⟩

/-! ## Servers at rest -/

/-- Whether no move is left. -/
def IsResting (b : Session.Backend) (s : Server) : Prop :=
  ∀ m, s.move? b m = none

/-- The handler of a server that rests has nothing left to do. -/
theorem Attends.handler_of_resting (h : Attends b input queued asked s) (hrest : s.IsResting b) :
    s.session.handler = [] := by
  obtain ⟨es, ms, hpath⟩ := h.session
  refine hpath.handler_of_blocked fun p => ?_
  have hnone : s.session.advance? b p = none := by
    simpa [move?] using hrest (.work p)
  cases hp : (s.session.withOutbox ms).advance? b p with
  | none => rfl
  | some u =>
    obtain ⟨sent, -, hany⟩ := Session.State.advance?_withOutbox hp
    cases hnone.symm.trans (hany s.session.outbox)

/-- A server that rests while the stream is open has written everything. -/
theorem outbox_of_resting (hrest : s.IsResting b) (hopen : s.isClosed = false) :
    s.session.outbox = [] := by
  have hwrite : s.write? = none := hrest .write
  cases houtbox : s.session.outbox with
  | nil => rfl
  | cons m ms => simp [write?, hopen, houtbox] at hwrite

/-- A server that rests and reads no more has closed the stream. -/
theorem isClosed_of_resting (hrest : s.IsResting b) (hdone : s.outcome ≠ none)
    (hhandler : s.session.handler = []) : s.isClosed = true := by
  cases hopen : s.isClosed with
  | true => rfl
  | false =>
    have hclose : s.close? = none := hrest .close
    have hsome : s.outcome.isSome = true := Option.isSome_iff_ne_none.2 hdone
    simp [close?, hsome, hhandler, outbox_of_resting hrest hopen, hopen] at hclose

/-! ## What was asked and what was written -/

theorem ReadsRequests.readAll_eq {rest : Bytes} (h : ReadsRequests input asked rest) :
    (readAll readValue input).1.filterMap request? =
        asked ++ (valuesIn input.isOpen rest).1.filterMap request? ∧
      (readAll readValue input).2 = (valuesIn input.isOpen rest).2 := by
  obtain ⟨vs, hoff, rfl⟩ := h
  rw [Protocol.Frame.readAll_joined, hoff.valuesIn_eq, List.filterMap_append]
  exact ⟨rfl, rfl⟩

/-- Nothing more is read off bytes that cannot be read. -/
theorem Ended.valuesIn_eq {isOpen : Bool} {rest : Bytes} (h : Ended isOpen rest) :
    (valuesIn isOpen rest).1 = [] ∧ (valuesIn isOpen rest).2 ≠ .halted .starved := by
  rcases h with h | ⟨e, h⟩
  · rw [Protocol.Frame.valuesIn_of_none h]
    exact ⟨rfl, by simp⟩
  · rw [Protocol.Frame.valuesIn_of_error h]
    exact ⟨rfl, by simp⟩

theorem requestsIn_of_isOver {rest : Bytes} (h : ReadsRequests input asked rest)
    (hupToEnd : Server.upToEnd asked = asked) (hover : IsOver asked) :
    requestsIn input = asked := by
  rw [requestsIn, h.readAll_eq.1, upToEnd_append_of_isOver hover, hupToEnd]

theorem requestsIn_of_nil {rest : Bytes} (h : ReadsRequests input asked rest)
    (hupToEnd : Server.upToEnd asked = asked) (hnil : (valuesIn input.isOpen rest).1 = []) :
    requestsIn input = asked := by
  rw [requestsIn, h.readAll_eq.1, hnil, List.filterMap_nil, List.append_nil, hupToEnd]

/-- The requests that were read are the first of those that are to be answered. -/
theorem Attends.asked_prefix (h : Attends b input queued asked s) : asked <+: requestsIn input := by
  have hprefix {rest : Bytes} (hreads : ReadsRequests input asked rest) :
      asked <+: requestsIn input := by
    by_cases hover : IsOver asked
    · have hsame := requestsIn_of_isOver hreads h.upToEnd hover
      exact hsame.symm ▸ List.prefix_refl asked
    · rw [requestsIn, hreads.readAll_eq.1, upToEnd_append_of_not hover]
      exact List.prefix_append ..
  cases h.reading with
  | going _ hreads | done _ hreads => exact hprefix hreads

/-- A server that rests has read all requests that are to be answered, and it has closed the stream
unless there may be more to come. -/
theorem Attends.reading_of_resting (h : Attends b input queued asked s) (hrest : s.IsResting b) :
    requestsIn input = asked ∧ (s.isClosed = true ↔
      (readAll readValue input).2 ≠ .halted .starved ∨ IsOver asked) := by
  have hhandler := h.handler_of_resting hrest
  cases h.reading with
  | done hdone hreads hend =>
    have hclosed := isClosed_of_resting hrest hdone hhandler
    rcases hend with hover | hended
    · exact ⟨requestsIn_of_isOver hreads h.upToEnd hover, by simp [hclosed, hover]⟩
    · obtain ⟨hnil, hend⟩ := hended.valuesIn_eq
      rw [← hreads.readAll_eq.2] at hend
      exact ⟨requestsIn_of_nil hreads h.upToEnd hnil, by simp [hclosed, hend]⟩
  | going hnone hreads hheeds =>
    have hread : s.read? = none := hrest .read
    rcases cases_of_read?_none hread with hdone | hbusy | ⟨hconnected, hstarved⟩
    · exact absurd hnone hdone
    · exact absurd hhandler hbusy
    · have hvalue := Protocol.Frame.valueIn_bytes s.feed
      rw [hstarved, h.isOpen] at hvalue
      have hvalues := Protocol.Frame.valuesIn_of_error hvalue
      have hopen : s.isClosed = false := by simpa using h.not_closed hnone
      have hnot : ¬IsOver asked := by simp [← hheeds.iff_of_nil hhandler, hconnected]
      refine ⟨requestsIn_of_nil hreads h.upToEnd (by rw [hvalues]), ?_⟩
      simp [hreads.readAll_eq.2, hvalues, hopen, hnot]

/-- What was written are the first of the messages that were queued, with their numbers. -/
theorem Attends.written_prefix (h : Attends b input queued asked s) :
    s.written <+: numbered 0 queued := by
  rw [h.numbers]
  exact List.prefix_append ..

/-- The answers that were written are the first ones to the requests that were read. -/
theorem Attends.answers_prefix (h : Attends b input queued asked s) :
    s.written.filterMap answerOf? <+: asked.map answerTo := by
  have hqueued : (numbered 0 queued).filterMap answerOf? <+: asked.map answerTo := by
    have hasked : asked.map answerTo = (asked.map nameOf).map fun name =>
        (some (Json.ofInt name.1), some (.string name.2)) := by
      rw [List.map_map]
      rfl
    rw [filterMap_numbered, hasked, ← h.answers, List.map_append]
    exact List.prefix_append ..
  exact (h.written_prefix.filterMap answerOf?).trans hqueued

/-- Whatever a client sends and in whatever order a server moves: the messages that are written are
numbered 1, 2, 3 and so on; the responses among them answer the client's requests, each once and in
order; and all that was queued while the stream was open is written before it is closed. The moves
come to an end. When none is left, every request is answered, and the stream is closed unless there
may be more to come. -/
theorem serves_in_order (h : Serves b input queued s) :
    (∀ (i : Nat) (message : Json), s.written[i]? = some message →
      message.member? "seq" = some (Json.ofInt (i + 1))) ∧
    s.written.filterMap answerOf? <+: (requestsIn input).map answerTo ∧
    s.written <+: numbered 0 queued ∧ (s.isClosed = true → s.written = numbered 0 queued) ∧
    (∀ f : Nat → Server, f 0 = s → ∃ n, ∀ m, (f n).move? b m ≠ some (f (n + 1))) ∧
    (s.IsResting b →
      s.written.filterMap answerOf? = (requestsIn input).map answerTo ∧
      s.written = numbered 0 queued ∧
      (s.isClosed = true ↔
        (readAll readValue input).2 ≠ .halted .starved ∨ IsOver (requestsIn input))) := by
  obtain ⟨asked, h⟩ := h.attends
  have hclosed (hclosed : s.isClosed = true) : s.written = numbered 0 queued := by
    rw [h.numbers, if_pos hclosed, List.append_nil]
  refine ⟨fun i message hmessage => ?_, h.answers_prefix.trans (h.asked_prefix.map answerTo),
    h.written_prefix, hclosed, fun f _ => exists_no_move b f, fun hrest => ?_⟩
  · have hlt : i < s.written.length := (List.getElem?_eq_some_iff.1 hmessage).1
    obtain ⟨rest, hrest⟩ := h.written_prefix
    have hnumbered : (numbered 0 queued)[i]? = some message := by
      rw [← hrest, List.getElem?_append_left hlt, hmessage]
    rw [getElem?_numbered] at hnumbered
    obtain ⟨m, -, rfl⟩ := Option.map_eq_some_iff.1 hnumbered
    rw [member?_seq, Nat.zero_add]
  · obtain ⟨hasked, hclosedIff⟩ := h.reading_of_resting hrest
    have hwritten : s.written = numbered 0 queued := by
      cases hopen : s.isClosed with
      | true => exact hclosed hopen
      | false => simp [h.numbers, hopen, outbox_of_resting hrest hopen, numbered]
    refine ⟨?_, hwritten, hasked ▸ hclosedIff⟩
    have hanswers := h.answers
    rw [h.handler_of_resting hrest, Session.answersOf_nil, List.append_nil] at hanswers
    rw [hwritten, filterMap_numbered, hanswers, hasked, List.map_map]
    rfl

/-! ## A client that disconnects -/

/-- What happens next to a server. -/
inductive Turn where
  | move (m : Move)
  | input (i : Input)

/-- What a server makes of these turns, if all of them can be taken. -/
def walk? (b : Session.Backend) (input : Feed) (queued : List Outgoing) (s : Server) :
    List Turn → Option (Feed × List Outgoing × Server)
  | [] => some (input, queued, s)
  | .move m :: turns =>
    (s.move? b m).bind fun t => t.walk? b input (queued ++ s.queuedIn t) turns
  | .input i :: turns =>
    if i.follows input then (s.accept i).walk? b (i.after input) queued turns else none

theorem Serves.walk {turns : List Turn} {w : Feed × List Outgoing × Server}
    (h : Serves b input queued s) (hw : s.walk? b input queued turns = some w) :
    Serves b w.1 w.2.1 w.2.2 := by
  induction turns generalizing input queued s with
  | nil =>
    obtain rfl := Option.some.inj hw
    exact h
  | cons turn turns ih =>
    cases turn with
    | move m =>
      obtain ⟨t, hm, hw⟩ := Option.bind_eq_some_iff.1 hw
      exact ih (h.move m hm) hw
    | input i =>
      simp only [walk?] at hw
      split at hw
      next hi => exact ih (h.accept i hi) hw
      · cases hw

/-- Whether a server has closed the stream and has nothing left to do. -/
def isOver (s : Server) : Bool :=
  s.isClosed && s.outcome.isSome && s.session.handler.isEmpty && s.session.runs.isEmpty

theorem isResting_of_isOver (h : s.isOver = true) : s.IsResting b := by
  obtain ⟨⟨⟨hclosed, hdone⟩, hhandler⟩, hruns⟩ : ((s.isClosed = true ∧ s.outcome.isSome = true) ∧
      s.session.handler = []) ∧ s.session.runs = [] := by
    simpa [isOver] using h
  intro m
  cases m with
  | read => simp [move?, read?, hdone]
  | write => simp [move?, write?, hclosed]
  | close => simp [move?, close?, hclosed]
  | work p =>
    have hagenda : s.session.agenda p = [] := by
      cases p <;> simp [Session.State.agenda, hhandler, hruns]
    simp [move?, Session.State.advance?, hagenda]

/-- A message that asks for a command. -/
def asking (seq : Int) (command : String) : Json :=
  .object [("seq", Json.ofInt seq), ("type", .string "request"), ("command", .string command)]

/-- A request, a message that is none, and another request after the one to disconnect. -/
def farewell : List Json :=
  [asking 7 "threads", .null, asking 9 "disconnect", asking 10 "threads"]

/-- The requests are handled before the first answer is written. -/
def farewellMoves : List Move :=
  [.read, .work .handler, .work .handler, .read, .read] ++ List.replicate 6 (.work .handler) ++
    [.read, .write, .write, .write, .close]

/-- A backend without scripts. -/
def emptyBackend : Session.Backend where
  library := .table []
  crashText := crashText

/-- A client disconnects: its requests up to that one are answered, and it is told that nothing
runs. -/
theorem serves_in_order_farewell : ∃ (input : Feed) (queued : List Outgoing) (s : Server),
    Serves emptyBackend input queued s ∧ s.isClosed = true ∧ s.written.length = 3 ∧
      (requestsIn input).map nameOf = [(7, "threads"), (9, "disconnect")] ∧
      s.written.filterMap answerOf? = (requestsIn input).map answerTo := by
  have hwalk : (({} : Server).walk? emptyBackend ⟨[], true⟩ []
      (.input (.bytes (wire farewell)) :: farewellMoves.map .move)).any (fun w =>
        w.2.2.isOver && w.2.2.isClosed && w.2.2.written.length == 3 &&
          (requestsIn w.1).map nameOf == [(7, "threads"), (9, "disconnect")]) = true := by
    decide +kernel
  obtain ⟨⟨input, queued, s⟩, hw, hfacts⟩ := (Option.any_eq_true ..).1 hwalk
  simp only [Bool.and_eq_true, beq_iff_eq] at hfacts
  obtain ⟨⟨⟨hover, hclosed⟩, hlength⟩, hnames⟩ := hfacts
  have hserves := Serves.start.walk hw
  obtain ⟨-, -, -, -, -, hresting⟩ := serves_in_order hserves
  obtain ⟨hanswers, -, -⟩ := hresting (isResting_of_isOver hover)
  exact ⟨input, queued, s, hserves, hclosed, hlength, hnames, hanswers⟩

end DebugAdapter.Server
