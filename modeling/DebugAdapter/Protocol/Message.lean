import DebugAdapter.Json.Decode
/-!
# Messages

The client sends a `Request`; it is sent responses and events, each as an `Outgoing` message that
gets its sequence number when it is written.
-/

namespace DebugAdapter.Protocol

/-- What a client asks for. -/
structure Request where
  seq : Int
  type : String
  command : String
  arguments : Json
  deriving Inhabited

/-- Takes a request. -/
def Request.shape : Json.RecordShape Request where
  name := "Request"
  blank := ⟨0, "", "", .null⟩
  fields := [
    .of "seq" true .signed fun a r => { r with seq := a },
    .of "type" true .text fun a r => { r with type := a },
    .of "command" true .text fun a r => { r with command := a },
    .of "arguments" false .any fun a r => { r with arguments := a }]

/-- Whether a message is meant to be a request. -/
def isRequest (message : Json) : Bool :=
  (message.member? "type").bind Json.text? == some "request"

/-- An answer to a request. -/
structure Response where
  requestSeq : Int
  success : Bool
  command : String
  message : Option String
  body : Option Json

/-- A message that no request asked for. -/
structure Event where
  name : String
  body : Option Json

/-- A message for the client. -/
inductive Outgoing where
  | response (r : Response)
  | event (e : Event)

/-- The response to a request. -/
def Response.to (request : Request) (success : Bool) (message : Option String)
    (body : Option Json) : Response :=
  ⟨request.seq, success, request.command, message, body⟩

/-- The response to a request that was handled. -/
def Response.ok (request : Request) (body : Option Json) : Outgoing :=
  .response (.to request true none body)

/-- The response to a request that failed. -/
def Response.failed (request : Request) (message : String) : Outgoing :=
  .response (.to request false (some message) none)

/-- A member that may be missing. -/
def memberOf (name : String) (v : Option Json) : List (String × Json) :=
  v.toList.map fun v => (name, v)

/-- A message with its sequence number, as a value. -/
def Outgoing.toJson (seq : Int) : Outgoing → Json
  | response r =>
    Json.mk ([("seq", Json.ofInt seq), ("type", .string "response"),
      ("request_seq", Json.ofInt r.requestSeq), ("success", .bool r.success),
      ("command", .string r.command)] ++ memberOf "message" (r.message.map .string) ++
      memberOf "body" r.body)
  | event e =>
    Json.mk ([("seq", Json.ofInt seq), ("type", .string "event"), ("event", .string e.name)] ++
      memberOf "body" e.body)

end DebugAdapter.Protocol
