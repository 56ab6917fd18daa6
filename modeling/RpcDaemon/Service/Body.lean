import RpcDaemon.Command.Dispatch
import RpcDaemon.Http.Reply
import RpcDaemon.Json.Reader

/-!
# Answering a body

The body of a request is one call or a batch of calls. What a call comes to stands in the reply with
status 200; only a body that is no call at all gives another status and ends the connection.
-/

namespace RpcDaemon

/-- What is sent back for a body. -/
structure BodyReply where
  /-- The HTTP status. -/
  status : Nat
  /-- The body of the reply. -/
  body : String
  /-- Whether the connection has to be closed. -/
  close : Bool

namespace BodyReply

/-- A reply that leaves the connection open. -/
def answered (body : String) : BodyReply :=
  ⟨200, body, false⟩

/-- A reply that reports an error and ends the connection. -/
def refused (e : Rpc.Error) (id : Json) : BodyReply :=
  ⟨e.code.httpStatus, (Rpc.Response.failure e id).body, true⟩

end BodyReply

namespace Table

variable {σ : Type}

/-- The line that answers a batch: the replies as one array. -/
def batchBody (rs : List Rpc.Response) : String :=
  String.ofList ((Json.array (rs.map Rpc.Response.toJson)).document.chars ++ ['\n'])

/-- Answers a JSON value that is the body of a request. -/
def answerValue (t : Table σ) (v : Json) (w : World σ) : BodyReply × World σ :=
  match v with
  | .object _ =>
      match Rpc.Request.ofJson v with
      | .ok r =>
          let (res, w) := t.executeRequest r w
          (.answered res.body, w)
      | .error f => (.refused f.error (Rpc.Request.idOf v), w)
  | .array items =>
      let (rs, w) := t.executeBatch items w
      (.answered (batchBody rs), w)
  | _ => (.refused (Rpc.Error.parseError "Top-level object parse error") .null, w)

/-- Answers the body of a request. -/
def answerBody (t : Table σ) (body : List UInt8) (w : World σ) : BodyReply × World σ :=
  match Json.readBytes? body with
  | some v => t.answerValue v w
  | none => (.refused (Rpc.Error.parseError "Parse error") .null, w)

end Table

end RpcDaemon
