import RpcDaemon.Json.Reader
import RpcDaemon.Json.Record
import RpcDaemon.Rpc.Error

/-!
# Responses

The envelope of a reply has the members `result`, `error` and `id`, in this order. Its text is one
line. `Response.read?` reads such a line back, with members in any order.
-/

namespace RpcDaemon

namespace Rpc

/-- The `error` member of a reply. -/
structure ErrorObject where
  /-- The number of the error. -/
  code : Int32
  /-- The wording. -/
  message : String
  /-- Further data. -/
  data : Option Json

/-- A reply to one call. -/
structure Response where
  /-- The result, `null` after a failure. -/
  result : Json
  /-- The failure, if there was one. -/
  error : Option ErrorObject
  /-- The id of the call. -/
  id : Json

/-- What a failure says in a reply. -/
def ErrorObject.ofError (e : Error) : ErrorObject :=
  ⟨e.code.number, e.message, e.data⟩

/-- The error member as it is written; data stands there only if there is some. -/
def ErrorObject.document (e : ErrorObject) : Json.Document :=
  let fields :=
    [("code", Json.Document.ofInt e.code.toInt), ("message", Json.Document.ofString e.message)]
  Json.Document.ofFields
    (match e.data with
      | some data => fields ++ [("data", data.document)]
      | none => fields)

/-- The error member as a value. -/
def ErrorObject.toJson (e : ErrorObject) : Json :=
  let members := [("code", Json.int (WideInt.ofInt32 e.code)), ("message", .string e.message)]
  Json.ofMembers
    (match e.data with
      | some data => members ++ [("data", data)]
      | none => members)

namespace Response

/-- The reply to a call that gave a value. -/
def success (result id : Json) : Response :=
  ⟨result, none, id⟩

/-- The reply to a call that failed. -/
def failure (e : Error) (id : Json) : Response :=
  ⟨.null, some (ErrorObject.ofError e), id⟩

/-- The reply to a call by its outcome. -/
def ofResult (r : Except Error Json) (id : Json) : Response :=
  match r with
  | .ok v => success v id
  | .error e => failure e id

/-- The reply as it is written. -/
def document (r : Response) : Json.Document :=
  Json.Document.ofFields
    [("result", r.result.document),
      ("error",
        match r.error with
        | some e => e.document
        | none => .null),
      ("id", r.id.document)]

/-- The reply as a value. -/
def toJson (r : Response) : Json :=
  Json.ofMembers
    [("result", r.result),
      ("error",
        match r.error with
        | some e => e.toJson
        | none => .null),
      ("id", r.id)]

/-- The characters of the reply: its document and a line feed. -/
def bodyChars (r : Response) : List Char :=
  r.document.chars ++ ['\n']

/-- The line that answers a call. -/
def body (r : Response) : String :=
  String.ofList r.bodyChars

end Response

/-! ## Reading replies -/

/-- A number that fits 32 bits, signed. -/
def int32? : Json.Document → Option Int32
  | .number n =>
      match n.value? with
      | some (.int m) =>
          if -2147483648 ≤ m.val ∧ m.val < 2147483648 then some (Int32.ofInt m.val) else none
      | _ => none
  | _ => none

/-- A string. -/
def string? : Json.Document → Option String
  | .string s => Json.Piece.string? s
  | _ => none

/-- The members of an error object. -/
def ErrorObject.fieldNames : List String := ["code", "message", "data"]

/-- The error object that a document denotes; code and message are required, `null` data is no
data. -/
def ErrorObject.read? (d : Json.Document) : Option ErrorObject :=
  match Json.Document.record? true fieldNames d with
  | some [some code, some message, data] => do
      let code ← int32? code
      let message ← string? message
      match data with
      | none => pure ⟨code, message, none⟩
      | some .null => pure ⟨code, message, none⟩
      | some d => (d.value? (Json.depthLimit - 2)).map fun v => ⟨code, message, some v⟩
  | _ => none

/-- The members of a reply. -/
def Response.fieldNames : List String := ["result", "error", "id"]

/-- A value within a reply, `null` if it is left out. -/
def Response.part? : Option Json.Document → Option Json
  | none => some .null
  | some d => d.value? (Json.depthLimit - 1)

/-- The error of a reply; `null` is none. -/
def Response.errorPart? : Json.Document → Option (Option ErrorObject)
  | .null => some none
  | d => (ErrorObject.read? d).map some

/-- The reply that a document denotes. An array gives the members in order and has to reach the
error; an object may leave out every member. -/
def Response.ofDocument? (d : Json.Document) : Option Response :=
  match Json.Document.record? true Response.fieldNames d with
  | some [result, error, id] => do
      let result ← Response.part? result
      let error ←
        match error with
        | none => if d.isArray then none else some none
        | some e => Response.errorPart? e
      let id ← Response.part? id
      pure ⟨result, error, id⟩
  | _ => none

/-- The reply that a text writes. -/
def Response.read? (cs : List Char) : Option Response :=
  (Json.Document.read? cs.length cs).bind Response.ofDocument?

end Rpc

end RpcDaemon
