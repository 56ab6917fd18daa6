import RpcDaemon.Rpc.Error

/-!
# Requests

A JSON-RPC call, and the checks that turn a JSON value into one. The checks come in a fixed order,
and a request that fails one still gives back its id.
-/

namespace RpcDaemon

namespace Rpc

/-- A well-formed call. -/
structure Request where
  /-- Given back with the reply; `null` if the call has none. -/
  id : Json
  /-- The name of the command. -/
  method : String
  /-- The parameters in order. -/
  params : List Json

/-- Why a value is no request. -/
inductive RequestFault where
  /-- The value is not an object. -/
  | notAnObject
  /-- There is no method, or it is `null`. -/
  | missingMethod
  /-- The method is not a string. -/
  | methodNotString
  /-- The parameters are not an array. -/
  | paramsNotArray
deriving DecidableEq

/-- The wording of a fault. -/
def RequestFault.message : RequestFault → String
  | notAnObject => "Invalid Request object"
  | missingMethod => "Missing method"
  | methodNotString => "Method must be a string"
  | paramsNotArray => "Params must be an array"

/-- The error that reports a fault. -/
def RequestFault.error (f : RequestFault) : Error :=
  Error.invalidRequest f.message

namespace Request

/-- The id of a value, `null` if it has none. -/
def idOf (v : Json) : Json :=
  (v.get? "id").getD .null

/-- The method of an object. -/
def methodOf (v : Json) : Except RequestFault String :=
  match v.get? "method" with
  | none => .error .missingMethod
  | some .null => .error .missingMethod
  | some (.string m) => .ok m
  | some _ => .error .methodNotString

/-- The parameters of an object. -/
def paramsOf (v : Json) : Except RequestFault (List Json) :=
  match v.get? "params" with
  | none => .ok []
  | some .null => .ok []
  | some (.array items) => .ok items
  | some _ => .error .paramsNotArray

/-- The call that a value makes, or the first fault of it. -/
def ofJson (v : Json) : Except RequestFault Request :=
  if v.isObject then
    match methodOf v with
    | .error f => .error f
    | .ok method =>
        match paramsOf v with
        | .error f => .error f
        | .ok params => .ok ⟨idOf v, method, params⟩
  else .error .notAnObject

end Request

end Rpc

end RpcDaemon
