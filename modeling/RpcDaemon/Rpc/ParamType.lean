import RpcDaemon.Rpc.Error

/-!
# Types of parameters

The kinds of JSON value by the names that type errors use, and the check of positional parameters
against expected kinds.
-/

namespace RpcDaemon

namespace Rpc

/-- The kind of a JSON value. -/
inductive ParamType where
  | null
  | bool
  | object
  | array
  | string
  | number
deriving DecidableEq

namespace ParamType

/-- The kind of a value. -/
def of : Json → ParamType
  | .null => .null
  | .bool _ => .bool
  | .number _ => .number
  | .string _ => .string
  | .array _ => .array
  | .object _ => .object

/-- The name of a kind. -/
def name : ParamType → String
  | null => "null"
  | bool => "bool"
  | object => "object"
  | array => "array"
  | string => "string"
  | number => "number"

/-- The kind with the given name. -/
def ofName? (s : String) : Option ParamType :=
  [null, bool, object, array, string, number].find? fun t => t.name == s

end ParamType

/-- Checks each parameter that is present against the kind expected at its place; with `allowNull`
a `null` passes everywhere. -/
def checkTypes (allowNull : Bool) : List Json → List ParamType → Except Error Unit
  | v :: params, want :: expected =>
      let actual := ParamType.of v
      if actual = want ∨ (allowNull = true ∧ actual = .null) then checkTypes allowNull params expected
      else .error (Error.typeError ("Expected type " ++ want.name ++ ", got " ++ actual.name))
  | _, _ => .ok ()

end Rpc

end RpcDaemon
