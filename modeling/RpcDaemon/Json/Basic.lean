import RpcDaemon.Decimal.Binary64

/-!
# JSON values

A JSON value as a program holds it: integers of at most 64 bits kept apart from floating point
numbers, and objects as lists of members sorted by name, which `Members.insert` keeps sorted.
-/

namespace RpcDaemon

/-- An integer that fits 64 bits, signed or unsigned. -/
structure WideInt where
  /-- The integer. -/
  val : Int
  /-- It is not below the least signed integer. -/
  lower : -9223372036854775808 ≤ val
  /-- It is not above the greatest unsigned integer. -/
  upper : val < 18446744073709551616
deriving DecidableEq

namespace WideInt

/-- `n`, if it fits. -/
def ofInt? (n : Int) : Option WideInt :=
  if h : -9223372036854775808 ≤ n ∧ n < 18446744073709551616 then some ⟨n, h.1, h.2⟩ else none

/-- Every unsigned integer of 64 bits fits. -/
def ofUInt64 (n : UInt64) : WideInt :=
  ⟨n.toNat, by omega, by have := n.toNat_lt; omega⟩

/-- Every unsigned integer of 32 bits fits. -/
def ofUInt32 (n : UInt32) : WideInt :=
  ⟨n.toNat, by omega, by have := n.toNat_lt; omega⟩

/-- Every signed integer of 64 bits fits. -/
def ofInt64 (n : Int64) : WideInt :=
  ⟨n.toInt, by have := n.le_toInt; omega, by have := n.toInt_lt; omega⟩

/-- Every signed integer of 32 bits fits. -/
def ofInt32 (n : Int32) : WideInt :=
  ⟨n.toInt, by have := n.le_toInt; omega, by have := n.toInt_lt; omega⟩

end WideInt

/-- A JSON number. -/
inductive Number where
  /-- A number written without point and exponent that fits. -/
  | int (n : WideInt)
  /-- Any other number. -/
  | float (x : Binary64)
deriving DecidableEq

/-- A JSON value. -/
inductive Json where
  | null
  | bool (b : Bool)
  | number (n : Number)
  | string (s : String)
  | array (items : List Json)
  | object (members : List (String × Json))

namespace Members

/-- The value of the member called `name`. -/
def get? {α : Type} (name : String) : List (String × α) → Option α
  | [] => none
  | (k, v) :: rest => if k = name then some v else get? name rest

/-- Puts a member at its place in a sorted list, over one of the same name. -/
def insert {α : Type} (name : String) (value : α) : List (String × α) → List (String × α)
  | [] => [(name, value)]
  | (k, v) :: rest =>
      if k = name then (name, value) :: rest
      else if name < k then (name, value) :: (k, v) :: rest
      else (k, v) :: insert name value rest

/-- The sorted list of members that arises when the given ones are put in one by one, so that the
last of several members of one name stays. -/
def ofList {α : Type} (ms : List (String × α)) : List (String × α) :=
  ms.foldl (fun acc m => insert m.1 m.2 acc) []

/-- The names stand in strictly rising order. -/
def Sorted {α : Type} (ms : List (String × α)) : Prop :=
  ms.Pairwise fun a b => a.1 < b.1

instance {α : Type} (ms : List (String × α)) : Decidable (Sorted ms) :=
  inferInstanceAs (Decidable (ms.Pairwise fun a b => a.1 < b.1))

end Members

namespace Json

/-- The integer `n`. -/
def int (n : WideInt) : Json := .number (.int n)

/-- The number `x`; a value that is no rational number has no JSON form but `null`. -/
def ofBinary64 (x : Binary64) : Json :=
  if x.isFinite then .number (.float x) else .null

/-- An object with the given members. -/
def ofMembers (ms : List (String × Json)) : Json :=
  .object (Members.ofList ms)

/-- The member of an object called `name`. -/
def get? (name : String) : Json → Option Json
  | .object ms => Members.get? name ms
  | _ => none

/-- Whether a value is an object. -/
def isObject : Json → Bool
  | .object _ => true
  | _ => false

mutual

/-- How many arrays and objects stand around the deepest part of a value. -/
def depth : Json → Nat
  | .array items => depthItems items + 1
  | .object members => depthMembers members + 1
  | _ => 0

/-- The greatest depth of an item. -/
def depthItems : List Json → Nat
  | [] => 0
  | v :: rest => max (depth v) (depthItems rest)

/-- The greatest depth of a member. -/
def depthMembers : List (String × Json) → Nat
  | [] => 0
  | (_, v) :: rest => max (depth v) (depthMembers rest)

end

mutual

/-- No part of the value is a floating point number. -/
def FloatFree : Json → Prop
  | .number (.float _) => False
  | .array items => FloatFreeItems items
  | .object members => FloatFreeMembers members
  | _ => True

/-- No item has a floating point part. -/
def FloatFreeItems : List Json → Prop
  | [] => True
  | v :: rest => FloatFree v ∧ FloatFreeItems rest

/-- No member has a floating point part. -/
def FloatFreeMembers : List (String × Json) → Prop
  | [] => True
  | (_, v) :: rest => FloatFree v ∧ FloatFreeMembers rest

end

mutual

/-- The members of every object within the value stand in strictly rising order of their names,
as in every value that was read or built. -/
def Ordered : Json → Prop
  | .array items => OrderedItems items
  | .object members => Members.Sorted members ∧ OrderedMembers members
  | _ => True

/-- Every item is ordered. -/
def OrderedItems : List Json → Prop
  | [] => True
  | v :: rest => Ordered v ∧ OrderedItems rest

/-- Every member is ordered. -/
def OrderedMembers : List (String × Json) → Prop
  | [] => True
  | (_, v) :: rest => Ordered v ∧ OrderedMembers rest

end

end Json

end RpcDaemon
