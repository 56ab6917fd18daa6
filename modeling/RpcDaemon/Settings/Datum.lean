import RpcDaemon.Json.Reader
import RpcDaemon.Json.Record
import RpcDaemon.Toml.Reader

/-!
# Settings as data

What settings files of both formats hold, in one form: the values from which fields are read.
`Datum.ofJson` and `Datum.ofToml` bring the two formats into this form, and the readers of single
fields say which values fit a field.
-/

namespace RpcDaemon

/-- A value in a settings file. -/
inductive Datum where
  /-- Nothing. -/
  | null
  /-- A truth value. -/
  | bool (b : Bool)
  /-- An integer. -/
  | int (n : Int)
  /-- A text, unless it is unreadable. -/
  | string (s : Option String)
  /-- A list. -/
  | seq (items : List Datum)
  /-- Names, unless they are unreadable, with values. -/
  | map (members : List (Option String × Datum))
  /-- A value that fits no field. -/
  | other

namespace Datum

mutual

/-- A JSON document as data. -/
def ofJson : Json.Document → Datum
  | .null => .null
  | .bool b => .bool b
  | .number n =>
      match n.value? with
      | some (.int m) => .int m.val
      | _ => .other
  | .string s => .string (Json.Piece.string? s)
  | .array items => .seq (ofJsonItems items)
  | .object members => .map (ofJsonMembers members)

/-- The items of an array as data. -/
def ofJsonItems : List Json.Document → List Datum
  | [] => []
  | d :: rest => ofJson d :: ofJsonItems rest

/-- The members of an object as data. -/
def ofJsonMembers : List (List Json.Piece × Json.Document) → List (Option String × Datum)
  | [] => []
  | (k, d) :: rest => (Json.Piece.string? k, ofJson d) :: ofJsonMembers rest

end

mutual

/-- A TOML value as data. A date is a table without known names. -/
def ofToml : Toml.Value → Datum
  | .string s => .string (some s)
  | .integer n => .int n.toInt
  | .float _ => .other
  | .boolean b => .bool b
  | .moment _ => .map []
  | .array items => .seq (ofTomlItems items)
  | .table _ entries => .map (ofTomlEntries entries)
  | .tables elements => .seq (ofTomlElements elements)

/-- The items of an array as data. -/
def ofTomlItems : List Toml.Value → List Datum
  | [] => []
  | v :: rest => ofToml v :: ofTomlItems rest

/-- The entries of a table as data. -/
def ofTomlEntries : List (String × Toml.Value) → List (Option String × Datum)
  | [] => []
  | (k, v) :: rest => (some k, ofToml v) :: ofTomlEntries rest

/-- The tables of an array as data. -/
def ofTomlElements : List (List (String × Toml.Value)) → List Datum
  | [] => []
  | e :: rest => .map (ofTomlEntries e) :: ofTomlElements rest

end

/-! ## Fields -/

/-- A truth value. -/
def bool? : Datum → Option Bool
  | bool b => some b
  | _ => none

/-- A text. -/
def string? : Datum → Option String
  | string s => s
  | _ => none

/-- A port. -/
def port? : Datum → Option UInt16
  | int n => if 0 ≤ n ∧ n < 65536 then some (UInt16.ofNat n.toNat) else none
  | _ => none

/-- A number of 64 bits. -/
def count? : Datum → Option UInt64
  | int n => if 0 ≤ n ∧ n < 18446744073709551616 then some (UInt64.ofNat n.toNat) else none
  | _ => none

/-- A list of texts. -/
def strings? : Datum → Option (List String)
  | seq items => items.mapM string?
  | _ => none

/-- A field that may be nothing. -/
def optional? {α : Type} (read : Datum → Option α) : Datum → Option (Option α)
  | null => some none
  | d => (read d).map some

/-- A field that may be missing and then has its default. -/
def orDefault {α : Type} (default : α) (read : Datum → Option α) : Option Datum → Option α
  | none => some default
  | some d => read d

/-- The fields called `names`. With `strict`, a list may not be longer than they are. -/
def record? (strict : Bool) (names : List String) : Datum → Option (List (Option Datum))
  | map members => Record.ofMembers? names members (List.replicate names.length none)
  | seq items => Record.ofItems? strict names items
  | _ => none

end Datum

end RpcDaemon
