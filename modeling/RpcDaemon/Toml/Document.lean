import RpcDaemon.Text.Numeral
import RpcDaemon.Toml.Quoted

/-!
# Writing TOML

The documents that are written here have scalars and lists of strings in the root and in one level
of tables. Lists of two or more strings take a line for each of them.
-/

namespace RpcDaemon

namespace Toml

/-- A value that is written. -/
inductive Written where
  /-- A string. -/
  | string (s : String)
  /-- An integer of 64 bits. -/
  | integer (n : Int64)
  /-- A truth value. -/
  | boolean (b : Bool)
  /-- A list of strings. -/
  | strings (items : List String)
deriving DecidableEq

namespace Written

/-- The value itself. -/
def value : Written → Value
  | string s => .string s
  | integer n => .integer n
  | boolean b => .boolean b
  | strings items => .array (items.map Value.string)

/-- The lines of a list, each with its indentation and its comma. -/
def itemLines (items : List String) : List Char :=
  items.flatMap fun s => "    ".toList ++ Quoted.chars s ++ [',', '\n']

/-- The text of a value. -/
def chars : Written → List Char
  | string s => Quoted.chars s
  | integer n => Numeral.ofInt n.toInt
  | boolean true => "true".toList
  | boolean false => "false".toList
  | strings [] => ['[', ']']
  | strings [s] => '[' :: Quoted.chars s ++ [']']
  | strings items => '[' :: '\n' :: itemLines items ++ [']']

end Written

/-- Keys with their values; the keys need no quotes. -/
abbrev Fields := List (String × Written)

/-- The lines of some fields. -/
def fieldChars (fields : Fields) : List Char :=
  fields.flatMap fun f => f.1.toList ++ " = ".toList ++ f.2.chars ++ ['\n']

/-- A document that is written. -/
structure Document where
  /-- The fields of the root. -/
  root : Fields
  /-- The tables with their fields. -/
  tables : List (String × Fields)
deriving DecidableEq

namespace Document

/-- A table with its header. -/
def tableChars (t : String × Fields) : List Char :=
  '[' :: t.1.toList ++ [']', '\n'] ++ fieldChars t.2

/-- Tables, each after an empty line. -/
def tablesChars (tables : List (String × Fields)) : List Char :=
  tables.flatMap fun t => '\n' :: tableChars t

/-- The text of a document. No empty line stands before the first line. -/
def chars (d : Document) : List Char :=
  match d.root, d.tables with
  | [], t :: tables => tableChars t ++ tablesChars tables
  | root, tables => fieldChars root ++ tablesChars tables

/-- The text of a document as a string. -/
def text (d : Document) : String :=
  String.ofList d.chars

end Document

end Toml

end RpcDaemon
