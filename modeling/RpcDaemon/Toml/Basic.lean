import RpcDaemon.Decimal.Binary64

/-!
# TOML values

A value of a TOML document. Tables remember how they came about, because that decides what may
still be added to them; an array of tables is kept apart from an array that is written as a value.
-/

namespace RpcDaemon

namespace Toml

/-- How a table came about. -/
inductive Origin where
  /-- By a header of its own, or as the root. -/
  | header
  /-- By the header of a table within it. -/
  | implied
  /-- By a dotted key. -/
  | dotted
  /-- Between braces. -/
  | inlined
deriving DecidableEq

/-- A value. -/
inductive Value where
  /-- A string. -/
  | string (s : String)
  /-- An integer of 64 bits. -/
  | integer (n : Int64)
  /-- A floating point number. -/
  | float (x : Binary64)
  /-- A truth value. -/
  | boolean (b : Bool)
  /-- A date, a time or both, as written. -/
  | moment (text : String)
  /-- An array. -/
  | array (items : List Value)
  /-- A table. -/
  | table (origin : Origin) (entries : List (String × Value))
  /-- The tables that headers in double brackets give, in order. -/
  | tables (elements : List (List (String × Value)))

/-- The entries of a table, in order and without repetition. -/
abbrev Entries := List (String × Value)

/-- The characters that may stand between the tokens of a line. -/
def isGap (c : Char) : Bool :=
  c == ' ' || c == '\t'

/-- A text without the blanks at its front. -/
def skipGap (cs : List Char) : List Char :=
  cs.dropWhile isGap

/-- Whether a character may stand in a comment: no control character but the tab. -/
def isPlain (c : Char) : Bool :=
  c == '\t' || (decide (0x20 ≤ c.toNat) && c.toNat != 0x7F)

/-- What follows the line end at the front of a text, if one stands there. -/
def newline? : List Char → Option (List Char)
  | '\n' :: rest => some rest
  | '\r' :: '\n' :: rest => some rest
  | _ => none

end Toml

end RpcDaemon
