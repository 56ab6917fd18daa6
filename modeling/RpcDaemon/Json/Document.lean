import RpcDaemon.Json.Basic
import RpcDaemon.Text.Hex
import RpcDaemon.Text.Numeral

/-!
# JSON documents

A document is JSON as it is written: the members of an object in their order and with
repetitions, numbers as digits, strings as pieces in which a surrogate escape may stand alone. Its
printer writes without blanks; the pretty printer indents by two spaces.
-/

namespace RpcDaemon

namespace Json

/-- A number as it is written. -/
structure NumberText where
  /-- Whether a minus sign stands before it. -/
  negative : Bool
  /-- The digits before the point. -/
  whole : List Digit
  /-- The digits after the point, if there is one. -/
  fraction : Option (List Digit)
  /-- Whether the exponent has a minus sign, and its digits, if there is an exponent. -/
  exponent : Option (Bool × List Digit)
deriving DecidableEq

/-- One piece of a string as it is written. -/
inductive Piece where
  /-- A character, written as itself or by an escape. -/
  | char (c : Char)
  /-- An escape for one half of a surrogate pair. -/
  | surrogate (unit : Nat)
deriving DecidableEq

/-- JSON as it is written. -/
inductive Document where
  | null
  | bool (b : Bool)
  | number (n : NumberText)
  | string (s : List Piece)
  | array (items : List Document)
  | object (members : List (List Piece × Document))

/-- Digits as characters. -/
def digitChars (ds : List Digit) : List Char :=
  ds.map Digit.toChar

/-- The text of a number. -/
def NumberText.chars (n : NumberText) : List Char :=
  (if n.negative then ['-'] else []) ++ digitChars n.whole
    ++ (match n.fraction with
        | some ds => '.' :: digitChars ds
        | none => [])
    ++ (match n.exponent with
        | some (neg, ds) => 'e' :: (if neg then ['-'] else []) ++ digitChars ds
        | none => [])

/-- The escape `\u` with the four digits of `n`. -/
def unicodeEscape (n : Nat) : List Char :=
  ['\\', 'u', Hex.digit (n / 4096 % 16), Hex.digit (n / 256 % 16), Hex.digit (n / 16 % 16),
    Hex.digit (n % 16)]

/-- A character within quotes: the quote, the backslash and the controls below U+0020 are
escaped, nothing else. -/
def quotedChar (c : Char) : List Char :=
  if c = '"' then ['\\', '"']
  else if c = '\\' then ['\\', '\\']
  else if 0x20 ≤ c.toNat then [c]
  else if c.toNat = 8 then ['\\', 'b']
  else if c.toNat = 9 then ['\\', 't']
  else if c.toNat = 10 then ['\\', 'n']
  else if c.toNat = 12 then ['\\', 'f']
  else if c.toNat = 13 then ['\\', 'r']
  else unicodeEscape c.toNat

/-- The text of a piece. -/
def Piece.chars : Piece → List Char
  | .char c => quotedChar c
  | .surrogate u => unicodeEscape u

/-- The text of a string, in quotes. -/
def quoted (s : List Piece) : List Char :=
  '"' :: s.flatMap Piece.chars ++ ['"']

namespace Document

mutual

/-- The text of a document, without blanks. -/
def chars : Document → List Char
  | .null => "null".toList
  | .bool true => "true".toList
  | .bool false => "false".toList
  | .number n => n.chars
  | .string s => quoted s
  | .array items => '[' :: itemsChars items ++ [']']
  | .object members => '{' :: membersChars members ++ ['}']

/-- The items of an array, with commas between them. -/
def itemsChars : List Document → List Char
  | [] => []
  | [d] => chars d
  | d :: rest => chars d ++ ',' :: itemsChars rest

/-- The members of an object, with commas between them. -/
def membersChars : List (List Piece × Document) → List Char
  | [] => []
  | [(k, d)] => quoted k ++ ':' :: chars d
  | (k, d) :: rest => quoted k ++ ':' :: chars d ++ ',' :: membersChars rest

end

/-- The text of a document as a string. -/
def text (d : Document) : String :=
  String.ofList d.chars

/-- A new line at the given level of indentation. -/
def newline (level : Nat) : List Char :=
  '\n' :: List.replicate (2 * level) ' '

mutual

/-- The text of a document with every item and member on a line of its own. -/
def prettyChars (level : Nat) : Document → List Char
  | .array [] => ['[', ']']
  | .array items => '[' :: prettyItems level items ++ newline level ++ [']']
  | .object [] => ['{', '}']
  | .object members => '{' :: prettyMembers level members ++ newline level ++ ['}']
  | d => chars d

/-- The items of an array, each on its line. -/
def prettyItems (level : Nat) : List Document → List Char
  | [] => []
  | [d] => newline (level + 1) ++ prettyChars (level + 1) d
  | d :: rest =>
      newline (level + 1) ++ prettyChars (level + 1) d ++ ',' :: prettyItems level rest

/-- The members of an object, each on its line. -/
def prettyMembers (level : Nat) : List (List Piece × Document) → List Char
  | [] => []
  | [(k, d)] => newline (level + 1) ++ quoted k ++ ':' :: ' ' :: prettyChars (level + 1) d
  | (k, d) :: rest =>
      newline (level + 1) ++ quoted k ++ ':' :: ' ' :: prettyChars (level + 1) d
        ++ ',' :: prettyMembers level rest

end

/-- The indented text of a document. -/
def pretty (d : Document) : String :=
  String.ofList (prettyChars 0 d)

/-- The string `s` as it is written. -/
def pieces (s : String) : List Piece :=
  s.toList.map Piece.char

/-- A string as a document. -/
def ofString (s : String) : Document :=
  .string (pieces s)

/-- A number without point and exponent. -/
def ofInt (n : Int) : Document :=
  .number ⟨decide (n < 0), Numeral.digits n.natAbs, none, none⟩

/-- An object from names and documents, in this order. -/
def ofFields (fields : List (String × Document)) : Document :=
  .object (fields.map fun f => (pieces f.1, f.2))

end Document

end Json

end RpcDaemon
