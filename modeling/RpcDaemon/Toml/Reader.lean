import RpcDaemon.Toml.Quoted
import RpcDaemon.Toml.Scalar
import RpcDaemon.Toml.Tree

/-!
# Reading TOML

`Toml.read?` reads a whole text as the entries of its root table. The text is cut into statements
first, and the statements are put together afterwards. Every scanner returns what it read and the
text that is left.
-/

namespace RpcDaemon

namespace Toml

/-! ## Blanks and comments -/

/-- What follows a comment, if one stands at the front of a text. -/
def skipComment (cs : List Char) : List Char :=
  match cs with
  | '#' :: rest => rest.dropWhile isPlain
  | _ => cs

/-- What follows the end of a line: blanks, a comment, and a line end or the end of the text. -/
def lineEnd? (cs : List Char) : Option (List Char) :=
  match skipComment (skipGap cs) with
  | [] => some []
  | rest => newline? rest

/-- A text without the blanks, line ends and comments at its front; `fuel` is no less than its
length. -/
def skipLines : Nat → List Char → List Char
  | 0, cs => cs
  | fuel + 1, cs =>
      match skipGap cs with
      | '#' :: rest => skipLines fuel (rest.dropWhile isPlain)
      | rest =>
          match newline? rest with
          | some rest => skipLines fuel rest
          | none => rest

/-! ## Keys -/

/-- Whether a character may stand in a key without quotes. -/
def isKeyChar (c : Char) : Bool :=
  c.isAlphanum || c == '-' || c == '_'

/-- A key: bare, or a string of one line. -/
def scanKey? (cs : List Char) : Option (String × List Char) :=
  match cs with
  | '"' :: rest => (scanBasic? [] rest).map fun r => (String.ofList r.1, r.2)
  | '\x27' :: rest => (scanLiteral? [] rest).map fun r => (String.ofList r.1, r.2)
  | _ =>
      match cs.takeWhile isKeyChar with
      | [] => none
      | key => some (String.ofList key, cs.dropWhile isKeyChar)

/-- The greatest number of keys in a dotted key, and of collections around a value. -/
def depthLimit : Nat := 79

/-- Keys with points between them: those before the last one, and the last one. `room` is how many
keys may still follow. -/
def scanPath? : Nat → List Char → Option (List String × String × List Char)
  | 0, _ => none
  | room + 1, cs =>
      match scanKey? (skipGap cs) with
      | none => none
      | some (key, rest) =>
          match skipGap rest with
          | '.' :: rest =>
              match scanPath? room rest with
              | some (path, last, rest) => some (key :: path, last, rest)
              | none => none
          | rest => some ([], key, rest)

/-- A dotted key and the equals sign after it. -/
def scanName? (cs : List Char) : Option (List String × String × List Char) :=
  match scanPath? depthLimit cs with
  | some (path, key, '=' :: rest) => some (path, key, rest)
  | _ => none

/-! ## Values -/

mutual

/-- The value at the front of a text, after blanks. `limit` is the number of collections that may
still be opened; `fuel` bounds the work. -/
def scanValue? : Nat → Nat → List Char → Option (Value × List Char)
  | 0, _, _ => none
  | fuel + 1, limit, cs =>
      match skipGap cs, limit with
      | '"' :: rest, _ => (scanString? ('"' :: rest)).map fun r => (.string (String.ofList r.1), r.2)
      | '\x27' :: rest, _ =>
          (scanString? ('\x27' :: rest)).map fun r => (.string (String.ofList r.1), r.2)
      | '[' :: rest, limit + 1 =>
          match skipLines rest.length rest with
          | ']' :: rest => some (.array [], rest)
          | rest => (scanItems? fuel limit rest).map fun r => (.array r.1, r.2)
      | '{' :: rest, limit + 1 =>
          match skipGap rest with
          | '}' :: rest => some (.table .inlined [], rest)
          | rest =>
              match scanPairs? fuel limit rest with
              | some (pairs, rest) => (ofPairs? pairs).map fun entries => (.table .inlined entries, rest)
              | none => none
      | cs, _ => scanScalar? cs

/-- One or more items and the closing bracket; a comma may stand after the last item. -/
def scanItems? : Nat → Nat → List Char → Option (List Value × List Char)
  | 0, _, _ => none
  | fuel + 1, limit, cs =>
      match scanValue? fuel limit cs with
      | none => none
      | some (v, rest) =>
          match skipLines rest.length rest with
          | ']' :: rest => some ([v], rest)
          | ',' :: rest =>
              match skipLines rest.length rest with
              | ']' :: rest => some ([v], rest)
              | rest => (scanItems? fuel limit rest).map fun r => (v :: r.1, r.2)
          | _ => none

/-- One or more pairs and the closing brace, all on one line. -/
def scanPairs? : Nat → Nat → List Char → Option (List Pair × List Char)
  | 0, _, _ => none
  | fuel + 1, limit, cs =>
      match scanName? cs with
      | none => none
      | some (path, key, rest) =>
          match scanValue? fuel limit rest with
          | none => none
          | some (v, rest) =>
              match skipGap rest with
              | '}' :: rest => some ([(path, key, v)], rest)
              | ',' :: rest =>
                  (scanPairs? fuel limit rest).map fun r => ((path, key, v) :: r.1, r.2)
              | _ => none

end

/-! ## Statements -/

/-- A header and its closing brackets. -/
def scanHeader? (close : List Char) (cs : List Char) : Option (List String × String × List Char) :=
  match scanPath? depthLimit cs with
  | some (path, key, rest) =>
      match close.isPrefixOf? rest with
      | some rest => (lineEnd? rest).map fun rest => (path, key, rest)
      | none => none
  | none => none

/-- The statement at the front of a text that starts with neither a blank nor a line end. -/
def scanStatement? (cs : List Char) : Option (Statement × List Char) :=
  match cs with
  | '[' :: '[' :: rest =>
      (scanHeader? [']', ']'] rest).map fun r => (.element r.1 r.2.1, r.2.2)
  | '[' :: rest => (scanHeader? [']'] rest).map fun r => (.header r.1 r.2.1, r.2.2)
  | _ =>
      match scanName? cs with
      | none => none
      | some (path, key, rest) =>
          match scanValue? (2 * rest.length + 2) depthLimit rest with
          | none => none
          | some (v, rest) => (lineEnd? rest).map fun rest => (.pair (path, key, v), rest)

/-- The statements of a text; `fuel` is more than its length. -/
def scanStatements? : Nat → List Char → Option (List Statement)
  | 0, _ => none
  | fuel + 1, cs =>
      match skipGap cs with
      | [] => some []
      | '#' :: rest =>
          match lineEnd? ('#' :: rest) with
          | some rest => scanStatements? fuel rest
          | none => none
      | cs =>
          match newline? cs with
          | some rest => scanStatements? fuel rest
          | none =>
              match scanStatement? cs with
              | some (s, rest) => (scanStatements? fuel rest).map (s :: ·)
              | none => none

/-- A text without the mark of its byte order. -/
def skipMark : List Char → List Char
  | '\ufeff' :: rest => rest
  | cs => cs

/-- The entries of the root table that a text writes. -/
def read? (s : String) : Option Entries :=
  let cs := skipMark s.toList
  (scanStatements? (cs.length + 1) cs).bind ofStatements?

end Toml

end RpcDaemon
