import RpcDaemon.Json.Value
import RpcDaemon.Text.Utf8

/-!
# Reading JSON text

`Document.read?` reads a whole text as a document whose nesting stays within a limit. `Json.read?`
reads it as a value, with a limit of 127 levels. Every scanner returns what it read and the text
that is left.
-/

namespace RpcDaemon

namespace Json

/-- The characters that may stand between tokens. -/
def isSpace (c : Char) : Bool :=
  c == ' ' || c == '\t' || c == '\n' || c == '\r'

/-- A text without the blanks at its front. -/
def skipSpace (cs : List Char) : List Char :=
  cs.dropWhile isSpace

/-! ## Numbers -/

/-- The digits before the point: no zero stands before another digit. -/
def scanWhole? (cs : List Char) : Option (List Digit × List Char) :=
  match Digit.scan cs with
  | ([], _) => none
  | (d :: ds, rest) => if d.val = 0 ∧ ds ≠ [] then none else some (d :: ds, rest)

/-- At least one digit. -/
def scanDigits? (cs : List Char) : Option (List Digit × List Char) :=
  match Digit.scan cs with
  | ([], _) => none
  | (d :: ds, rest) => some (d :: ds, rest)

/-- The point and the digits after it, if there is a point. -/
def scanFraction? (cs : List Char) : Option (Option (List Digit) × List Char) :=
  match cs with
  | '.' :: rest => (scanDigits? rest).map fun r => (some r.1, r.2)
  | _ => some (none, cs)

/-- The exponent, if there is one. -/
def scanExponent? (cs : List Char) : Option (Option (Bool × List Digit) × List Char) :=
  match cs with
  | c :: rest =>
      if c = 'e' ∨ c = 'E' then
        match rest with
        | '-' :: more => (scanDigits? more).map fun r => (some (true, r.1), r.2)
        | '+' :: more => (scanDigits? more).map fun r => (some (false, r.1), r.2)
        | _ => (scanDigits? rest).map fun r => (some (false, r.1), r.2)
      else some (none, cs)
  | [] => some (none, cs)

/-- The number at the front of a text, after its sign. -/
def scanUnsigned? (negative : Bool) (cs : List Char) : Option (NumberText × List Char) :=
  match scanWhole? cs with
  | none => none
  | some (whole, rest) =>
      match scanFraction? rest with
      | none => none
      | some (fraction, rest) =>
          (scanExponent? rest).map fun r => (⟨negative, whole, fraction, r.1⟩, r.2)

/-- The number at the front of a text. -/
def scanNumber? (cs : List Char) : Option (NumberText × List Char) :=
  match cs with
  | '-' :: rest => scanUnsigned? true rest
  | _ => scanUnsigned? false cs

/-! ## Strings -/

/-- The value of four hexadecimal digits. -/
def hex4? (a b c d : Char) : Option Nat :=
  match Hex.value? a, Hex.value? b, Hex.value? c, Hex.value? d with
  | some w, some x, some y, some z => some (((w * 16 + x) * 16 + y) * 16 + z)
  | _, _, _, _ => none

/-- The piece that an escape `\u` writes. -/
def Piece.ofUnit (n : Nat) : Piece :=
  if 0xD800 ≤ n ∧ n < 0xE000 then .surrogate n else .char (Char.ofNat n)

/-- The character of a short escape. -/
def shortEscape? (c : Char) : Option Char :=
  if c = '"' ∨ c = '\\' ∨ c = '/' then some c
  else if c = 'b' then some (Char.ofNat 8)
  else if c = 'f' then some (Char.ofNat 12)
  else if c = 'n' then some '\n'
  else if c = 'r' then some '\r'
  else if c = 't' then some '\t'
  else none

/-- The pieces up to the closing quote; `acc` holds those read so far, the last one first. -/
def scanPieces? (acc : List Piece) : List Char → Option (List Piece × List Char)
  | [] => none
  | '"' :: rest => some (acc.reverse, rest)
  | '\\' :: 'u' :: a :: b :: c :: d :: rest =>
      match hex4? a b c d with
      | some n => scanPieces? (Piece.ofUnit n :: acc) rest
      | none => none
  | '\\' :: e :: rest =>
      match shortEscape? e with
      | some c => scanPieces? (.char c :: acc) rest
      | none => none
  | c :: rest => if c.toNat < 0x20 ∨ c = '\\' then none else scanPieces? (.char c :: acc) rest

/-- The string at the front of a text. -/
def scanString? (cs : List Char) : Option (List Piece × List Char) :=
  match cs with
  | '"' :: rest => scanPieces? [] rest
  | _ => none

/-! ## Documents -/

/-- A scalar at the front of a text. -/
def scanScalar? (cs : List Char) : Option (Document × List Char) :=
  match cs with
  | '"' :: _ => (scanString? cs).map fun r => (.string r.1, r.2)
  | 'n' :: 'u' :: 'l' :: 'l' :: rest => some (.null, rest)
  | 't' :: 'r' :: 'u' :: 'e' :: rest => some (.bool true, rest)
  | 'f' :: 'a' :: 'l' :: 's' :: 'e' :: rest => some (.bool false, rest)
  | _ => (scanNumber? cs).map fun r => (.number r.1, r.2)

/-- The name of a member and the colon after it. -/
def scanName? (cs : List Char) : Option (List Piece × List Char) :=
  match scanString? cs with
  | none => none
  | some (k, rest) =>
      match skipSpace rest with
      | ':' :: rest => some (k, rest)
      | _ => none

mutual

/-- The document at the front of a text, after blanks. `limit` is the number of levels that may
still be opened; `fuel` bounds the work and is no less than the length of the text. -/
def scanDocument? : Nat → Nat → List Char → Option (Document × List Char)
  | 0, _, _ => none
  | fuel + 1, limit, cs =>
      match skipSpace cs, limit with
      | '[' :: rest, limit + 1 =>
          match skipSpace rest with
          | ']' :: rest => some (.array [], rest)
          | rest => (scanItems? fuel limit rest).map fun r => (.array r.1, r.2)
      | '{' :: rest, limit + 1 =>
          match skipSpace rest with
          | '}' :: rest => some (.object [], rest)
          | rest => (scanMembers? fuel limit rest).map fun r => (.object r.1, r.2)
      | cs, _ => scanScalar? cs

/-- One or more items and the closing bracket. -/
def scanItems? : Nat → Nat → List Char → Option (List Document × List Char)
  | 0, _, _ => none
  | fuel + 1, limit, cs =>
      match scanDocument? fuel limit cs with
      | none => none
      | some (d, rest) =>
          match skipSpace rest with
          | ']' :: rest => some ([d], rest)
          | ',' :: rest => (scanItems? fuel limit rest).map fun r => (d :: r.1, r.2)
          | _ => none

/-- One or more members and the closing brace. -/
def scanMembers? : Nat → Nat → List Char → Option (List (List Piece × Document) × List Char)
  | 0, _, _ => none
  | fuel + 1, limit, cs =>
      match scanName? (skipSpace cs) with
      | none => none
      | some (k, rest) =>
          match scanDocument? fuel limit rest with
          | none => none
          | some (d, rest) =>
              match skipSpace rest with
              | '}' :: rest => some ([(k, d)], rest)
              | ',' :: rest => (scanMembers? fuel limit rest).map fun r => ((k, d) :: r.1, r.2)
              | _ => none

end

/-- The document that a whole text writes. -/
def Document.read? (limit : Nat) (cs : List Char) : Option Document :=
  match scanDocument? (2 * cs.length + 2) limit cs with
  | some (d, rest) => if (skipSpace rest).isEmpty then some d else none
  | none => none

/-- How many arrays and objects may nest in a text that is read as a value. -/
def depthLimit : Nat := 127

/-- The value that a whole text denotes. -/
def readChars? (cs : List Char) : Option Json :=
  (Document.read? depthLimit cs).bind (Document.value? depthLimit)

/-- The value that a string denotes. -/
def read? (s : String) : Option Json :=
  readChars? s.toList

/-- The value that a byte string denotes; it has to be well-formed UTF-8. -/
def readBytes? (bytes : List UInt8) : Option Json :=
  (Utf8.decode? bytes).bind readChars?

end Json

end RpcDaemon
