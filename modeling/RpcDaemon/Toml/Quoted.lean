import RpcDaemon.Text.Hex
import RpcDaemon.Toml.Basic

/-!
# TOML strings

Four ways to write a string: basic strings with escapes and literal strings without, each on one
line or on several. `Quoted.chars` chooses a way for a given string, and the scanners read all four
back.
-/

namespace RpcDaemon

namespace Toml

/-! ## Writing -/

/-- The ways in which strings are written here. -/
inductive Style where
  /-- In double quotes. -/
  | basic
  /-- In three double quotes, beginning on a new line. -/
  | basicLines
  /-- In single quotes. -/
  | literal
  /-- In three single quotes on one line. -/
  | literalTriple
  /-- In three single quotes, beginning on a new line. -/
  | literalLines
deriving DecidableEq

namespace Quoted

/-- Whether three single quotes stand side by side. -/
def hasTriple : List Char → Bool
  | '\x27' :: '\x27' :: '\x27' :: _ => true
  | _ :: cs => hasTriple cs
  | [] => false

/-- Whether a character may stand in a literal string of several lines. -/
def isLiteral (c : Char) : Bool :=
  isPlain c || c == '\n'

/-- The way a string is written: literally if that saves escaping a backslash and is possible. -/
def style (cs : List Char) : Style :=
  if cs.contains '\\' && !hasTriple cs && cs.getLast? != some '\x27' && cs.all isLiteral then
    if cs.contains '\n' then .literalLines
    else if cs.contains '\x27' then .literalTriple
    else .literal
  else if cs.contains '\n' then .basicLines
  else .basic

/-- The escape with four upper-case digits. -/
def unicodeEscape (n : Nat) : List Char :=
  ['\\', 'u', Hex.upperDigit (n / 4096 % 16), Hex.upperDigit (n / 256 % 16),
    Hex.upperDigit (n / 16 % 16), Hex.upperDigit (n % 16)]

/-- A character of a basic string of one line. -/
def escaped (c : Char) : List Char :=
  if c = '"' then ['\\', '"']
  else if c = '\\' then ['\\', '\\']
  else if c.toNat = 8 then ['\\', 'b']
  else if c = '\t' then ['\\', 't']
  else if c = '\n' then ['\\', 'n']
  else if c.toNat = 12 then ['\\', 'f']
  else if c = '\r' then ['\\', 'r']
  else if c.toNat < 0x20 ∨ c.toNat = 0x7F then unicodeEscape c.toNat
  else [c]

/-- A character of a basic string of several lines: a line feed stands for itself. -/
def escapedLine (c : Char) : List Char :=
  if c = '\n' then [c] else escaped c

/-- Three double quotes. -/
def doubles : List Char := ['"', '"', '"']

/-- Three single quotes. -/
def singles : List Char := ['\x27', '\x27', '\x27']

/-- A string written in a given way. -/
def charsAs (cs : List Char) : Style → List Char
  | .basic => '"' :: cs.flatMap escaped ++ ['"']
  | .basicLines => doubles ++ '\n' :: cs.flatMap escapedLine ++ doubles
  | .literal => '\x27' :: cs ++ ['\x27']
  | .literalTriple => singles ++ cs ++ singles
  | .literalLines => singles ++ '\n' :: cs ++ singles

/-- A string as it is written. -/
def chars (s : String) : List Char :=
  charsAs s.toList (style s.toList)

end Quoted

/-! ## Reading -/

/-- The code point that hexadecimal digits write. -/
def hexValue? (cs : List Char) : Option Nat :=
  cs.foldl (fun acc c =>
    match acc, Hex.value? c with
    | some n, some d => some (n * 16 + d)
    | _, _ => none) (some 0)

/-- The character that an escape with digits writes; surrogates and great numbers write none. -/
def codePoint? (cs : List Char) : Option Char :=
  match hexValue? cs with
  | some n => if n.isValidChar then some (Char.ofNat n) else none
  | none => none

/-- The character of a short escape. -/
def shortEscape? (c : Char) : Option Char :=
  if c = 'b' then some (Char.ofNat 8)
  else if c = 't' then some '\t'
  else if c = 'n' then some '\n'
  else if c = 'f' then some (Char.ofNat 12)
  else if c = 'r' then some '\r'
  else if c = '"' ∨ c = '\\' then some c
  else none

/-- The rest of a basic string of one line and what follows it; `acc` is what was read of the string,
the last character first. -/
def scanBasic? (acc : List Char) : List Char → Option (List Char × List Char)
  | [] => none
  | '"' :: rest => some (acc.reverse, rest)
  | '\\' :: 'u' :: a :: b :: c :: d :: rest =>
      match codePoint? [a, b, c, d] with
      | some ch => scanBasic? (ch :: acc) rest
      | none => none
  | '\\' :: 'U' :: a :: b :: c :: d :: e :: f :: g :: h :: rest =>
      match codePoint? [a, b, c, d, e, f, g, h] with
      | some ch => scanBasic? (ch :: acc) rest
      | none => none
  | '\\' :: e :: rest =>
      match shortEscape? e with
      | some ch => scanBasic? (ch :: acc) rest
      | none => none
  | c :: rest => if isPlain c && c != '\\' then scanBasic? (c :: acc) rest else none

/-- What a backslash at the end of a line does to the blanks after it. -/
inductive Trim where
  /-- No backslash stands before. -/
  | off
  /-- The line has still to end. -/
  | armed
  /-- Blanks and line ends are dropped. -/
  | on
deriving DecidableEq

/-- The quotes that belong to a string although they stand at its end: at most two of those that
follow the three that end it. -/
def extraQuotes (q : Char) : List Char → List Char × List Char
  | c :: d :: rest =>
      if c = q then if d = q then ([q, q], rest) else ([q], d :: rest) else ([], c :: d :: rest)
  | [c] => if c = q then ([q], []) else ([], [c])
  | [] => ([], [])

/-- The rest of a basic string of several lines and what follows it. -/
def scanBasicLines? (trim : Trim) (acc : List Char) : List Char → Option (List Char × List Char)
  | [] => none
  | '\r' :: '\n' :: rest =>
      if trim = .off then scanBasicLines? .off ('\n' :: acc) rest else scanBasicLines? .on acc rest
  | '\n' :: rest =>
      if trim = .off then scanBasicLines? .off ('\n' :: acc) rest else scanBasicLines? .on acc rest
  | '"' :: '"' :: '"' :: rest =>
      if trim = .armed then none
      else
        let (extra, rest) := extraQuotes '"' rest
        some (acc.reverse ++ extra, rest)
  | '\\' :: 'u' :: a :: b :: c :: d :: rest =>
      match trim, codePoint? [a, b, c, d] with
      | .armed, _ => none
      | _, some ch => scanBasicLines? .off (ch :: acc) rest
      | _, none => none
  | '\\' :: 'U' :: a :: b :: c :: d :: e :: f :: g :: h :: rest =>
      match trim, codePoint? [a, b, c, d, e, f, g, h] with
      | .armed, _ => none
      | _, some ch => scanBasicLines? .off (ch :: acc) rest
      | _, none => none
  | '\\' :: e :: rest =>
      if trim = .armed then none
      else
        match shortEscape? e with
        | some ch => scanBasicLines? .off (ch :: acc) rest
        | none => if isGap e || e == '\n' || e == '\r' then scanBasicLines? .armed acc (e :: rest) else none
  | c :: rest =>
      if isGap c && trim != .off then scanBasicLines? trim acc rest
      else if trim = .armed then none
      else if isPlain c && c != '\\' then scanBasicLines? .off (c :: acc) rest
      else none

/-- The rest of a literal string of one line and what follows it. -/
def scanLiteral? (acc : List Char) : List Char → Option (List Char × List Char)
  | [] => none
  | '\x27' :: rest => some (acc.reverse, rest)
  | c :: rest => if isPlain c then scanLiteral? (c :: acc) rest else none

/-- The rest of a literal string of several lines and what follows it. -/
def scanLiteralLines? (acc : List Char) : List Char → Option (List Char × List Char)
  | [] => none
  | '\r' :: '\n' :: rest => scanLiteralLines? ('\n' :: acc) rest
  | '\x27' :: '\x27' :: '\x27' :: rest =>
      let (extra, rest) := extraQuotes '\x27' rest
      some (acc.reverse ++ extra, rest)
  | c :: rest => if isPlain c || c == '\n' then scanLiteralLines? (c :: acc) rest else none

/-- A text without the line end at its front, if one stands there. -/
def skipNewline (cs : List Char) : List Char :=
  (newline? cs).getD cs

/-- The string at the front of a text, written in any of the four ways. -/
def scanString? : List Char → Option (List Char × List Char)
  | '"' :: '"' :: '"' :: rest => scanBasicLines? .off [] (skipNewline rest)
  | '"' :: rest => scanBasic? [] rest
  | '\x27' :: '\x27' :: '\x27' :: rest => scanLiteralLines? [] (skipNewline rest)
  | '\x27' :: rest => scanLiteral? [] rest
  | _ => none

end Toml

end RpcDaemon
