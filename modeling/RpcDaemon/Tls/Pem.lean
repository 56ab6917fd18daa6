import RpcDaemon.Text.Base64
import RpcDaemon.Text.Described
import RpcDaemon.Text.Numeral
import RpcDaemon.Text.Utf8

/-!
# PEM files

Sections of a text file that carry bytes in Base64: a line that opens a section with a label, lines
of digits, and a line that closes it. Text outside sections is passed over. Padding may be missing,
but what is there has to stand at the end, and bits that carry nothing have to be zero.
-/

namespace RpcDaemon

namespace Pem

/-- What is wrong with a file. -/
inductive PemError where
  /-- The section with this label has no end. -/
  | unfinished (label : List UInt8)
  /-- A line opens no section though it starts like one. -/
  | illegalStart (line : List UInt8)
  /-- A byte is no digit. -/
  | invalidByte (offset : Nat) (byte : UInt8)
  /-- A digit is left over. -/
  | invalidLength
  /-- The last digit has bits that carry nothing. -/
  | invalidLastSymbol (offset : Nat) (byte : UInt8)
deriving DecidableEq

/-- The line that opens a section starts like this. -/
def openMark : List UInt8 := Utf8.ofString "-----BEGIN "

/-- The line that closes the section with the given label starts like this. -/
def closeMark (label : List UInt8) : List UInt8 :=
  Utf8.ofString "-----END " ++ label ++ Utf8.ofString "-----"

/-- Bytes in quotes. -/
def described (bytes : List UInt8) : String :=
  Described.string (String.ofList (Utf8.decodeLossy bytes))

/-- The wording of an error. -/
def PemError.message : PemError → String
  | unfinished label => "section end " ++ described (closeMark label) ++ " missing"
  | illegalStart line => "illegal section start: " ++ described line
  | invalidByte offset byte =>
      "Invalid byte " ++ decimal byte.toNat ++ ", offset " ++ decimal offset ++ "."
  | invalidLength => "Encoded text cannot have a 6-bit remainder."
  | invalidLastSymbol offset byte =>
      "Invalid last symbol " ++ decimal byte.toNat ++ ", offset " ++ decimal offset ++ "."

/-! ## Digits -/

/-- The value of a digit. -/
def value? (b : UInt8) : Option Nat :=
  Base64.value? (Char.ofNat b.toNat)

/-- The sign that pads the last digits. -/
def padding : UInt8 := 61

/-- The bytes of groups of four digits. -/
def join : List Nat → List UInt8
  | a :: b :: c :: d :: rest =>
      UInt8.ofNat (a * 4 + b / 16) :: UInt8.ofNat (b % 16 * 16 + c / 4)
        :: UInt8.ofNat (c % 4 * 64 + d) :: join rest
  | [a, b, c] => [UInt8.ofNat (a * 4 + b / 16), UInt8.ofNat (b % 16 * 16 + c / 4)]
  | [a, b] => [UInt8.ofNat (a * 4 + b / 16)]
  | _ => []

/-- The bits of the last of `k` digits that carry nothing: it is a multiple of this unless they are
set. -/
def spare (k : Nat) : Nat :=
  if k % 4 = 2 then 16 else if k % 4 = 3 then 4 else 1

/-- The bytes that digits write. -/
def ofDigits (digits : List UInt8) : Except PemError (List UInt8) :=
  let values := digits.filterMap value?
  match values.getLast?, digits.getLast? with
  | some v, some b =>
      if v % spare digits.length = 0 then .ok (join values)
      else .error (.invalidLastSymbol (digits.length - 1) b)
  | _, _ => .ok []

/-- The bytes that a text of digits and padding writes. -/
def decode (text : List UInt8) : Except PemError (List UInt8) :=
  let digits := text.takeWhile fun b => (value? b).isSome
  let k := digits.length
  if text.length % 4 = 1 then
    match text.getLast? with
    | some b =>
        if (value? b).isNone && b != padding then .error (.invalidByte (text.length - 1) b)
        else .error .invalidLength
    | none => .error .invalidLength
  else
    match text.drop k with
    | [] => ofDigits digits
    | b :: rest =>
        if b = padding ∧ 2 ≤ k % 4 ∧ rest.all (· == padding) ∧ rest.length < 4 - k % 4 then
          ofDigits digits
        else .error (.invalidByte k b)

/-! ## Sections -/

/-- A section: its label and its bytes. -/
structure Section where
  /-- The label. -/
  label : List UInt8
  /-- The bytes. -/
  bytes : List UInt8
deriving DecidableEq

/-- The lines of a file, each with its end. -/
def lines : List UInt8 → List (List UInt8)
  | [] => []
  | b :: rest =>
      if b = 10 ∨ b = 13 then [b] :: lines rest
      else
        match lines rest with
        | [] => [[b]]
        | line :: more => (b :: line) :: more

/-- Whether a byte may stand after a line. -/
def isTrailing (b : UInt8) : Bool :=
  b == 10 || b == 13 || b == 32

/-- A line without what may stand after it. -/
def trimmedLine (line : List UInt8) : List UInt8 :=
  (line.reverse.dropWhile isTrailing).reverse

/-- The label of a line that opens a section, whose end is five hyphens and blanks. -/
def label? (line : List UInt8) : Option (List UInt8) :=
  let ending := line.reverse.takeWhile fun b => b == 45 || isTrailing b
  if (ending.filter (· == 45)).length = 5 then
    let blanks := ending.reverse.takeWhile isTrailing
    let body := (line.take (line.length - ending.length)) ++ blanks
    some (body.drop openMark.length)
  else none

/-- Where reading stands: the label of the open section, if one is open, and its text so far. -/
structure State where
  /-- The label of the open section. -/
  label : Option (List UInt8)
  /-- The text so far. -/
  text : List UInt8

/-- Outside every section. -/
def State.outside : State := ⟨none, []⟩

/-- Reads a line: the section that it closes, if any, and where reading stands then. -/
def step (s : State) (line : List UInt8) : Except PemError (Option Section × State) :=
  if openMark.isPrefixOf line then
    match label? line with
    | some label => .ok (none, { s with label := some label })
    | none => .error (.illegalStart line)
  else
    match s.label with
    | none => .ok (none, s)
    | some label =>
        if (closeMark label).isPrefixOf line then
          (decode s.text).map fun bytes => (some ⟨label, bytes⟩, .outside)
        else .ok (none, { s with text := s.text ++ trimmedLine line })

/-- Reads lines. -/
def readLines (s : State) : List (List UInt8) → Except PemError (List Section)
  | [] =>
      match s.label with
      | some label => .error (.unfinished label)
      | none => .ok []
  | line :: rest =>
      match step s line with
      | .error e => .error e
      | .ok (found, s) => (readLines s rest).map fun more => found.toList ++ more

/-- The sections of a file. -/
def read (file : List UInt8) : Except PemError (List Section) :=
  readLines .outside (lines file)

end Pem

end RpcDaemon
