import RpcDaemon.Decimal.Reading
import RpcDaemon.Text.Hex
import RpcDaemon.Toml.Basic

/-!
# TOML numbers, dates and truth values

Scanners for the values that are neither strings nor collections. Digits may be parted by single
underscores; integers have 64 bits; a float that overflows upwards is refused.
-/

namespace RpcDaemon

namespace Toml

/-! ## Digits -/

/-- Continues a run of digits, in which an underscore stands only between two digits. `read` gives
the value of a digit. -/
def scanDigitsFrom? {α : Type} (read : Char → Option α) : List Char → Option (List α × List Char)
  | [] => some ([], [])
  | '_' :: c :: rest =>
      match read c with
      | some d => (scanDigitsFrom? read rest).map fun r => (d :: r.1, r.2)
      | none => none
  | c :: rest =>
      match read c with
      | some d => (scanDigitsFrom? read rest).map fun r => (d :: r.1, r.2)
      | none => if c = '_' then none else some ([], c :: rest)

/-- One or more digits. -/
def scanDigits? {α : Type} (read : Char → Option α) : List Char → Option (List α × List Char)
  | [] => none
  | c :: rest =>
      match read c with
      | some d => (scanDigitsFrom? read rest).map fun r => (d :: r.1, r.2)
      | none => none

/-- The sign at the front of a text and what follows it. -/
def scanSign : List Char → Bool × List Char
  | '-' :: rest => (true, rest)
  | '+' :: rest => (false, rest)
  | cs => (false, cs)

/-- Digits of which no superfluous zero stands first; after a single zero the run ends. -/
def scanWhole? : List Char → Option (List Digit × List Char)
  | '0' :: rest => some ([.zero], rest)
  | cs => scanDigits? Digit.ofChar? cs

/-! ## Integers -/

/-- An integer of 64 bits. -/
def integer? (n : Int) : Option Value :=
  if -9223372036854775808 ≤ n ∧ n < 9223372036854775808 then some (.integer (Int64.ofInt n))
  else none

/-- The value of a digit in the given base. -/
def radixDigit? (base : Nat) (c : Char) : Option Nat :=
  match Hex.value? c with
  | some d => if d < base then some d else none
  | none => none

/-- The integer that digits of a base write. -/
def scanRadix? (base : Nat) (cs : List Char) : Option (Value × List Char) :=
  match scanDigits? (radixDigit? base) cs with
  | some (ds, rest) => (integer? (ds.foldl (fun n d => n * base + d) 0 : Nat)).map (·, rest)
  | none => none

/-- A decimal integer. -/
def scanDecimal? (cs : List Char) : Option (Value × List Char) :=
  let (negative, cs) := scanSign cs
  match scanWhole? cs with
  | some (ds, rest) =>
      let n : Int := Digit.value ds
      (integer? (if negative then -n else n)).map (·, rest)
  | none => none

/-- An integer in one of four bases. -/
def scanInteger? : List Char → Option (Value × List Char)
  | '0' :: 'x' :: rest => scanRadix? 16 rest
  | '0' :: 'o' :: rest => scanRadix? 8 rest
  | '0' :: 'b' :: rest => scanRadix? 2 rest
  | cs => scanDecimal? cs

/-! ## Floats -/

/-- The exponent at the front of a text. -/
def scanExponent? : List Char → Option (Int × List Char)
  | c :: rest =>
      if c = 'e' ∨ c = 'E' then
        let (negative, rest) := scanSign rest
        (scanDigits? Digit.ofChar? rest).map fun r =>
          let n : Int := Digit.value r.1
          (if negative then -n else n, r.2)
      else none
  | [] => none

/-- The digits after a point and an exponent, or one of the two. -/
def scanTail? : List Char → Option (List Digit × Int × List Char)
  | '.' :: rest =>
      match scanDigits? Digit.ofChar? rest with
      | some (ds, rest) =>
          match scanExponent? rest with
          | some (e, rest) => some (ds, e, rest)
          | none => some (ds, 0, rest)
      | none => none
  | cs => (scanExponent? cs).map fun r => ([], r.1, r.2)

/-- A float by its digits, unless it overflows upwards. -/
def float? (negative : Bool) (digits : List Digit) (exponent : Int) : Option Value :=
  let x := Binary64.ofDecimal negative digits exponent
  if x.isInfinite && !x.negative then none else some (.float x)

/-- A float that is named and not written by digits. -/
def scanNamed? (negative : Bool) : List Char → Option (Value × List Char)
  | 'i' :: 'n' :: 'f' :: rest => some (.float (Binary64.infinity negative), rest)
  | 'n' :: 'a' :: 'n' :: rest =>
      some (.float (if negative then Binary64.nan.neg else Binary64.nan), rest)
  | _ => none

/-- A float: digits with a point, an exponent or both, or a name. -/
def scanFloat? (cs : List Char) : Option (Value × List Char) :=
  let (negative, cs) := scanSign cs
  match scanWhole? cs with
  | some (ds, rest) =>
      match scanTail? rest with
      | some (fraction, e, rest) =>
          (float? negative (ds ++ fraction) (e - fraction.length)).map (·, rest)
      | none => none
  | none => scanNamed? negative cs

/-! ## Dates and times -/

/-- Exactly `n` digits. -/
def scanFixed? : Nat → List Char → Option (List Digit × List Char)
  | 0, cs => some ([], cs)
  | _ + 1, [] => none
  | n + 1, c :: rest =>
      match Digit.ofChar? c with
      | some d => (scanFixed? n rest).map fun r => (d :: r.1, r.2)
      | none => none

/-- A number of two digits between two bounds. -/
def scanTwo? (low high : Nat) (cs : List Char) : Option (List Char) :=
  match scanFixed? 2 cs with
  | some (ds, rest) =>
      if low ≤ Digit.value ds ∧ Digit.value ds ≤ high then some rest else none
  | none => none

/-- One given character. -/
def scanChar? (c : Char) : List Char → Option (List Char)
  | d :: rest => if c = d then some rest else none
  | [] => none

/-- What follows a date of year, month and day. -/
def afterDate? (cs : List Char) : Option (List Char) := do
  let (_, cs) ← scanFixed? 4 cs
  let cs ← scanChar? '-' cs
  let cs ← scanTwo? 1 12 cs
  let cs ← scanChar? '-' cs
  scanTwo? 1 31 cs

/-- What follows a fraction of a second, if one stands there. -/
def afterFraction (cs : List Char) : List Char :=
  match cs with
  | '.' :: rest =>
      match Digit.scan rest with
      | ([], _) => cs
      | (_, rest) => rest
  | _ => cs

/-- What follows a time of hour, minute and second. -/
def afterTime? (cs : List Char) : Option (List Char) := do
  let cs ← scanTwo? 0 23 cs
  let cs ← scanChar? ':' cs
  let cs ← scanTwo? 0 59 cs
  let cs ← scanChar? ':' cs
  let cs ← scanTwo? 0 60 cs
  pure (afterFraction cs)

/-- What follows the offset of a time, if one stands there; a malformed one is refused. -/
def afterOffset? (cs : List Char) : Option (List Char) :=
  match cs with
  | c :: rest =>
      if c = 'Z' ∨ c = 'z' then some rest
      else if c = '+' ∨ c = '-' then do
        let rest ← scanTwo? 0 23 rest
        let rest ← scanChar? ':' rest
        scanTwo? 0 59 rest
      else some cs
  | [] => some cs

/-- What follows the time that may stand after a date. -/
def afterDateTime? (cs : List Char) : Option (List Char) :=
  match cs with
  | c :: rest =>
      if c = 'T' ∨ c = 't' ∨ c = ' ' then
        match afterTime? rest with
        | some rest => afterOffset? rest
        | none => some cs
      else some cs
  | [] => some cs

/-- What follows a date, a time or both. -/
def afterMoment? (cs : List Char) : Option (List Char) :=
  match afterDate? cs with
  | some rest => afterDateTime? rest
  | none => afterTime? cs

/-- A date, a time or both. -/
def scanMoment? (cs : List Char) : Option (Value × List Char) :=
  (afterMoment? cs).map fun rest =>
    (.moment (String.ofList (cs.take (cs.length - rest.length))), rest)

/-! ## Any of them -/

/-- A value that starts with a digit or a sign. -/
def scanNumber? (cs : List Char) : Option (Value × List Char) :=
  (scanMoment? cs).or ((scanFloat? cs).or (scanInteger? cs))

/-- A value that is neither a string nor a collection. -/
def scanScalar? (cs : List Char) : Option (Value × List Char) :=
  match cs with
  | 't' :: 'r' :: 'u' :: 'e' :: rest => some (.boolean true, rest)
  | 'f' :: 'a' :: 'l' :: 's' :: 'e' :: rest => some (.boolean false, rest)
  | 'i' :: _ => scanNamed? false cs
  | 'n' :: _ => scanNamed? false cs
  | _ => scanNumber? cs

end Toml

end RpcDaemon
