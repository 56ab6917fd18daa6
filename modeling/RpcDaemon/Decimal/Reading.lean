import RpcDaemon.Decimal.Binary64
import RpcDaemon.Text.Blank
import RpcDaemon.Text.Numeral

/-!
# Reading decimal text as a floating point number

The text is read exactly and rounded once. Exponents far outside the range of finite numbers are
settled by their sign, so that no large power is formed.
-/

namespace RpcDaemon

namespace Binary64

/-- The number nearest to `digits` times ten to the power `exponent`. -/
def ofDecimal (negative : Bool) (digits : List Digit) (exponent : Int) : Binary64 :=
  let n := Digit.value digits
  if n = 0 then ofMagnitude negative 0
  else if 400 < exponent then infinity negative
  else if exponent < -400 - digits.length then ofMagnitude negative 0
  else roundRatio negative (n * Nat.pow 10 exponent.toNat) (Nat.pow 10 (-exponent).toNat)

/-- The exponent part of a decimal text: an `e` of either case, an optional sign, digits. -/
def exponent? : List Char → Option Int
  | [] => some 0
  | c :: cs =>
      if c = 'e' ∨ c = 'E' then
        match cs with
        | '-' :: rest => (Numeral.nat? rest).map fun n => -(n : Int)
        | '+' :: rest => (Numeral.nat? rest).map fun n => (n : Int)
        | rest => (Numeral.nat? rest).map fun n => (n : Int)
      else none

/-- A decimal text without sign: digits with at most one point among them, and an exponent. -/
def ofUnsignedText? (negative : Bool) (cs : List Char) : Option Binary64 :=
  let (whole, rest) := Digit.scan cs
  let (fraction, rest) :=
    match rest with
    | '.' :: more => Digit.scan more
    | _ => ([], rest)
  let digits := whole ++ fraction
  if digits.isEmpty then none
  else (exponent? rest).map fun e => ofDecimal negative digits (e - fraction.length)

/-- The number that a text names: a decimal text, `inf`, `infinity` or `nan` in any case, with or
without a sign before it. -/
def ofText? (cs : List Char) : Option Binary64 :=
  let (negative, body) :=
    match cs with
    | '-' :: rest => (true, rest)
    | '+' :: rest => (false, rest)
    | _ => (false, cs)
  let name := String.ofList (Chars.lower body)
  if name = "inf" ∨ name = "infinity" then some (infinity negative)
  else if name = "nan" then some (if negative then nan.neg else nan)
  else ofUnsignedText? negative body

end Binary64

end RpcDaemon
