/-!
# Decimal numerals

Digits and their values, the decimal text of a number, and the reading of integers that have to
lie in a range.
-/

namespace RpcDaemon

/-- A decimal digit. -/
abbrev Digit := Fin 10

namespace Digit

/-- The digit zero. -/
def zero : Digit := ⟨0, by decide⟩

/-- The character of a digit. -/
def toChar (d : Digit) : Char :=
  Char.ofNat (48 + d.val)

/-- The digit of a character. -/
def ofChar? (c : Char) : Option Digit :=
  if h : 48 ≤ c.toNat ∧ c.toNat ≤ 57 then some ⟨c.toNat - 48, by omega⟩ else none

/-- The digits at the front of a text, and what follows them. -/
def scan : List Char → List Digit × List Char
  | [] => ([], [])
  | c :: cs =>
      match ofChar? c with
      | some d => let (ds, rest) := scan cs; (d :: ds, rest)
      | none => ([], c :: cs)

/-- The number that `ds` write after the digits of `acc`. -/
def valueFrom (acc : Nat) (ds : List Digit) : Nat :=
  ds.foldl (fun n d => n * 10 + d.val) acc

/-- The number that `ds` write. -/
def value (ds : List Digit) : Nat :=
  valueFrom 0 ds

end Digit

namespace Numeral

/-- The digits of `n`, least significant first; `fuel` bounds their number. -/
def digitsRev : Nat → Nat → List Digit
  | 0, _ => []
  | fuel + 1, n =>
      Fin.ofNat 10 n :: if n < 10 then [] else digitsRev fuel (n / 10)

/-- The digits of `n` without superfluous zeros. -/
def digits (n : Nat) : List Digit :=
  (digitsRev (n + 1) n).reverse

/-- The decimal text of `n`. -/
def ofNat (n : Nat) : List Char :=
  (digits n).map Digit.toChar

/-- The decimal text of `n`, with a minus sign if it is negative. -/
def ofInt (n : Int) : List Char :=
  if n < 0 then '-' :: ofNat n.natAbs else ofNat n.natAbs

/-- The decimal text of `n`, filled with zeros to at least `width` digits. -/
def padded (width n : Nat) : List Char :=
  let ds := ofNat n
  List.replicate (width - ds.length) '0' ++ ds

/-- The number written by a text of digits only, at least one. -/
def nat? (cs : List Char) : Option Nat :=
  match Digit.scan cs with
  | (d :: ds, []) => some (Digit.value (d :: ds))
  | _ => none

/-- A number below `bound`: digits, with or without a plus sign before them. -/
def unsigned? (bound : Nat) (cs : List Char) : Option Nat :=
  let body := match cs with
    | '+' :: rest => rest
    | _ => cs
  match nat? body with
  | some n => if n < bound then some n else none
  | none => none

/-- An integer with magnitude at most `half` below zero and less than `half` above it: digits,
with or without a sign before them. -/
def signed? (half : Nat) (cs : List Char) : Option Int :=
  match cs with
  | '-' :: rest =>
      match nat? rest with
      | some n => if n ≤ half then some (-(n : Int)) else none
      | none => none
  | _ => (unsigned? half cs).map fun n => (n : Int)

end Numeral

/-- The decimal text of `n` as a string. -/
def decimal (n : Nat) : String :=
  String.ofList (Numeral.ofNat n)

end RpcDaemon
