/-!
# Hexadecimal text
-/

namespace RpcDaemon

namespace Hex

/-- The character of a value below 16, in lower case. -/
def digit (n : Nat) : Char :=
  if n < 10 then Char.ofNat (48 + n) else Char.ofNat (87 + n)

/-- The character of a value below 16, in upper case. -/
def upperDigit (n : Nat) : Char :=
  if n < 10 then Char.ofNat (48 + n) else Char.ofNat (55 + n)

/-- The value of a hexadecimal digit of either case. -/
def value? (c : Char) : Option Nat :=
  let n := c.toNat
  if 48 ≤ n ∧ n ≤ 57 then some (n - 48)
  else if 65 ≤ n ∧ n ≤ 70 then some (n - 55)
  else if 97 ≤ n ∧ n ≤ 102 then some (n - 87)
  else none

/-- Two lower-case digits for each byte. -/
def encode (bytes : List UInt8) : String :=
  String.ofList (bytes.flatMap fun b => [digit (b.toNat / 16), digit (b.toNat % 16)])

/-- The bytes written by pairs of digits. -/
def decodeChars? : List Char → Option (List UInt8)
  | [] => some []
  | a :: b :: rest =>
      match value? a, value? b, decodeChars? rest with
      | some x, some y, some bytes => some (UInt8.ofNat (x * 16 + y) :: bytes)
      | _, _, _ => none
  | _ => none

/-- The bytes written by pairs of digits. -/
def decode? (s : String) : Option (List UInt8) :=
  decodeChars? s.toList

/-- The digits of `n` without superfluous zeros, least significant first. -/
def natRev : Nat → Nat → List Char
  | 0, _ => []
  | fuel + 1, n => digit (n % 16) :: if n < 16 then [] else natRev fuel (n / 16)

/-- The hexadecimal text of `n` without superfluous zeros. -/
def ofNat (n : Nat) : List Char :=
  (natRev (n + 1) n).reverse

end Hex

end RpcDaemon
