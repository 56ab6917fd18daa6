/-!
# Base64, standard alphabet

`encode` writes the canonical padded text. `decode?` accepts a text only if it is the canonical
text of the bytes it gives: padding is required and unused bits have to be zero.
-/

namespace RpcDaemon

namespace Base64

/-- The character for six bits. -/
def digit (n : Nat) : Char :=
  if n < 26 then Char.ofNat (65 + n)
  else if n < 52 then Char.ofNat (71 + n)
  else if n < 62 then Char.ofNat (n - 4)
  else if n = 62 then '+'
  else '/'

/-- The six bits of a character. -/
def value? (c : Char) : Option Nat :=
  let n := c.toNat
  if 65 ≤ n ∧ n ≤ 90 then some (n - 65)
  else if 97 ≤ n ∧ n ≤ 122 then some (n - 71)
  else if 48 ≤ n ∧ n ≤ 57 then some (n + 4)
  else if c = '+' then some 62
  else if c = '/' then some 63
  else none

/-- The padded text of `bytes`, four characters for three bytes. -/
def encode : List UInt8 → List Char
  | [] => []
  | [a] => [digit (a.toNat / 4), digit (a.toNat % 4 * 16), '=', '=']
  | [a, b] =>
      [digit (a.toNat / 4), digit (a.toNat % 4 * 16 + b.toNat / 16), digit (b.toNat % 16 * 4),
        '=']
  | a :: b :: c :: rest =>
      digit (a.toNat / 4) :: digit (a.toNat % 4 * 16 + b.toNat / 16)
        :: digit (b.toNat % 16 * 4 + c.toNat / 64) :: digit (c.toNat % 64) :: encode rest

/-- The bytes of four characters; fewer than three when the padding says so. -/
def quartet? (a b c d : Char) : Option (List UInt8) :=
  match value? a, value? b with
  | some w, some x =>
      if c = '=' ∧ d = '=' then
        if x % 16 = 0 then some [UInt8.ofNat (w * 4 + x / 16)] else none
      else
        match value? c with
        | none => none
        | some y =>
            if d = '=' then
              if y % 4 = 0 then
                some [UInt8.ofNat (w * 4 + x / 16), UInt8.ofNat (x % 16 * 16 + y / 4)]
              else none
            else
              (value? d).map fun z =>
                [UInt8.ofNat (w * 4 + x / 16), UInt8.ofNat (x % 16 * 16 + y / 4),
                  UInt8.ofNat (y % 4 * 64 + z)]
  | _, _ => none

/-- The bytes of a canonical text. Padding may stand in the last four characters only. -/
def decode? : List Char → Option (List UInt8)
  | [] => some []
  | a :: b :: c :: d :: rest =>
      match quartet? a b c d with
      | none => none
      | some bytes =>
          if rest.isEmpty then some bytes
          else if bytes.length = 3 then (decode? rest).map fun more => bytes ++ more
          else none
  | _ => none

end Base64

end RpcDaemon
