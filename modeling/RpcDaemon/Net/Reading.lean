import RpcDaemon.Net.Address

/-!
# Reading addresses

Octets of a version 4 address have no leading zeros. A version 6 address has eight groups of up to
four hexadecimal digits, of which one run may be left out as `::`, and its last two groups may be
written as a version 4 address. There are no brackets and no zones.
-/

namespace RpcDaemon

namespace Net

/-- A decimal octet at the front of a text. -/
def scanOctet? (cs : List Char) : Option (UInt8 × List Char) :=
  match Digit.scan cs with
  | ([], _) => none
  | (d :: ds, rest) =>
      if ds.length ≤ 2 ∧ ¬(d.val = 0 ∧ ds ≠ []) ∧ Digit.value (d :: ds) < 256 then
        some (UInt8.ofNat (Digit.value (d :: ds)), rest)
      else none

/-- A point and an octet. -/
def scanPointOctet? : List Char → Option (UInt8 × List Char)
  | '.' :: rest => scanOctet? rest
  | _ => none

/-- A version 4 address at the front of a text. -/
def scanV4? (cs : List Char) : Option (V4 × List Char) := do
  let (a, cs) ← scanOctet? cs
  let (b, cs) ← scanPointOctet? cs
  let (c, cs) ← scanPointOctet? cs
  let (d, cs) ← scanPointOctet? cs
  pure (⟨a, b, c, d⟩, cs)

/-- The hexadecimal digits at the front of a text, as values. -/
def scanHex : List Char → List Nat × List Char
  | [] => ([], [])
  | c :: cs =>
      match Hex.value? c with
      | some n => let (ns, rest) := scanHex cs; (n :: ns, rest)
      | none => ([], c :: cs)

/-- A group at the front of a text: one to four hexadecimal digits. -/
def scanGroup? (cs : List Char) : Option (UInt16 × List Char) :=
  match scanHex cs with
  | ([], _) => none
  | (ns, rest) =>
      if ns.length ≤ 4 then some (UInt16.ofNat (ns.foldl (fun a n => a * 16 + n) 0), rest)
      else none

/-- The text after the colon that separates groups; before the first group there is none. -/
def skipColon? (first : Bool) (cs : List Char) : Option (List Char) :=
  if first then some cs
  else
    match cs with
    | ':' :: rest => some rest
    | _ => none

/-- Reads groups while there is room for more, and says whether a dotted tail ended them. -/
def scanGroups (first : Bool) : Nat → List Char → List UInt16 × Bool × List Char
  | 0, cs => ([], false, cs)
  | room + 1, cs =>
      match skipColon? first cs with
      | none => ([], false, cs)
      | some body =>
          match (if 1 ≤ room then scanV4? body else none) with
          | some (ip, rest) =>
              ([UInt16.ofNat (ip.a.toNat * 256 + ip.b.toNat),
                UInt16.ofNat (ip.c.toNat * 256 + ip.d.toNat)], true, rest)
          | none =>
              match scanGroup? body with
              | some (g, rest) =>
                  let (gs, dotted, rest) := scanGroups false room rest
                  (g :: gs, dotted, rest)
              | none => ([], false, cs)

/-- A version 6 address at the front of a text. -/
def scanV6? (cs : List Char) : Option (V6 × List Char) :=
  let (head, dotted, rest) := scanGroups true 8 cs
  if head.length = 8 then some (V6.ofGroups head, rest)
  else if dotted then none
  else
    match rest with
    | ':' :: ':' :: rest =>
        let (tail, _, rest) := scanGroups true (7 - head.length) rest
        some (V6.ofGroups (head ++ List.replicate (8 - head.length - tail.length) 0 ++ tail), rest)
    | _ => none

/-- The version 6 address that a text writes. -/
def V6.read? (s : String) : Option V6 :=
  match scanV6? s.toList with
  | some (ip, []) => some ip
  | _ => none

/-- The address that a text writes. -/
def Address.read? (s : String) : Option Address :=
  match scanV4? s.toList with
  | some (ip, []) => some (.v4 ip)
  | _ => (V6.read? s).map .v6

/-- A colon and a port at the end of a text. -/
def port? : List Char → Option UInt16
  | ':' :: rest =>
      match Numeral.nat? rest with
      | some n => if n < 65536 then some (UInt16.ofNat n) else none
      | none => none
  | _ => none

/-- The text after a zone number, if one stands there. -/
def skipZone? : List Char → Option (List Char)
  | '%' :: rest =>
      match Digit.scan rest with
      | ([], _) => none
      | (ds, rest) => if Digit.value ds < 4294967296 then some rest else none
  | cs => some cs

/-- The endpoint that a text writes; the zone of a version 6 address is passed over. -/
def Endpoint.read? (s : String) : Option Endpoint :=
  match s.toList with
  | '[' :: rest => do
      let (ip, rest) ← scanV6? rest
      let rest ← skipZone? rest
      match rest with
      | ']' :: rest => (port? rest).map fun p => ⟨.v6 ip, p⟩
      | _ => none
  | cs => do
      let (ip, rest) ← scanV4? cs
      (port? rest).map fun p => ⟨.v4 ip, p⟩

end Net

end RpcDaemon
