import RpcDaemon.Text.Hex
import RpcDaemon.Text.Numeral

/-!
# Internet addresses

Addresses of both versions and their text: dotted decimal, and the form of RFC 5952 with lower-case
groups, the longest run of two or more zero groups as `::` (the first of several), and a dotted
tail for mapped addresses only. `Address.normalize` folds the two ways of writing a version 4
address within version 6 back to version 4.
-/

namespace RpcDaemon

namespace Net

/-- A version 4 address. -/
structure V4 where
  /-- First octet. -/
  a : UInt8
  /-- Second octet. -/
  b : UInt8
  /-- Third octet. -/
  c : UInt8
  /-- Fourth octet. -/
  d : UInt8
deriving DecidableEq

/-- A version 6 address by its eight groups. -/
structure V6 where
  /-- First group. -/
  g0 : UInt16
  /-- Second group. -/
  g1 : UInt16
  /-- Third group. -/
  g2 : UInt16
  /-- Fourth group. -/
  g3 : UInt16
  /-- Fifth group. -/
  g4 : UInt16
  /-- Sixth group. -/
  g5 : UInt16
  /-- Seventh group. -/
  g6 : UInt16
  /-- Eighth group. -/
  g7 : UInt16
deriving DecidableEq

/-- An address of either version. -/
inductive Address where
  /-- A version 4 address. -/
  | v4 (ip : V4)
  /-- A version 6 address. -/
  | v6 (ip : V6)
deriving DecidableEq

namespace V4

/-- The dotted decimal text. -/
def chars (ip : V4) : List Char :=
  Numeral.ofNat ip.a.toNat ++ '.' :: Numeral.ofNat ip.b.toNat ++ '.' :: Numeral.ofNat ip.c.toNat
    ++ '.' :: Numeral.ofNat ip.d.toNat

/-- Whether the address lies in 127.0.0.0/8. -/
def isLoopback (ip : V4) : Bool :=
  ip.a == 127

end V4

namespace V6

/-- The groups in order. -/
def groups (ip : V6) : List UInt16 :=
  [ip.g0, ip.g1, ip.g2, ip.g3, ip.g4, ip.g5, ip.g6, ip.g7]

/-- The address with the given groups; zeros stand in for groups that are missing. -/
def ofGroups (gs : List UInt16) : V6 :=
  ⟨gs.getD 0 0, gs.getD 1 0, gs.getD 2 0, gs.getD 3 0, gs.getD 4 0, gs.getD 5 0, gs.getD 6 0,
    gs.getD 7 0⟩

/-- The address `::1`. -/
def localhost : V6 := ⟨0, 0, 0, 0, 0, 0, 0, 1⟩

/-- The last two groups as a version 4 address. -/
def tail (ip : V6) : V4 :=
  ⟨UInt8.ofNat (ip.g6.toNat / 256), UInt8.ofNat (ip.g6.toNat % 256),
    UInt8.ofNat (ip.g7.toNat / 256), UInt8.ofNat (ip.g7.toNat % 256)⟩

/-- Whether the address is `::ffff:a.b.c.d`. -/
def isMapped (ip : V6) : Bool :=
  ip.g0 == 0 && ip.g1 == 0 && ip.g2 == 0 && ip.g3 == 0 && ip.g4 == 0 && ip.g5 == 0xFFFF

/-- Whether the address is `::a.b.c.d`, other than `::` and `::1`. -/
def isCompatible (ip : V6) : Bool :=
  ip.g0 == 0 && ip.g1 == 0 && ip.g2 == 0 && ip.g3 == 0 && ip.g4 == 0 && ip.g5 == 0
    && !(ip.g6 == 0 && ip.g7 ≤ 1)

/-- A run of zero groups: where it starts and how long it is. -/
structure Run where
  /-- Index of the first group. -/
  start : Nat
  /-- Number of groups. -/
  length : Nat

/-- The longest run of zero groups, the first of several; `current` ends just before `index`. -/
def longestRun (best current : Run) (index : Nat) : List UInt16 → Run
  | [] => best
  | g :: gs =>
      if g = 0 then
        let current :=
          if current.length = 0 then ⟨index, 1⟩ else ⟨current.start, current.length + 1⟩
        longestRun (if best.length < current.length then current else best) current (index + 1) gs
      else longestRun best ⟨0, 0⟩ (index + 1) gs

/-- Groups with colons between them. -/
def joinGroups : List UInt16 → List Char
  | [] => []
  | [g] => Hex.ofNat g.toNat
  | g :: gs => Hex.ofNat g.toNat ++ ':' :: joinGroups gs

/-- The canonical text. -/
def chars (ip : V6) : List Char :=
  if ip.isMapped then "::ffff:".toList ++ ip.tail.chars
  else
    let run := longestRun ⟨0, 0⟩ ⟨0, 0⟩ 0 ip.groups
    if 1 < run.length then
      joinGroups (ip.groups.take run.start) ++ "::".toList
        ++ joinGroups (ip.groups.drop (run.start + run.length))
    else joinGroups ip.groups

end V6

namespace Address

/-- The text of an address. -/
def chars : Address → List Char
  | .v4 ip => ip.chars
  | .v6 ip => ip.chars

/-- The text of an address as a string. -/
def text (ip : Address) : String :=
  String.ofList ip.chars

/-- The version 4 address that a mapped or compatible version 6 address stands for; any other
address itself. -/
def normalize : Address → Address
  | .v4 ip => .v4 ip
  | .v6 ip => if ip.isMapped || ip.isCompatible then .v4 ip.tail else .v6 ip

/-- Whether the address is the machine itself. -/
def isLoopback : Address → Bool
  | .v4 ip => ip.isLoopback
  | .v6 ip => ip == V6.localhost

end Address

/-- An address with a port. -/
structure Endpoint where
  /-- The address. -/
  address : Address
  /-- The port. -/
  port : UInt16
deriving DecidableEq

/-- The text of an endpoint; a version 6 address stands in brackets. -/
def Endpoint.text (e : Endpoint) : String :=
  match e.address with
  | .v4 ip => String.ofList (ip.chars ++ ':' :: Numeral.ofNat e.port.toNat)
  | .v6 ip => String.ofList ('[' :: ip.chars ++ ']' :: ':' :: Numeral.ofNat e.port.toNat)

end Net

end RpcDaemon
