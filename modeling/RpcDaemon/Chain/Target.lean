import RpcDaemon.Decimal.Binary64

/-!
# Proof-of-work targets

A target is a number of 256 bits. Its compact form holds the number of its bytes and the three
leading ones; the highest bit of those is a sign and stays clear. The difficulty of a target
compares it with the target `0x1d00ffff`.
-/

namespace RpcDaemon

namespace Chain

/-- A number of 256 bits as 32 bytes, the highest first. -/
abbrev Target := Vector UInt8 32

namespace Target

/-- The greatest number shifted right by `shift` bits: zero bytes, one partial byte, and ones. -/
def shifted (shift : UInt32) : Target :=
  let whole := shift.toNat / 8
  Vector.ofFn fun i : Fin 32 =>
    if i.val < whole then 0
    else if i.val = whole then UInt8.ofNat (255 / Nat.pow 2 (shift.toNat % 8))
    else 255

/-- The number itself. -/
def toNat (t : Target) : Nat :=
  t.toList.foldl (fun n b => n * 256 + b.toNat) 0

/-- The bytes from the first one that is not zero. -/
def significant (t : Target) : List UInt8 :=
  t.toList.dropWhile fun b => b == 0

/-- The first three of some bytes as a number; zeros stand in for missing ones. -/
def leading (bytes : List UInt8) : UInt32 :=
  ((bytes.getD 0 0).toUInt32 <<< 16) ||| ((bytes.getD 1 0).toUInt32 <<< 8)
    ||| (bytes.getD 2 0).toUInt32

/-- The compact form. -/
def compact (t : Target) : UInt32 :=
  let bytes := t.significant
  if bytes.isEmpty then 0
  else
    let mantissa := leading bytes
    let size := UInt32.ofNat bytes.length
    if mantissa &&& 0x00800000 != 0 then (mantissa >>> 8) ||| ((size + 1) <<< 24)
    else mantissa ||| (size <<< 24)

end Target

/-- Multiplies `n` times by 256. -/
def scaleUp : Nat → Binary64 → Binary64
  | 0, x => x
  | n + 1, x => scaleUp n (x.mul (Binary64.ofNat 256))

/-- Divides `n` times by 256. -/
def scaleDown : Nat → Binary64 → Binary64
  | 0, x => x
  | n + 1, x => scaleDown n (x.div (Binary64.ofNat 256))

/-- The difficulty of a compact target; a target without mantissa has none. -/
def difficulty (bits : UInt32) : Binary64 :=
  let mantissa := (bits &&& 0x00FFFFFF).toNat
  let size := (bits >>> 24).toNat
  if mantissa = 0 then Binary64.zero
  else
    let ratio := (Binary64.ofNat 0xFFFF).div (Binary64.ofNat mantissa)
    if size < 29 then scaleUp (29 - size) ratio else scaleDown (size - 29) ratio

end Chain

end RpcDaemon
