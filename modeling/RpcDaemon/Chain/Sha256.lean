/-!
# SHA-256
-/

namespace RpcDaemon

namespace Sha256

/-- The round constants. -/
def constants : List UInt32 :=
  [0x428a2f98, 0x71374491, 0xb5c0fbcf, 0xe9b5dba5, 0x3956c25b, 0x59f111f1, 0x923f82a4, 0xab1c5ed5,
    0xd807aa98, 0x12835b01, 0x243185be, 0x550c7dc3, 0x72be5d74, 0x80deb1fe, 0x9bdc06a7, 0xc19bf174,
    0xe49b69c1, 0xefbe4786, 0x0fc19dc6, 0x240ca1cc, 0x2de92c6f, 0x4a7484aa, 0x5cb0a9dc, 0x76f988da,
    0x983e5152, 0xa831c66d, 0xb00327c8, 0xbf597fc7, 0xc6e00bf3, 0xd5a79147, 0x06ca6351, 0x14292967,
    0x27b70a85, 0x2e1b2138, 0x4d2c6dfc, 0x53380d13, 0x650a7354, 0x766a0abb, 0x81c2c92e, 0x92722c85,
    0xa2bfe8a1, 0xa81a664b, 0xc24b8b70, 0xc76c51a3, 0xd192e819, 0xd6990624, 0xf40e3585, 0x106aa070,
    0x19a4c116, 0x1e376c08, 0x2748774c, 0x34b0bcb5, 0x391c0cb3, 0x4ed8aa4a, 0x5b9cca4f, 0x682e6ff3,
    0x748f82ee, 0x78a5636f, 0x84c87814, 0x8cc70208, 0x90befffa, 0xa4506ceb, 0xbef9a3f7, 0xc67178f2]

/-- The eight words of a hash in progress. -/
structure State where
  a : UInt32
  b : UInt32
  c : UInt32
  d : UInt32
  e : UInt32
  f : UInt32
  g : UInt32
  h : UInt32

/-- The words a hash starts from. -/
def initial : State :=
  ⟨0x6a09e667, 0xbb67ae85, 0x3c6ef372, 0xa54ff53a, 0x510e527f, 0x9b05688c, 0x1f83d9ab, 0x5be0cd19⟩

/-- Rotation to the right. -/
def rotate (x : UInt32) (n : UInt32) : UInt32 :=
  (x >>> n) ||| (x <<< (32 - n))

/-- The word that four bytes make, the first one the highest. -/
def word (a b c d : UInt8) : UInt32 :=
  (a.toUInt32 <<< 24) ||| (b.toUInt32 <<< 16) ||| (c.toUInt32 <<< 8) ||| d.toUInt32

/-- Bytes as words. -/
def words : List UInt8 → List UInt32
  | a :: b :: c :: d :: rest => word a b c d :: words rest
  | _ => []

/-- Extends the schedule, whose words stand last one first, by `n` words. -/
def extend : Nat → List UInt32 → List UInt32
  | 0, ws => ws
  | n + 1, ws =>
      let w2 := ws.getD 1 0
      let w7 := ws.getD 6 0
      let w15 := ws.getD 14 0
      let w16 := ws.getD 15 0
      let s0 := rotate w15 7 ^^^ rotate w15 18 ^^^ (w15 >>> 3)
      let s1 := rotate w2 17 ^^^ rotate w2 19 ^^^ (w2 >>> 10)
      extend n ((w16 + s0 + w7 + s1) :: ws)

/-- The 64 words of the schedule of a block. -/
def schedule (block : List UInt8) : List UInt32 :=
  (extend 48 (words block).reverse).reverse

/-- One round. -/
def round (s : State) (kw : UInt32 × UInt32) : State :=
  let s1 := rotate s.e 6 ^^^ rotate s.e 11 ^^^ rotate s.e 25
  let ch := (s.e &&& s.f) ^^^ ((~~~s.e) &&& s.g)
  let t1 := s.h + s1 + ch + kw.1 + kw.2
  let s0 := rotate s.a 2 ^^^ rotate s.a 13 ^^^ rotate s.a 22
  let maj := (s.a &&& s.b) ^^^ (s.a &&& s.c) ^^^ (s.b &&& s.c)
  ⟨t1 + s0 + maj, s.a, s.b, s.c, s.d + t1, s.e, s.f, s.g⟩

/-- Takes one block of 64 bytes into the hash. -/
def compress (s : State) (block : List UInt8) : State :=
  let r := (constants.zip (schedule block)).foldl round s
  ⟨s.a + r.a, s.b + r.b, s.c + r.c, s.d + r.d, s.e + r.e, s.f + r.f, s.g + r.g, s.h + r.h⟩

/-- The four bytes of a word, the highest first. -/
def wordBytes (w : UInt32) : List UInt8 :=
  [(w >>> 24).toUInt8, (w >>> 16).toUInt8, (w >>> 8).toUInt8, w.toUInt8]

/-- The bytes that fill a message of `length` bytes to whole blocks: a one bit, zeros, and the
length in bits. -/
def padding (length : Nat) : List UInt8 :=
  let bits := UInt64.ofNat (8 * length)
  let zeros : List UInt8 := List.replicate ((119 - length % 64) % 64) 0
  0x80 :: zeros ++ wordBytes (bits >>> 32).toUInt32 ++ wordBytes bits.toUInt32

/-- Takes at most `n` whole blocks into the hash. -/
def absorb : Nat → State → List UInt8 → State
  | 0, s, _ => s
  | n + 1, s, bytes =>
      if bytes.length < 64 then s else absorb n (compress s (bytes.take 64)) (bytes.drop 64)

/-- The hash of a message. -/
def digest (message : List UInt8) : List UInt8 :=
  let padded := message ++ padding message.length
  let s := absorb (padded.length / 64) initial padded
  [s.a, s.b, s.c, s.d, s.e, s.f, s.g, s.h].flatMap wordBytes

end Sha256

end RpcDaemon
