/-!
# Private keys

Which byte strings are private keys that a server can sign with: RSA keys, keys on two elliptic
curves, and Ed25519 keys, bare or wrapped in PKCS #8. The structure of the key is checked, and for
RSA that the modulus is the product of the primes; whether a point belongs to its secret is not.
-/

namespace RpcDaemon

namespace Der

/-- An element: its tag and its content. -/
structure Element where
  /-- The tag. -/
  tag : UInt8
  /-- The content. -/
  content : List UInt8
deriving DecidableEq

/-- The length at the front of a byte string, in its shortest form and below 65536. -/
def length? : List UInt8 → Option (Nat × List UInt8)
  | b :: rest =>
      if b < 0x80 then some (b.toNat, rest)
      else if b = 0x81 then
        match rest with
        | c :: rest => if 0x80 ≤ c then some (c.toNat, rest) else none
        | [] => none
      else if b = 0x82 then
        match rest with
        | c :: d :: rest => if c = 0 then none else some (c.toNat * 256 + d.toNat, rest)
        | _ => none
      else none
  | [] => none

/-- The element at the front of a byte string and what follows it. -/
def element? : List UInt8 → Option (Element × List UInt8)
  | tag :: rest =>
      match length? rest with
      | some (n, rest) =>
          if n ≤ rest.length then some (⟨tag, rest.take n⟩, rest.drop n) else none
      | none => none
  | [] => none

/-- The elements that make up a byte string; `fuel` bounds their number. -/
def elementsFrom? : Nat → List UInt8 → Option (List Element)
  | _, [] => some []
  | 0, _ :: _ => none
  | fuel + 1, bytes =>
      match element? bytes with
      | some (e, rest) => (elementsFrom? fuel rest).map (e :: ·)
      | none => none

/-- The elements that make up a byte string. -/
def elements? (bytes : List UInt8) : Option (List Element) :=
  elementsFrom? bytes.length bytes

/-- The elements of the sequence that a byte string is. -/
def sequence? (bytes : List UInt8) : Option (List Element) :=
  match elements? bytes with
  | some [e] => if e.tag = 0x30 then elements? e.content else none
  | _ => none

/-- The number that an element writes, unless it is negative or too long. -/
def Element.nat? (e : Element) : Option Nat :=
  match e.content with
  | [] => none
  | b :: rest =>
      if e.tag ≠ 2 ∨ 0x80 ≤ b then none
      else if b = 0 ∧ rest.head?.any (· < 0x80) then none
      else some (e.content.foldl (fun n b => n * 256 + b.toNat) 0)

end Der

namespace PrivateKey

/-- The algorithm of RSA keys: its name and no parameters. -/
def rsaAlgorithm : List UInt8 :=
  [0x06, 0x09, 0x2A, 0x86, 0x48, 0x86, 0xF7, 0x0D, 0x01, 0x01, 0x01, 0x05, 0x00]

/-- The name of the algorithm of keys on elliptic curves. -/
def curveAlgorithm : List UInt8 := [0x06, 0x07, 0x2A, 0x86, 0x48, 0xCE, 0x3D, 0x02, 0x01]

/-- The name of the algorithm of Ed25519 keys. -/
def edAlgorithm : List UInt8 := [0x06, 0x03, 0x2B, 0x65, 0x70]

/-- An elliptic curve: its name and the number of bytes of a coordinate. -/
structure Curve where
  /-- The name. -/
  name : List UInt8
  /-- The number of bytes of a coordinate. -/
  size : Nat

/-- The two curves that can be used, of 256 and of 384 bits. -/
def curves : List Curve :=
  [⟨[0x06, 0x08, 0x2A, 0x86, 0x48, 0xCE, 0x3D, 0x03, 0x01, 0x07], 32⟩,
    ⟨[0x06, 0x05, 0x2B, 0x81, 0x04, 0x00, 0x22], 48⟩]

/-- The key within a wrapping of PKCS #8 for the given algorithm. -/
def unwrap? (algorithm bytes : List UInt8) : Option (List UInt8) :=
  match Der.sequence? bytes with
  | some (version :: a :: key :: _) =>
      if version.tag = 2 ∧ (version.content = [0] ∨ version.content = [1]) ∧ a.tag = 0x30
          ∧ a.content = algorithm ∧ key.tag = 4 then
        some key.content
      else none
  | _ => none

/-- Whether a byte string is an RSA key of a usable size. -/
def isRsa (bytes : List UInt8) : Bool :=
  match (Der.sequence? bytes).bind fun es => es.mapM Der.Element.nat? with
  | some [version, n, e, d, p, q, dp, dq, qInv] =>
      version == 0 && n == p * q && decide (Nat.pow 2 2047 ≤ n) && decide (n < Nat.pow 2 4096)
        && e % 2 == 1 && decide (3 ≤ e) && decide (0 < d) && decide (d < n) && decide (0 < dp)
        && decide (dp < p) && decide (0 < dq) && decide (dq < q) && decide (0 < qInv)
        && decide (qInv < p)
  | _ => false

/-- Whether a byte string is a secret number of a curve with its point. -/
def isOnCurve (c : Curve) (bytes : List UInt8) : Bool :=
  match Der.sequence? bytes with
  | some (version :: secret :: more) =>
      let point := more.filter fun e => e.tag != 0xA0
      let parameters := more.filter fun e => e.tag == 0xA0
      version == ⟨2, [1]⟩ && secret.tag == 4 && secret.content.length == c.size
        && secret.content.any (· != 0) && parameters.all (fun e => e.content == c.name)
        && match point with
          | [p] =>
              p.tag == 0xA1
                && (match Der.element? p.content with
                  | some (⟨3, bits⟩, []) =>
                      bits.take 2 == [0, 4] && bits.length == 2 * c.size + 2
                  | _ => false)
          | _ => false
  | _ => false

/-- Whether a byte string holds the seed of an Ed25519 key. -/
def isSeed (bytes : List UInt8) : Bool :=
  match Der.element? bytes with
  | some (⟨4, seed⟩, []) => seed.length == 32
  | _ => false

/-- Whether a server can sign with a key. -/
def isUsable (bytes : List UInt8) : Bool :=
  isRsa bytes || ((unwrap? rsaAlgorithm bytes).any isRsa)
    || (curves.any fun c => isOnCurve c bytes
      || (unwrap? (curveAlgorithm ++ c.name) bytes).any (isOnCurve c))
    || ((unwrap? edAlgorithm bytes).any isSeed)

end PrivateKey

end RpcDaemon
