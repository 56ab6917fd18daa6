import RpcDaemon.Chain.Sha256
import RpcDaemon.Text.Hex

/-!
# Genesis blocks

The header of a first block, which follows no other and holds no transactions, and its hash.
-/

namespace RpcDaemon

namespace Chain

/-- The header of a first block. -/
structure Genesis where
  /-- Time of the block, in seconds. -/
  time : UInt32
  /-- Compact target. -/
  bits : UInt32
  /-- Nonce. -/
  nonce : UInt32
deriving DecidableEq

namespace Genesis

/-- The header version. -/
def version : UInt32 := 1

/-- The root of no transactions. -/
def merkleRoot : List UInt8 := List.replicate 32 0

/-- The bytes of a word, the lowest first. -/
def littleEndian (w : UInt32) : List UInt8 :=
  (Sha256.wordBytes w).reverse

/-- The header as it is hashed. -/
def header (g : Genesis) : List UInt8 :=
  littleEndian version ++ List.replicate 32 0 ++ merkleRoot ++ littleEndian g.time
    ++ littleEndian g.bits ++ littleEndian g.nonce

/-- The hash of the header, hashed twice. -/
def hash (g : Genesis) : List UInt8 :=
  Sha256.digest (Sha256.digest g.header)

/-- The hash as it is shown, last byte first. -/
def hashText (g : Genesis) : String :=
  Hex.encode g.hash.reverse

end Genesis

end Chain

end RpcDaemon
