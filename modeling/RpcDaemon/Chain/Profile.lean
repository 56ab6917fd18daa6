import RpcDaemon.Chain.Genesis
import RpcDaemon.Chain.Target
import RpcDaemon.Files.Path

/-!
# Network profiles

The constants of the three networks. The test network is the main one with some constants
replaced, and the regression network replaces some of the test network's.
-/

namespace RpcDaemon

namespace Chain

/-- One of the networks. -/
inductive Network where
  /-- The main network. -/
  | main
  /-- The test network. -/
  | test
  /-- The regression network. -/
  | regtest
deriving DecidableEq

/-- The name of a network. -/
def Network.name : Network → String
  | main => "main"
  | test => "test"
  | regtest => "regtest"

/-- The network with the given name, in any case; each network has a long name too. -/
def Network.ofName? (s : String) : Option Network :=
  let t := lowered s
  if t = "main" ∨ t = "mainnet" then some .main
  else if t = "test" ∨ t = "testnet" then some .test
  else if t = "regtest" ∨ t = "regression" then some .regtest
  else none

/-- The bytes that mark encoded addresses and keys. -/
structure AddressMarks where
  /-- Addresses of public keys. -/
  pubkey : UInt8
  /-- Addresses of scripts. -/
  script : UInt8
  /-- Private keys. -/
  secret : UInt8
  /-- Private keys of a first foreign format. -/
  secretBtc : UInt8
  /-- Private keys of a second foreign format. -/
  secretLtc : UInt8
  /-- Private keys of a third foreign format. -/
  secretDoge : UInt8
  /-- Extended public keys. -/
  extPublic : List UInt8
  /-- Extended private keys. -/
  extSecret : List UInt8

/-- The constants of a network. -/
structure Profile where
  /-- The network. -/
  network : Network
  /-- The bytes that start every peer message. -/
  messageStart : List UInt8
  /-- The key that signs alerts, in hexadecimal. -/
  alertKey : String
  /-- The port of the peer protocol. -/
  defaultPort : UInt16
  /-- The port of the RPC server. -/
  rpcPort : UInt16
  /-- The easiest target. -/
  powLimit : Target
  /-- The bytes that mark encoded addresses and keys. -/
  marks : AddressMarks
  /-- The first block. -/
  genesis : Genesis
  /-- Host names that give peers. -/
  dnsSeeds : List String
  /-- Subdirectory of the data directory; empty for none. -/
  dataDir : String
  /-- Whether the server refuses to start without a password. -/
  requiresPassword : Bool

namespace Profile

/-- The main network. -/
def main : Profile where
  network := .main
  messageStart := [0x02, 0x22, 0x35, 0x15]
  alertKey :=
    "044a872af7f5530746e958ab0aae3ef949ed3ca536b5feeb3d84ce22814ae34e10bfdd1cd85937dd01c3097d45fe8be1ef97ab787b5363474c9f39dd76c6bd2263"
  defaultPort := 31184
  rpcPort := 30184
  powLimit := Target.shifted 20
  marks := ⟨137, 13, 133, 128, 176, 158, [0x04, 0x88, 0xB2, 0x1E], [0x04, 0x88, 0xAD, 0xE4]⟩
  genesis := ⟨1397512438, (Target.shifted 20).compact, 2054231⟩
  dnsSeeds := ["seed.willmathforcrypto.com"]
  dataDir := ""
  requiresPassword := true

/-- The test network. -/
def test : Profile :=
  { main with
    network := .test
    messageStart := [0xC3, 0xF1, 0xC0, 0xDF]
    powLimit := Target.shifted 16
    defaultPort := 35724
    rpcPort := 35725
    dataDir := "testnet"
    genesis := ⟨1397512438, (Target.shifted 16).compact, 15165⟩
    dnsSeeds := []
    marks :=
      { main.marks with
        pubkey := 111
        script := 196
        secret := 239
        extPublic := [0x04, 0x35, 0x87, 0xCF]
        extSecret := [0x04, 0x35, 0x83, 0x94] } }

/-- The regression network. -/
def regtest : Profile :=
  { test with
    network := .regtest
    messageStart := [0xF9, 0xBF, 0xB5, 0xDA]
    powLimit := Target.shifted 1
    genesis := ⟨1411111111, (Target.shifted 1).compact, 2⟩
    defaultPort := 18445
    dataDir := "regtest"
    requiresPassword := false }

/-- The profile of a network. -/
def of : Network → Profile
  | .main => main
  | .test => test
  | .regtest => regtest

/-- The data directory of the network below `base`. -/
def dataDirIn (p : Profile) (base : String) : String :=
  if p.dataDir.isEmpty then base else Path.join base p.dataDir

end Profile

end Chain

end RpcDaemon
