import RpcDaemon.Text.Blank

/-!
# Cipher suites

The suites that can be offered, and the reading of a list of suite names with colons between them.
-/

namespace RpcDaemon

namespace Tls

/-- A cipher suite: three of TLS 1.3, and six of TLS 1.2 with ephemeral keys. -/
inductive CipherSuite where
  | tls13Aes256
  | tls13Aes128
  | tls13ChaCha20
  | ecdsaAes256
  | ecdsaAes128
  | ecdsaChaCha20
  | rsaAes256
  | rsaAes128
  | rsaChaCha20
deriving DecidableEq

namespace CipherSuite

/-- All suites, the preferred ones first. -/
def all : List CipherSuite :=
  [tls13Aes256, tls13Aes128, tls13ChaCha20, ecdsaAes256, ecdsaAes128, ecdsaChaCha20, rsaAes256,
    rsaAes128, rsaChaCha20]

/-- The name of a suite. -/
def name : CipherSuite → String
  | tls13Aes256 => "TLS13_AES_256_GCM_SHA384"
  | tls13Aes128 => "TLS13_AES_128_GCM_SHA256"
  | tls13ChaCha20 => "TLS13_CHACHA20_POLY1305_SHA256"
  | ecdsaAes256 => "TLS_ECDHE_ECDSA_WITH_AES_256_GCM_SHA384"
  | ecdsaAes128 => "TLS_ECDHE_ECDSA_WITH_AES_128_GCM_SHA256"
  | ecdsaChaCha20 => "TLS_ECDHE_ECDSA_WITH_CHACHA20_POLY1305_SHA256"
  | rsaAes256 => "TLS_ECDHE_RSA_WITH_AES_256_GCM_SHA384"
  | rsaAes128 => "TLS_ECDHE_RSA_WITH_AES_128_GCM_SHA256"
  | rsaChaCha20 => "TLS_ECDHE_RSA_WITH_CHACHA20_POLY1305_SHA256"

/-- The suite with the given name, in any case. -/
def ofName? (s : String) : Option CipherSuite :=
  all.find? fun c => sameIgnoringCase c.name s

/-- The suites that the pieces of a list name, each at the place where it is named first. -/
def collect (suites : List CipherSuite) : List (List Char) → List CipherSuite
  | [] => suites
  | piece :: rest =>
      match ofName? (String.ofList (Chars.trim piece)) with
      | some c => collect (if c ∈ suites then suites else suites ++ [c]) rest
      | none => collect suites rest

/-- The suites that a list names; names that are not known are passed over. -/
def ofList (list : String) : List CipherSuite :=
  collect [] (Chars.splitOn ':' list.toList)

end CipherSuite

end Tls

end RpcDaemon
