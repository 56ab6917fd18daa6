import RpcDaemon.Files.Tree
import RpcDaemon.Tls.Ciphers
import RpcDaemon.Tls.Mode
import RpcDaemon.Tls.Pem
import RpcDaemon.Tls.PrivateKey

/-!
# Setting TLS up

An acceptor has cipher suites, certificates and a private key. It is built from a list of suites and
two files; if that fails, the listener still runs but drops every connection.
-/

namespace RpcDaemon

/-- Why a file gave nothing. -/
inductive ReadFault where
  /-- It could not be read. -/
  | file (e : FileError)
  /-- It is malformed. -/
  | pem (e : Pem.PemError)
deriving DecidableEq

/-- The wording of a fault. -/
def ReadFault.message : ReadFault → String
  | file e => e.message
  | pem e => e.message

/-- Why no acceptor could be built. -/
inductive TlsError where
  /-- The certificate file is missing. -/
  | missingCertificate (path : String)
  /-- The key file is missing. -/
  | missingPrivateKey (path : String)
  /-- A file could not be read. -/
  | unreadable (path : String) (fault : ReadFault)
  /-- The file holds no certificate. -/
  | noCertificates (path : String)
  /-- The file holds no private key. -/
  | noPrivateKey (path : String)
  /-- The list names no suite. -/
  | noCipherSuites (list : String)
  /-- The key cannot be used. -/
  | invalidKey
deriving DecidableEq

/-- The wording of an error. -/
def TlsError.message : TlsError → String
  | missingCertificate path => "missing server certificate file " ++ path
  | missingPrivateKey path => "missing server private key file " ++ path
  | unreadable path fault => "failed to read " ++ path ++ ": " ++ fault.message
  | noCertificates path => "no certificates found in " ++ path
  | noPrivateKey path => "no private key found in " ++ path
  | noCipherSuites list => "no usable cipher suites in '" ++ list ++ "'"
  | invalidKey => "TLS configuration rejected: unexpected error: invalid private key"

/-- What connections are encrypted with. -/
structure Acceptor where
  /-- The cipher suites. -/
  suites : List Tls.CipherSuite
  /-- The certificates, that of the server first. -/
  certificates : List (List UInt8)
  /-- The private key. -/
  key : List UInt8

namespace Acceptor

/-- The sections of a PEM file. -/
def sections (fs : Files) (path : String) : Except TlsError (List Pem.Section) :=
  match fs.read path with
  | .error e => .error (.unreadable path (.file e))
  | .ok bytes => (Pem.read bytes).mapError fun e => .unreadable path (.pem e)

/-- Whether a section has one of the given labels. -/
def hasLabel (labels : List String) (s : Pem.Section) : Bool :=
  labels.any fun l => Utf8.ofString l == s.label

/-- The certificates of a file. -/
def certificatesOf (fs : Files) (path : String) : Except TlsError (List (List UInt8)) :=
  if fs.contains path then
    match sections fs path with
    | .error e => .error e
    | .ok found =>
        match (found.filter (hasLabel ["CERTIFICATE"])).map fun s => s.bytes with
        | [] => .error (.noCertificates path)
        | certificates => .ok certificates
  else .error (.missingCertificate path)

/-- The labels of private keys. -/
def keyLabels : List String := ["PRIVATE KEY", "RSA PRIVATE KEY", "EC PRIVATE KEY"]

/-- The first private key of a file. -/
def keyOf (fs : Files) (path : String) : Except TlsError (List UInt8) :=
  if fs.contains path then
    match sections fs path with
    | .error e => .error e
    | .ok found =>
        match found.find? (hasLabel keyLabels) with
        | some s => .ok s.bytes
        | none => .error (.noPrivateKey path)
  else .error (.missingPrivateKey path)

/-- Builds an acceptor. -/
def build (fs : Files) (certificate key ciphers : String) : Except TlsError Acceptor :=
  match Tls.CipherSuite.ofList ciphers with
  | [] => .error (.noCipherSuites ciphers)
  | suites =>
      match certificatesOf fs certificate with
      | .error e => .error e
      | .ok certificates =>
          match keyOf fs key with
          | .error e => .error e
          | .ok key =>
              if PrivateKey.isUsable key then .ok ⟨suites, certificates, key⟩
              else .error .invalidKey

end Acceptor

/-- The mode of a listener for which an acceptor was asked. -/
def TlsMode.load (fs : Files) (certificate key ciphers : String) : TlsMode :=
  match Acceptor.build fs certificate key ciphers with
  | .ok _ => .enabled
  | .error _ => .unavailable

end RpcDaemon
