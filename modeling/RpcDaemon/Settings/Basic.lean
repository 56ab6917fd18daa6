import RpcDaemon.Chain.Registry

/-!
# Settings

What can be configured: where data is kept, which network is used, how the server listens and whom
it serves, and what is logged. Every setting has a default.
-/

namespace RpcDaemon

/-- The settings of the server. -/
structure ServerSettings where
  /-- The user. -/
  user : String
  /-- The password. -/
  password : String
  /-- The patterns of the peers that may connect. -/
  allowIps : List String
  /-- The port, if it is not that of the network. -/
  port : Option UInt16
  /-- The number of worker threads. -/
  threads : UInt64
  /-- Whether connections are encrypted. -/
  ssl : Bool
  /-- Path of the certificate. -/
  sslCert : String
  /-- Path of the private key. -/
  sslKey : String
  /-- The cipher suites. -/
  sslCiphers : String
  /-- Whether commands run in spite of warnings. -/
  disableSafeMode : Bool
  /-- The greatest length of a request body. -/
  maxBodyBytes : UInt64
deriving DecidableEq

/-- The settings of the log. -/
structure LogSettings where
  /-- Which messages are logged, if that is given. -/
  filter : Option String
  /-- Whether messages are written as JSON. -/
  jsonFormat : Bool
deriving DecidableEq

/-- All settings. -/
structure Settings where
  /-- The directory of all data. -/
  dataDir : String
  /-- The network that is asked for. -/
  network : Chain.Selection
  /-- The settings of the server. -/
  rpc : ServerSettings
  /-- The settings of the log. -/
  logging : LogSettings
deriving DecidableEq

/-- The cipher suites used unless others are given. -/
def defaultCiphers : String :=
  "TLS13_AES_256_GCM_SHA384:TLS13_AES_128_GCM_SHA256:" ++
    "TLS13_CHACHA20_POLY1305_SHA256:TLS_ECDHE_ECDSA_WITH_AES_256_GCM_SHA384:" ++
    "TLS_ECDHE_ECDSA_WITH_AES_128_GCM_SHA256:TLS_ECDHE_ECDSA_WITH_CHACHA20_POLY1305_SHA256:" ++
    "TLS_ECDHE_RSA_WITH_AES_256_GCM_SHA384:TLS_ECDHE_RSA_WITH_AES_128_GCM_SHA256:" ++
    "TLS_ECDHE_RSA_WITH_CHACHA20_POLY1305_SHA256"

/-- The number of worker threads unless another is given. -/
def defaultThreads : UInt64 := 4

/-- The path of the certificate unless another is given. -/
def defaultCert : String := "server.cert"

/-- The path of the private key unless another is given. -/
def defaultKey : String := "server.pem"

/-- The greatest length of a request body unless another is given. -/
def defaultMaxBody : UInt64 := 33554432

/-- The directory of all data unless another is given. -/
def defaultDataDir : String := ".clam"

/-- The server settings that hold unless others are given. -/
def ServerSettings.default : ServerSettings where
  user := ""
  password := ""
  allowIps := []
  port := none
  threads := defaultThreads
  ssl := false
  sslCert := defaultCert
  sslKey := defaultKey
  sslCiphers := defaultCiphers
  disableSafeMode := false
  maxBodyBytes := defaultMaxBody

/-- The log settings that hold unless others are given. -/
def LogSettings.default : LogSettings := ⟨none, false⟩

/-- The settings that hold unless others are given. -/
def Settings.default : Settings where
  dataDir := defaultDataDir
  network := ⟨false, false, none⟩
  rpc := .default
  logging := .default

namespace ServerSettings

/-- The port to listen on. -/
def portFor (s : ServerSettings) (p : Chain.Profile) : UInt16 :=
  s.port.getD p.rpcPort

/-- The paths of the certificate and of the key below the directory of the network. -/
def tlsPaths (s : ServerSettings) (networkDir : String) : String × String :=
  (Path.resolve networkDir s.sslCert, Path.resolve networkDir s.sslKey)

/-- Whether the password is set and differs from the user. -/
def hasUsablePassword (s : ServerSettings) : Bool :=
  !s.password.isEmpty && s.password != s.user

end ServerSettings

end RpcDaemon
