import RpcDaemon.Settings.Basic

/-!
# Overrides

Values that are given on the command line go over those of a file. Switches can only be turned on,
and patterns of peers are added unless they are there already.
-/

namespace RpcDaemon

/-- Values that go over settings. -/
structure Overrides where
  /-- The directory of all data. -/
  dataDir : Option String
  /-- Whether the test network is asked for. -/
  testnet : Bool
  /-- Whether the regression network is asked for. -/
  regtest : Bool
  /-- The user. -/
  user : Option String
  /-- The password. -/
  password : Option String
  /-- The port. -/
  port : Option UInt16
  /-- Patterns of peers. -/
  allowIps : List String
  /-- The number of worker threads. -/
  threads : Option UInt64
  /-- Whether connections are encrypted. -/
  ssl : Bool
  /-- Whether commands run in spite of warnings. -/
  disableSafeMode : Bool
  /-- Which messages are logged. -/
  logFilter : Option String
  /-- Whether messages are written as JSON. -/
  logJson : Bool
deriving DecidableEq

namespace Overrides

/-- Nothing is given. -/
def empty : Overrides :=
  ⟨none, false, false, none, none, none, [], none, false, false, none, false⟩

/-- Adds the patterns that are not there yet, each once. -/
def addPatterns (patterns : List String) : List String → List String
  | [] => patterns
  | p :: rest => addPatterns (if p ∈ patterns then patterns else patterns ++ [p]) rest

end Overrides

/-- The settings with values given on the command line. -/
def Settings.override (s : Settings) (o : Overrides) : Settings where
  dataDir := o.dataDir.getD s.dataDir
  network :=
    { s.network with
      testnet := s.network.testnet || o.testnet
      regtest := s.network.regtest || o.regtest }
  rpc :=
    { s.rpc with
      user := o.user.getD s.rpc.user
      password := o.password.getD s.rpc.password
      port := o.port.or s.rpc.port
      allowIps := Overrides.addPatterns s.rpc.allowIps o.allowIps
      threads := o.threads.getD s.rpc.threads
      ssl := s.rpc.ssl || o.ssl
      disableSafeMode := s.rpc.disableSafeMode || o.disableSafeMode }
  logging :=
    { filter := o.logFilter.or s.logging.filter
      jsonFormat := s.logging.jsonFormat || o.logJson }

end RpcDaemon
