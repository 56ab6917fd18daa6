import RpcDaemon.Settings.Basic
import RpcDaemon.Settings.Datum

/-!
# Reading settings

Settings from a JSON or a TOML text. Fields may be missing, and groups of them, and then have their
defaults; names that are not known are passed over, and a group of settings may also be written as a
list of its fields in order.
-/

namespace RpcDaemon

/-- The names of the network settings. -/
def networkFields : List String := ["testnet", "regtest", "network"]

/-- The network settings in a value. -/
def Chain.Selection.ofDatum? (strict : Bool) (d : Datum) : Option Chain.Selection :=
  match d.record? strict networkFields with
  | some [testnet, regtest, network] => do
      pure {
        testnet := ← Datum.orDefault false Datum.bool? testnet
        regtest := ← Datum.orDefault false Datum.bool? regtest
        network := ← Datum.orDefault none (Datum.optional? Datum.string?) network }
  | _ => none

/-- The names of the server settings. -/
def serverFields : List String :=
  ["user", "password", "allow_ips", "port", "threads", "ssl", "ssl_cert", "ssl_key", "ssl_ciphers",
    "disable_safe_mode", "max_body_bytes"]

/-- The server settings in a value. -/
def ServerSettings.ofDatum? (strict : Bool) (d : Datum) : Option ServerSettings :=
  match d.record? strict serverFields with
  | some [user, password, allowIps, port, threads, ssl, sslCert, sslKey, sslCiphers,
      disableSafeMode, maxBodyBytes] => do
      pure {
        user := ← Datum.orDefault "" Datum.string? user
        password := ← Datum.orDefault "" Datum.string? password
        allowIps := ← Datum.orDefault [] Datum.strings? allowIps
        port := ← Datum.orDefault none (Datum.optional? Datum.port?) port
        threads := ← Datum.orDefault defaultThreads Datum.count? threads
        ssl := ← Datum.orDefault false Datum.bool? ssl
        sslCert := ← Datum.orDefault defaultCert Datum.string? sslCert
        sslKey := ← Datum.orDefault defaultKey Datum.string? sslKey
        sslCiphers := ← Datum.orDefault defaultCiphers Datum.string? sslCiphers
        disableSafeMode := ← Datum.orDefault false Datum.bool? disableSafeMode
        maxBodyBytes := ← Datum.orDefault defaultMaxBody Datum.count? maxBodyBytes }
  | _ => none

/-- The names of the log settings. -/
def logFields : List String := ["filter", "json_format"]

/-- The log settings in a value. -/
def LogSettings.ofDatum? (strict : Bool) (d : Datum) : Option LogSettings :=
  match d.record? strict logFields with
  | some [filter, jsonFormat] => do
      pure {
        filter := ← Datum.orDefault none (Datum.optional? Datum.string?) filter
        jsonFormat := ← Datum.orDefault false Datum.bool? jsonFormat }
  | _ => none

namespace Settings

/-- The names of the groups of settings. -/
def fields : List String := ["data_dir", "network", "rpc", "logging"]

/-- The settings in a value. -/
def ofDatum? (strict : Bool) (d : Datum) : Option Settings :=
  match d.record? strict fields with
  | some [dataDir, network, rpc, logging] => do
      pure {
        dataDir := ← Datum.orDefault defaultDataDir Datum.string? dataDir
        network := ← Datum.orDefault Settings.default.network
          (Chain.Selection.ofDatum? strict) network
        rpc := ← Datum.orDefault Settings.default.rpc (ServerSettings.ofDatum? strict) rpc
        logging := ← Datum.orDefault Settings.default.logging (LogSettings.ofDatum? strict) logging }
  | _ => none

/-- The settings that a JSON text gives. -/
def ofJson? (text : String) : Option Settings :=
  match Json.Document.read? text.length text.toList with
  | some d => ofDatum? true (.ofJson d)
  | none => none

/-- The settings that a TOML text gives. -/
def ofToml? (text : String) : Option Settings :=
  match Toml.read? text with
  | some entries => ofDatum? false (.ofToml (.table .header entries))
  | none => none

end Settings

end RpcDaemon
