import RpcDaemon.Json.Document
import RpcDaemon.Settings.Basic
import RpcDaemon.Settings.Error
import RpcDaemon.Toml.Document

/-!
# Writing settings

Settings as a JSON and as a TOML document, fields in a fixed order. A field that is not set is left
out. TOML has signed integers of 64 bits only, so greater numbers cannot be written.
-/

namespace RpcDaemon

/-- A field that may not be set. -/
def optionalField {α β : Type} (name : String) (write : α → β) : Option α → List (String × β)
  | some a => [(name, write a)]
  | none => []

/-! ## JSON -/

/-- The network settings as JSON. -/
def Chain.Selection.jsonFields (s : Chain.Selection) : List (String × Json.Document) :=
  [("testnet", .bool s.testnet), ("regtest", .bool s.regtest)]
    ++ optionalField "network" Json.Document.ofString s.network

/-- The server settings as JSON. -/
def ServerSettings.jsonFields (s : ServerSettings) : List (String × Json.Document) :=
  [("user", .ofString s.user), ("password", .ofString s.password),
    ("allow_ips", .array (s.allowIps.map Json.Document.ofString))]
    ++ optionalField "port" (fun p => Json.Document.ofInt p.toNat) s.port
    ++ [("threads", .ofInt s.threads.toNat), ("ssl", .bool s.ssl),
      ("ssl_cert", .ofString s.sslCert), ("ssl_key", .ofString s.sslKey),
      ("ssl_ciphers", .ofString s.sslCiphers), ("disable_safe_mode", .bool s.disableSafeMode),
      ("max_body_bytes", .ofInt s.maxBodyBytes.toNat)]

/-- The log settings as JSON. -/
def LogSettings.jsonFields (s : LogSettings) : List (String × Json.Document) :=
  optionalField "filter" Json.Document.ofString s.filter ++ [("json_format", .bool s.jsonFormat)]

/-- The settings as JSON. -/
def Settings.jsonFields (s : Settings) : List (String × Json.Document) :=
  [("data_dir", .ofString s.dataDir), ("network", .ofFields s.network.jsonFields),
    ("rpc", .ofFields s.rpc.jsonFields), ("logging", .ofFields s.logging.jsonFields)]

/-- The settings as a JSON document. -/
def Settings.jsonDocument (s : Settings) : Json.Document :=
  .ofFields s.jsonFields

/-- The JSON text of settings. -/
def Settings.json (s : Settings) : String :=
  s.jsonDocument.pretty

/-- Writes settings as a JSON file. -/
def Settings.saveJson (s : Settings) (fs : Files) (path : String) : Except FileError Files :=
  fs.write path (Utf8.ofString s.json)

/-! ## TOML -/

/-- The network settings as TOML. -/
def Chain.Selection.tomlFields (s : Chain.Selection) : Toml.Fields :=
  [("testnet", .boolean s.testnet), ("regtest", .boolean s.regtest)]
    ++ optionalField "network" Toml.Written.string s.network

/-- A number as a TOML integer. -/
def tomlCount (n : UInt64) : Toml.Written :=
  .integer (Int64.ofInt n.toNat)

/-- The server settings as TOML. -/
def ServerSettings.tomlFields (s : ServerSettings) : Toml.Fields :=
  [("user", .string s.user), ("password", .string s.password), ("allow_ips", .strings s.allowIps)]
    ++ optionalField "port" (fun p => Toml.Written.integer (Int64.ofInt p.toNat)) s.port
    ++ [("threads", tomlCount s.threads), ("ssl", .boolean s.ssl), ("ssl_cert", .string s.sslCert),
      ("ssl_key", .string s.sslKey), ("ssl_ciphers", .string s.sslCiphers),
      ("disable_safe_mode", .boolean s.disableSafeMode),
      ("max_body_bytes", tomlCount s.maxBodyBytes)]

/-- The log settings as TOML. -/
def LogSettings.tomlFields (s : LogSettings) : Toml.Fields :=
  optionalField "filter" Toml.Written.string s.filter ++ [("json_format", .boolean s.jsonFormat)]

/-- The settings as a TOML document. -/
def Settings.tomlDocument (s : Settings) : Toml.Document where
  root := [("data_dir", .string s.dataDir)]
  tables :=
    [("network", s.network.tomlFields), ("rpc", s.rpc.tomlFields),
      ("logging", s.logging.tomlFields)]

/-- Whether every number of some server settings is a signed integer of 64 bits. -/
def ServerSettings.fitsToml (s : ServerSettings) : Bool :=
  s.threads.toNat < 9223372036854775808 && s.maxBodyBytes.toNat < 9223372036854775808

/-- The TOML text of settings, if they can be written. -/
def Settings.toml (s : Settings) : Except SettingsError String :=
  if s.rpc.fitsToml then .ok s.tomlDocument.text else .error .outOfRange

end RpcDaemon
