import RpcDaemon.Settings.ConfFile
import RpcDaemon.Settings.Reading

/-!
# Loading settings

Settings from a file, whose format follows from its extension, or from a conf file of any name.
-/

namespace RpcDaemon

namespace Settings

/-- The formats of settings files. -/
inductive Format where
  /-- Lines of keys and values. -/
  | conf
  /-- TOML. -/
  | toml
  /-- JSON. -/
  | json
deriving DecidableEq

/-- The format that an extension stands for. -/
def Format.ofExtension? (s : String) : Option Format :=
  if s = "conf" then some .conf
  else if s = "toml" then some .toml
  else if s = "json" then some .json
  else none

/-- The text of a settings file. -/
def readFile (fs : Files) (path : String) : Except SettingsError String :=
  (fs.readText path).mapError fun e => .unreadable path e

/-- The settings that a text in a format gives; `path` is where it comes from. -/
def ofText (format : Format) (path text : String) : Except SettingsError Settings :=
  let orMalformed (s : Option Settings) : Except SettingsError Settings :=
    match s with
    | some s => .ok s
    | none => .error (.malformed path)
  match format with
  | .conf => (ConfFile.parse text).map fun i => i.settings
  | .toml => orMalformed (ofToml? text)
  | .json => orMalformed (ofJson? text)

/-- Loads a conf file of any name. -/
def loadConf (fs : Files) (path : String) : Except SettingsError Settings :=
  match readFile fs path with
  | .ok text => ofText .conf path text
  | .error e => .error e

/-- Loads a file by its extension. -/
def load (fs : Files) (path : String) : Except SettingsError Settings :=
  match Format.ofExtension? (Path.extension path) with
  | none => .error (.unsupportedFormat path)
  | some format =>
      match readFile fs path with
      | .ok text => ofText format path text
      | .error e => .error e

end Settings

end RpcDaemon
