import RpcDaemon.Chain.Registry
import RpcDaemon.Files.Tree

/-!
# Errors of settings

Why settings could not be read, are refused, or cannot be written, and how that is worded.
-/

namespace RpcDaemon

/-- What is wrong with settings. -/
inductive SettingsError where
  /-- The file could not be read. -/
  | unreadable (path : String) (cause : FileError)
  /-- The file is not written in its format, or holds values that do not fit. -/
  | malformed (path : String)
  /-- The extension of the file stands for no format. -/
  | unsupportedFormat (path : String)
  /-- A value does not fit its key. -/
  | invalidValue (key value : String)
  /-- The password is missing or equals the user; a new one is suggested. -/
  | credentials (path suggestion : String)
  /-- A number is too large to be written. -/
  | outOfRange
  /-- The network could not be chosen. -/
  | network (cause : Chain.SelectError)
deriving DecidableEq

namespace SettingsError

/-- The text that asks for a password. -/
def credentialsText (path suggestion : String) : String :=
  "To use clamd, you must set a rpcpassword in the configuration file:\n" ++ path
    ++ "\nIt is recommended you use the following random password:\n"
    ++ "rpcuser=clamrpc\n" ++ "rpcpassword=" ++ suggestion
    ++ "\n(you do not need to remember this password)\n"
    ++ "The username and password MUST NOT be the same.\n"
    ++ "If the file does not exist, create it with owner-readable-only file permissions."

/-- The wording of an error. -/
def message : SettingsError → String
  | unreadable path cause => "failed to read " ++ path ++ ": " ++ cause.message
  | malformed path => "failed to parse " ++ path
  | unsupportedFormat path => "unsupported config file format: " ++ path
  | invalidValue key value => "invalid value for " ++ key ++ ": '" ++ value ++ "'"
  | credentials path suggestion => credentialsText path suggestion
  | outOfRange => "failed to serialize config: out-of-range value for u64 type"
  | network cause => cause.message

/-- The wording of an error and of what caused it. -/
def chain : SettingsError → List String
  | unreadable path cause => [(unreadable path cause).message, cause.message]
  | e => [e.message]

end SettingsError

end RpcDaemon
