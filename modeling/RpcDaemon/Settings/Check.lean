import RpcDaemon.Settings.Basic
import RpcDaemon.Settings.Error

/-!
# Checking settings

The rules that settings have to meet before a server is started with them.
-/

namespace RpcDaemon

namespace ServerSettings

/-- There is a worker thread, and bodies may have a length. -/
def validate (s : ServerSettings) : Except SettingsError Unit :=
  if s.threads = 0 then .error (.invalidValue "rpcthreads" "0")
  else if s.maxBodyBytes = 0 then .error (.invalidValue "max_body_bytes" "0")
  else .ok ()

/-- There is a usable password where one is required. `path` and `suggestion` are for the message. -/
def checkCredentials (s : ServerSettings) (required : Bool) (path suggestion : String) :
    Except SettingsError Unit :=
  if required && !s.hasUsablePassword then .error (.credentials path suggestion) else .ok ()

end ServerSettings

end RpcDaemon
