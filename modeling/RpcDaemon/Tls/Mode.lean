/-!
# TLS modes

How a listener treats TLS.
-/

namespace RpcDaemon

/-- How the listener treats TLS. -/
inductive TlsMode where
  /-- Connections are plain. -/
  | disabled
  /-- Connections are encrypted. -/
  | enabled
  /-- TLS was asked for and cannot be had; connections are dropped. -/
  | unavailable
deriving DecidableEq

namespace TlsMode

/-- The name of a mode. -/
def name : TlsMode → String
  | disabled => "Disabled"
  | enabled => "Enabled"
  | unavailable => "Unavailable"

/-- Whether TLS was asked for. -/
def isTls : TlsMode → Bool
  | disabled => false
  | _ => true

end TlsMode

end RpcDaemon
