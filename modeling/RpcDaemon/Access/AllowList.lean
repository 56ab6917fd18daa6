import RpcDaemon.Net.Address
import RpcDaemon.Text.Glob

/-!
# Client filter

Which peers may talk to the server: the machine itself always, and every address whose text is
covered by one of the configured patterns. Addresses are judged in their normal form.
-/

namespace RpcDaemon

/-- The patterns of the client filter. -/
structure AllowList where
  /-- The glob patterns, as configured. -/
  patterns : List String

namespace AllowList

/-- Whether no pattern is configured, so that only the machine itself is served. -/
def isEmpty (l : AllowList) : Bool :=
  l.patterns.isEmpty

/-- Whether a client with this address may connect. -/
def allows (l : AllowList) (ip : Net.Address) : Bool :=
  let ip := ip.normalize
  ip.isLoopback || l.patterns.any fun p => Glob.covers p ip.text

end AllowList

end RpcDaemon
