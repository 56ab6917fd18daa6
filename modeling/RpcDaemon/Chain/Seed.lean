import RpcDaemon.Net.Address

/-!
# Seed peers

Fixed peers come as version 6 addresses with ports. Each is given a time at which it was last
seen: a random moment between one and two weeks ago, so that fresher peers are preferred.
-/

namespace RpcDaemon

namespace Chain

/-- The seconds of a week. -/
def oneWeek : Nat := 604800

/-- A seed peer. -/
structure Seed where
  /-- Where the peer listens. -/
  endpoint : Net.Endpoint
  /-- When it was last seen, in seconds. -/
  lastSeen : Nat

/-- The address of a seed: a mapped address stands for its version 4 address. -/
def Seed.address (ip : Net.V6) : Net.Address :=
  if ip.isMapped then .v4 ip.tail else .v6 ip

/-- The seed peer at `ip` and `port`, last seen a week and `jitter` seconds before `now`. -/
def Seed.at (now jitter : Nat) (ip : Net.V6) (port : UInt16) : Seed :=
  ⟨⟨Seed.address ip, port⟩, now - jitter % oneWeek - oneWeek⟩

/-- Whether a seed was last seen between one and two weeks before `now`. -/
def Seed.inWindow (now : Nat) (s : Seed) : Bool :=
  decide (s.lastSeen ≤ now - oneWeek) &&
    (decide (now - 2 * oneWeek < s.lastSeen) || (s.lastSeen == 0 && decide (now < 2 * oneWeek)))

end Chain

end RpcDaemon
