import RpcDaemon.Net.Address

/-!
# Listening

Where a server listens on its port: at loopback addresses, or at all of them. Version 6 comes first.
Version 4 is added for loopback, where version 6 is refused, and where it could not be chosen whether
the socket of version 6 serves version 4 too.
-/

namespace RpcDaemon

namespace Net.Endpoint

/-- The place of version 6 to listen at: the loopback address or all addresses. -/
def six (port : UInt16) (loopback : Bool) : Endpoint :=
  ⟨.v6 (if loopback then .localhost else ⟨0, 0, 0, 0, 0, 0, 0, 0⟩), port⟩

/-- The place of version 4 to listen at. -/
def four (port : UInt16) (loopback : Bool) : Endpoint :=
  ⟨.v4 (if loopback then ⟨127, 0, 0, 1⟩ else ⟨0, 0, 0, 0⟩), port⟩

end Net.Endpoint

/-- What a machine does when it is asked to listen somewhere. -/
structure Machine where
  /-- Listens at a place, for version 6 only or not, or refuses. The answer is true if the choice
  about version 6 could not be made. -/
  listen? : Net.Endpoint → Bool → Option Bool

namespace Machine

/-- Listens at the place of version 4, if the machine grants it. -/
def bindFour (m : Machine) (port : UInt16) (loopback : Bool) : List Net.Endpoint :=
  if (m.listen? (.four port loopback) false).isSome then [.four port loopback] else []

/-- Listens at the places of a port that the machine grants. -/
def bind (m : Machine) (port : UInt16) (loopback : Bool) : List Net.Endpoint :=
  match m.listen? (.six port loopback) loopback with
  | some unchosen =>
      .six port loopback :: if loopback || unchosen then m.bindFour port loopback else []
  | none => m.bindFour port loopback

end Machine

end RpcDaemon
