import RpcDaemon.Chain.Registry
import RpcDaemon.Decimal.Binary64

/-!
# The node

What the commands see of the node: the choice of the network, the tip of the chain, the wallet if
one is loaded, the warnings, and whether the node has been asked to shut down.
-/

namespace RpcDaemon

/-- The tip of the chain and the peers. -/
structure ChainView where
  /-- Number of blocks after the first. -/
  blocks : UInt64
  /-- Hash of the last block, as shown. -/
  bestHash : String
  /-- Difficulty of the last block. -/
  difficulty : Binary64
  /-- Number of peers. -/
  connections : UInt64
  /-- Offset of the peers' time, in seconds. -/
  timeOffset : Int64

/-- A chain that holds the first block only. -/
def ChainView.genesis (p : Chain.Profile) : ChainView :=
  ⟨0, p.genesis.hashText, Chain.difficulty p.genesis.bits, 0, 0⟩

/-- What is told about a wallet. -/
structure Wallet where
  /-- Version of the wallet. -/
  version : UInt32
  /-- Spendable amount in base units. -/
  balance : Int64
  /-- Number of keys in store. -/
  keyPool : UInt64
  /-- When the wallet locks again, if it is encrypted. -/
  unlockedUntil : Option Int64

/-- For whom a warning is meant. -/
inductive WarningKind where
  /-- The dispatcher, before commands that are not safe. -/
  | rpc
  /-- A person who reads the status. -/
  | statusBar
deriving DecidableEq

/-- Where warnings come from. -/
inductive Warnings where
  /-- One text for every kind, which can be set. -/
  | board (text : String)
  /-- A text for each kind, given once and for all. -/
  | fixed (rpc statusBar : String)

namespace Warnings

/-- The warning of a kind, empty if there is none. -/
def text (w : Warnings) : WarningKind → String
  | .rpc => match w with
    | board t => t
    | fixed t _ => t
  | .statusBar => match w with
    | board t => t
    | fixed _ t => t

/-- Sets the text of a board. -/
def set (w : Warnings) (text : String) : Warnings :=
  match w with
  | board _ => board text
  | fixed r s => fixed r s

end Warnings

/-- The state of the node. -/
structure Node where
  /-- The choice of the network. -/
  registry : Chain.Registry
  /-- The chain. -/
  chain : ChainView
  /-- The wallet, if one is loaded. -/
  wallet : Option Wallet
  /-- The warnings. -/
  warnings : Warnings
  /-- Whether commands run in spite of warnings. -/
  safeModeDisabled : Bool
  /-- Whether the node has been asked to shut down. -/
  shutdown : Bool

namespace Node

/-- A node with the first block of the active network, no wallet and no warnings. -/
def fresh (r : Chain.Registry) : Node where
  registry := r
  chain := ChainView.genesis r.profile
  wallet := none
  warnings := .board ""
  safeModeDisabled := false
  shutdown := false

/-- Asks the node to shut down. -/
def requestShutdown (n : Node) : Node :=
  { n with shutdown := true }

/-- Closes the choice of the network. -/
def closeRegistry (n : Node) : Node :=
  { n with registry := n.registry.close }

end Node

end RpcDaemon
