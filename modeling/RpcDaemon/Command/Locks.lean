import RpcDaemon.Command.Dispatch

/-!
# Locks

The node has a lock for the chain, and one for the wallet if a wallet is loaded. A command that needs
them is run while both are held; they are taken in this order, and given back whatever the handler
does, because a breakdown is caught before that. No handler takes a lock itself: one that did would
wait for the command around it without end.
-/

namespace RpcDaemon

/-- A lock. -/
structure Lock where
  /-- Whether it is held. -/
  held : Bool
  /-- Whether someone broke down while holding it. -/
  poisoned : Bool
deriving DecidableEq

namespace Lock

/-- The lock taken. A poisoned lock is taken like any other; one that is held is waited for, which
nothing in a single thread brings to an end. -/
def take? (l : Lock) : Option Lock :=
  if l.held then none else some { l with held := true }

/-- The lock given back. -/
def giveBack (l : Lock) : Lock :=
  { l with held := false }

end Lock

/-- The locks of a node. -/
structure Locks where
  /-- The lock of the chain. -/
  chain : Lock
  /-- The lock of the wallet. -/
  wallet : Lock
deriving DecidableEq

namespace Locks

/-- The locks taken: that of the chain, then that of the wallet if there is one. -/
def take? (l : Locks) (hasWallet : Bool) : Option Locks :=
  match l.chain.take? with
  | none => none
  | some chain =>
      if hasWallet then l.wallet.take?.map fun wallet => ⟨chain, wallet⟩
      else some { l with chain }

/-- The locks given back. -/
def giveBack (l : Locks) (hasWallet : Bool) : Locks :=
  ⟨l.chain.giveBack, if hasWallet then l.wallet.giveBack else l.wallet⟩

end Locks

namespace Table

variable {σ : Type}

/-- Runs the command called `method` within the scope of the locks that it needs; nothing comes of it
if a lock is never given back. -/
def executeLocked (t : Table σ) (method : String) (params : List Json) (w : World σ) (l : Locks) :
    Option ((Except Rpc.Error Json × World σ) × Locks) :=
  match t.lookup? method with
  | none => some ((.error Rpc.Error.methodNotFound, w), l)
  | some c =>
      match refusal? c w.node with
      | some e => some ((.error e, w), l)
      | none =>
          let invoked :=
            let (o, w) := t.run c.handler params w
            (result o, w)
          if c.flags.threadSafe then some (invoked, l)
          else
            let hasWallet := w.node.wallet.isSome
            (l.take? hasWallet).map fun taken => (invoked, taken.giveBack hasWallet)

end Table

end RpcDaemon
