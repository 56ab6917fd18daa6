import RpcDaemon.Command.Basic
import RpcDaemon.Rpc.Amount
import RpcDaemon.Rpc.ParamType

/-!
# The built-in commands

What the built-in commands answer, apart from the listing that `help` gives, which needs the table.
A command that takes no parameters explains its use when it gets some.
-/

namespace RpcDaemon

namespace Builtin

/-- The version that the node reports. -/
def version : String := "0.1.0"

/-- The version of the peer protocol. -/
def protocolVersion : Int32 := 60014

/-- How a command is used. -/
def usage : Builtin → String
  | help => "help [command]\nList commands, or get help for a command."
  | stop => "stop\nStop Clam server."
  | getinfo => "getinfo\nReturns an object containing various state info."
  | getblockcount =>
      "getblockcount\nReturns the number of blocks in the longest block chain."
  | getbestblockhash =>
      "getbestblockhash\nReturns the hash of the best block in the longest block chain."
  | getdifficulty =>
      "getdifficulty\nReturns the difficulty as a multiple of the minimum difficulty."
  | getconnectioncount =>
      "getconnectioncount\nReturns the number of connections to other nodes."

/-- The greatest number of parameters that a command takes. -/
def maxParams : Builtin → Nat
  | help => 1
  | stop => 1
  | _ => 0

/-- The difficulty as it is reported. -/
def difficultyJson (n : Node) : Json :=
  Json.ofMembers [("proof-of-stake", Json.ofBinary64 n.chain.difficulty)]

/-- What is reported about a wallet. -/
def walletMembers (w : Wallet) : List (String × Json) :=
  [("walletversion", Json.int (WideInt.ofUInt32 w.version)), ("balance", Amount.toJson w.balance),
    ("keypoolsize", Json.int (WideInt.ofUInt64 w.keyPool))]
    ++ (match w.unlockedUntil with
        | some t => [("unlocked_until", Json.int (WideInt.ofInt64 t))]
        | none => [])

/-- The state of the node as it is reported. -/
def info (n : Node) : Json :=
  Json.ofMembers
    ([("version", Json.string ("v" ++ version)),
      ("protocolversion", Json.int (WideInt.ofInt32 protocolVersion)),
      ("blocks", Json.int (WideInt.ofUInt64 n.chain.blocks)),
      ("timeoffset", Json.int (WideInt.ofInt64 n.chain.timeOffset)),
      ("connections", Json.int (WideInt.ofUInt64 n.chain.connections)),
      ("difficulty", difficultyJson n),
      ("testnet", Json.bool (n.registry.active != .main)),
      ("errors", Json.string (n.warnings.text .statusBar))]
      ++ (match n.wallet with
          | some w => walletMembers w
          | none => []))

/-- Runs a command other than `help` on parameters that are not too many. -/
def answer (b : Builtin) (n : Node) : Outcome × Node :=
  match b with
  | help => (.usage b.usage, n)
  | stop => (.value (.string "Clam server stopping"), n.requestShutdown)
  | getinfo => (.value (info n), n)
  | getblockcount => (.value (Json.int (WideInt.ofUInt64 n.chain.blocks)), n)
  | getbestblockhash => (.value (.string n.chain.bestHash), n)
  | getdifficulty => (.value (difficultyJson n), n)
  | getconnectioncount => (.value (Json.int (WideInt.ofUInt64 n.chain.connections)), n)

end Builtin

end RpcDaemon
