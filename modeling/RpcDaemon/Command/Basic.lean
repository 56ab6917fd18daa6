import RpcDaemon.Node
import RpcDaemon.Rpc.Error
import RpcDaemon.Text.Described

/-!
# Commands

A command is a name, a set of flags and a handler. Handlers are arbitrary functions on the node and
on a state of their own; a few built-in ones are named instead of given. A table holds commands by
name, sorted, and two names may share one handler.

What a handler may do is bounded: it neither takes the locks of the node, which are held around it,
nor looks into the table. The built-in `help` alone reads the table, and is given it.
-/

namespace RpcDaemon

/-- When a command may run. -/
structure Flags where
  /-- The command runs while a warning is active. -/
  safe : Bool
  /-- The command needs no lock on the node. -/
  threadSafe : Bool
  /-- The command needs a wallet. -/
  wallet : Bool
deriving DecidableEq

namespace Flags

/-- The names of the flags that are set. -/
def names (f : Flags) : List String :=
  (if f.safe then ["OK_SAFE_MODE"] else []) ++ (if f.threadSafe then ["THREAD_SAFE"] else [])
    ++ (if f.wallet then ["REQUIRES_WALLET"] else [])

/-- The flags as bits. -/
def bits (f : Flags) : Nat :=
  (if f.safe then 1 else 0) + (if f.threadSafe then 2 else 0) + (if f.wallet then 4 else 0)

/-- The description of the flags. -/
def describe (f : Flags) : String :=
  "CommandFlags(" ++ (if f.names.isEmpty then "0x0" else " | ".intercalate f.names) ++ ")"

end Flags

/-- The built-in commands. -/
inductive Builtin where
  /-- Lists the commands. -/
  | help
  /-- Shuts the node down. -/
  | stop
  /-- Reports the state of the node. -/
  | getinfo
  /-- Reports the length of the chain. -/
  | getblockcount
  /-- Reports the last block. -/
  | getbestblockhash
  /-- Reports the difficulty. -/
  | getdifficulty
  /-- Reports the number of peers. -/
  | getconnectioncount
deriving DecidableEq

/-- Which handler a command has: a built-in one, or one of those that a table brings along. -/
inductive HandlerId where
  /-- A built-in handler. -/
  | builtin (b : Builtin)
  /-- A handler of the table. -/
  | custom (n : Nat)
deriving DecidableEq

/-- What comes of running a handler. -/
inductive Outcome where
  /-- It gives a value. -/
  | value (v : Json)
  /-- It explains how it is used. -/
  | usage (text : String)
  /-- It fails. -/
  | error (e : Rpc.Error)
  /-- It breaks down, with a message if that is a text. -/
  | panic (message : Option String)

/-- One run of a handler. -/
structure Invocation where
  /-- The handler. -/
  handler : HandlerId
  /-- The parameters. -/
  params : List Json
  /-- Whether the handler is only asked to describe itself. -/
  describe : Bool

/-- A handler: parameters, whether to describe itself, the node, and the handlers' own state. It
takes no lock of the node and does not look into the table. What is proved about the flag
`threadSafe`, about the locks and about tables with the same handlers rests on this. -/
abbrev Handler (σ : Type) := List Json → Bool → Node → σ → Outcome × Node × σ

/-- What calls act on: the node, the handlers' own state, and the handlers run so far. -/
structure World (σ : Type) where
  /-- The node. -/
  node : Node
  /-- The handlers' own state. -/
  store : σ
  /-- The handlers run so far, in order. -/
  calls : List Invocation

/-- What a table says about a name. -/
structure Command where
  /-- When the command may run. -/
  flags : Flags
  /-- The handler. -/
  handler : HandlerId
deriving DecidableEq

/-- The commands by name, and the handlers they bring along. -/
structure Table (σ : Type) where
  /-- The commands, sorted by name. -/
  commands : List (String × Command)
  /-- The handlers that are not built in. -/
  custom : Nat → Handler σ

/-- A name was registered twice. -/
structure DuplicateCommand where
  /-- The name. -/
  name : String

/-- The wording of the error. -/
def DuplicateCommand.message (e : DuplicateCommand) : String :=
  "duplicate RPC command: " ++ e.name

namespace Command

/-- The description of the command called `name`. -/
def describe (name : String) (c : Command) : String :=
  "Command \x7b name: " ++ Described.string name ++ ", flags: " ++ c.flags.describe ++ ", .. \x7d"

end Command

namespace Table

variable {σ : Type}

/-- A table without commands. -/
def empty (custom : Nat → Handler σ) : Table σ :=
  ⟨[], custom⟩

/-- The command called `name`. -/
def lookup? (t : Table σ) (name : String) : Option Command :=
  Members.get? name t.commands

/-- The names, sorted. -/
def names (t : Table σ) : List String :=
  t.commands.map fun c => c.1

/-- Adds a command under a new name. -/
def register (t : Table σ) (name : String) (flags : Flags) (handler : HandlerId) :
    Except DuplicateCommand (Table σ) :=
  match t.lookup? name with
  | some _ => .error ⟨name⟩
  | none => .ok { t with commands := Members.insert name ⟨flags, handler⟩ t.commands }

end Table

namespace Builtin

/-- All built-in commands. -/
def all : List Builtin :=
  [help, stop, getinfo, getblockcount, getbestblockhash, getdifficulty, getconnectioncount]

/-- The name of a built-in command. -/
def name : Builtin → String
  | help => "help"
  | stop => "stop"
  | getinfo => "getinfo"
  | getblockcount => "getblockcount"
  | getbestblockhash => "getbestblockhash"
  | getdifficulty => "getdifficulty"
  | getconnectioncount => "getconnectioncount"

/-- Every built-in command runs in spite of warnings; the two that look at nothing but the table and
the shutdown flag need no lock. -/
def flags : Builtin → Flags
  | help => ⟨true, true, false⟩
  | stop => ⟨true, true, false⟩
  | _ => ⟨true, false, false⟩

end Builtin

/-- The table of the built-in commands. -/
def Table.builtins {σ : Type} (custom : Nat → Handler σ) : Table σ :=
  ⟨Members.ofList (Builtin.all.map fun b => (b.name, ⟨b.flags, .builtin b⟩)), custom⟩

end RpcDaemon
