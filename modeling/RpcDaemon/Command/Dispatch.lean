import RpcDaemon.Command.Listing
import RpcDaemon.Rpc.Request
import RpcDaemon.Rpc.Response

/-!
# Dispatch

Running a call: the command is looked up, the rules about wallets and warnings are applied, the
handler is run, and whatever comes of it is turned into a value or an error.
-/

namespace RpcDaemon

namespace Table

variable {σ : Type}

/-- Why a command may not run on a node, if it may not. -/
def refusal? (c : Command) (n : Node) : Option Rpc.Error :=
  if c.flags.wallet && n.wallet.isNone then some Rpc.Error.methodDisabled
  else
    let warning := n.warnings.text .rpc
    if !warning.isEmpty && !n.safeModeDisabled && !c.flags.safe then
      some (Rpc.Error.forbiddenBySafeMode warning)
    else none

/-- Runs `help`: one optional parameter, which has to be a string. -/
def runHelp (t : Table σ) (params : List Json) (w : World σ) : Outcome × World σ :=
  if Builtin.help.maxParams < params.length then (.usage Builtin.help.usage, w)
  else
    match Rpc.checkTypes false params [.string] with
    | .error e => (.error e, w)
    | .ok () =>
        let filter := match params with
          | .string s :: _ => s
          | _ => ""
        match t.help filter w with
        | (.ok text, w) => (.value (.string text), w)
        | (.error m, w) => (.panic m, w)

/-- Runs a handler on parameters. -/
def run (t : Table σ) (h : HandlerId) (params : List Json) (w : World σ) : Outcome × World σ :=
  let w := { w with calls := w.calls ++ [⟨h, params, false⟩] }
  match h with
  | .builtin .help => t.runHelp params w
  | .builtin b =>
      if b.maxParams < params.length then (.usage b.usage, w)
      else
        let (o, node) := b.answer w.node
        (o, { w with node })
  | .custom n =>
      let (o, node, store) := t.custom n params false w.node w.store
      (o, { w with node, store })

/-- What is reported of a breakdown without a text. -/
def unknownPanic : String := "unknown exception"

/-- What a caller gets of an outcome: an explanation of use and a breakdown are errors. -/
def result : Outcome → Except Rpc.Error Json
  | .value v => .ok v
  | .usage text => .error (Rpc.Error.misc text)
  | .error e => .error e
  | .panic m => .error (Rpc.Error.misc (m.getD unknownPanic))

/-- Runs the command called `method`. -/
def execute (t : Table σ) (method : String) (params : List Json) (w : World σ) :
    Except Rpc.Error Json × World σ :=
  match t.lookup? method with
  | none => (.error Rpc.Error.methodNotFound, w)
  | some c =>
      match refusal? c w.node with
      | some e => (.error e, w)
      | none =>
          let (o, w) := t.run c.handler params w
          (result o, w)

/-- Answers a well-formed call. -/
def executeRequest (t : Table σ) (r : Rpc.Request) (w : World σ) : Rpc.Response × World σ :=
  let (res, w) := t.execute r.method r.params w
  (Rpc.Response.ofResult res r.id, w)

/-- Answers a value that should be a call. -/
def executeValue (t : Table σ) (v : Json) (w : World σ) : Rpc.Response × World σ :=
  match Rpc.Request.ofJson v with
  | .ok r => t.executeRequest r w
  | .error f => (Rpc.Response.failure f.error (Rpc.Request.idOf v), w)

/-- Answers the items of a batch in order. -/
def executeBatch (t : Table σ) : List Json → World σ → List Rpc.Response × World σ
  | [], w => ([], w)
  | v :: rest, w =>
      let (r, w) := t.executeValue v w
      let (rs, w) := t.executeBatch rest w
      (r :: rs, w)

end Table

end RpcDaemon
