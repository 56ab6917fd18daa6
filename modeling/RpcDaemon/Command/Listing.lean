import RpcDaemon.Command.Builtin

/-!
# Help listing

The listing asks the handlers to describe themselves, each handler once however many names it has.
Without a filter every command contributes the first line of its text; with a filter the command of
that name contributes its whole text.
-/

namespace RpcDaemon

namespace Table

variable {σ : Type}

/-- Whether `part` occurs in `cs`. -/
def occursIn (part cs : List Char) : Bool :=
  (Chars.after? part cs).isSome

/-- Whether a command may be listed: its name does not speak of labels, it is the one asked for if
one is, and it does not lack a wallet. -/
def isListed (filter : String) (hasWallet : Bool) (c : String × Command) : Bool :=
  !occursIn "label".toList c.1.toList && (filter.isEmpty || c.1 == filter)
    && (!c.2.flags.wallet || hasWallet)

/-- The commands whose handler none of the commands before them has; `seen` are the handlers of
those that came before. -/
def firstOfHandler (seen : List HandlerId) : List (String × Command) → List (String × Command)
  | [] => []
  | c :: rest =>
      if c.2.handler ∈ seen then firstOfHandler seen rest
      else c :: firstOfHandler (c.2.handler :: seen) rest

/-- The commands that a listing describes, in order. -/
def listed (t : Table σ) (filter : String) (hasWallet : Bool) : List (String × Command) :=
  firstOfHandler [] (t.commands.filter (isListed filter hasWallet))

/-- Runs a handler to describe itself. -/
def describe (t : Table σ) (h : HandlerId) (w : World σ) : Outcome × World σ :=
  let calls := w.calls ++ [⟨h, [], true⟩]
  match h with
  | .builtin b => (.usage b.usage, { w with calls })
  | .custom n =>
      let (o, node, store) := t.custom n [] true w.node w.store
      (o, ⟨node, store, calls⟩)

/-- The text of the first line. -/
def firstLine (s : String) : String :=
  String.ofList (s.toList.takeWhile fun c => c != '\n')

/-- The text that a description contributes; a value contributes none. -/
def contribution (wholeText : Bool) : Outcome → Option String
  | .usage t => some (if wholeText then t else firstLine t)
  | .error e => some (if wholeText then e.message else firstLine e.message)
  | _ => none

/-- Describes the commands in order. A handler that breaks down ends the listing. -/
def describeAll (t : Table σ) (wholeText : Bool) :
    List (String × Command) → World σ → Except (Option String) (List String) × World σ
  | [], w => (.ok [], w)
  | c :: rest, w =>
      match t.describe c.2.handler w with
      | (.panic m, w) => (.error m, w)
      | (o, w) =>
          match t.describeAll wholeText rest w with
          | (.ok texts, w) => (.ok ((contribution wholeText o).toList ++ texts), w)
          | (.error m, w) => (.error m, w)

/-- The listing made of the texts that were contributed. -/
def listing (filter : String) (texts : List String) : String :=
  if texts.isEmpty then "help: unknown command: " ++ filter else "\n".intercalate texts

/-- The listing for a filter, empty for none. -/
def help (t : Table σ) (filter : String) (w : World σ) :
    Except (Option String) String × World σ :=
  match t.describeAll (!filter.isEmpty) (t.listed filter w.node.wallet.isSome) w with
  | (.ok texts, w) => (.ok (listing filter texts), w)
  | (.error m, w) => (.error m, w)

end Table

end RpcDaemon
