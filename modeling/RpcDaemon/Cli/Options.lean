import RpcDaemon.Settings.Overrides
import RpcDaemon.Text.Blank
import RpcDaemon.Text.Numeral

/-!
# Command lines

Options and positional arguments. An option is written in full and takes its value from the same
argument after an equals sign, or from the next one; a value of its own may not start with a hyphen.
Single letters may be run together. The first thing that is wrong, or the first call for help, ends
the reading.
-/

namespace RpcDaemon

namespace Cli

/-- How the reading of a command line ends without a result. -/
inductive Exit where
  /-- Help is asked for. -/
  | help
  /-- The version is asked for. -/
  | version
  /-- The command line is wrong. -/
  | misuse
deriving DecidableEq

/-- The exit code. -/
def Exit.code : Exit → Nat
  | help => 0
  | version => 0
  | misuse => 2

/-- What an option does with what was read so far. -/
inductive Action (σ : Type) where
  /-- It is a switch. -/
  | switch (set : σ → Except Exit σ)
  /-- It takes a value. -/
  | value (set : String → σ → Except Exit σ)

/-- A command line's language: its options, its letters, and what a positional argument does. -/
structure Language (σ : Type) where
  /-- The option with a name. -/
  option : String → Option (Action σ)
  /-- The switch of a letter. -/
  letter : Char → Option (σ → Except Exit σ)
  /-- Adds a positional argument. -/
  positional : String → σ → Except Exit σ

namespace Language

variable {σ : Type}

/-- Reads letters that are run together. -/
def letters (l : Language σ) : List Char → σ → Except Exit σ
  | [], s => .ok s
  | c :: rest, s =>
      match l.letter c with
      | some set => (set s).bind (l.letters rest)
      | none => .error .misuse

/-- Adds positional arguments. -/
def positionals (l : Language σ) : List String → σ → Except Exit σ
  | [], s => .ok s
  | a :: rest, s => (l.positional a s).bind (l.positionals rest)

/-- Whether an argument may be a value of its own. -/
def isValue (a : String) : Bool :=
  a.toList.head? != some '-' || a == "-"

/-- Reads the arguments in order. Two hyphens alone make the rest positional. -/
def read (l : Language σ) : List String → σ → Except Exit σ
  | [], s => .ok s
  | a :: rest, s =>
      match a.toList with
      | ['-', '-'] => l.positionals rest s
      | '-' :: '-' :: body =>
          match Chars.splitFirst? '=' body with
          | some (name, text) =>
              match l.option (String.ofList name) with
              | some (.value set) => (set (String.ofList text) s).bind (l.read rest)
              | _ => .error .misuse
          | none =>
              match l.option (String.ofList body), rest with
              | some (.switch set), rest => (set s).bind (l.read rest)
              | some (.value set), v :: rest =>
                  if isValue v then (set v s).bind (l.read rest) else .error .misuse
              | _, _ => .error .misuse
      | '-' :: c :: cs => (l.letters (c :: cs) s).bind (l.read rest)
      | _ => (l.positional a s).bind (l.read rest)

end Language

/-- Turns a switch on that may be given once. -/
def once {σ : Type} (isOn : σ → Bool) (turnOn : σ → σ) : σ → Except Exit σ :=
  fun s => if isOn s then .error .misuse else .ok (turnOn s)

/-- Sets a value that may be given once and has to be readable. -/
def setOnce {σ α : Type} (get : σ → Option α) (put : σ → α → σ) (read? : String → Option α) :
    String → σ → Except Exit σ :=
  fun text s =>
    match get s, read? text with
    | none, some v => .ok (put s v)
    | _, _ => .error .misuse

/-- A path; it may not be empty. -/
def path? (text : String) : Option String :=
  if text.isEmpty then none else some text

/-- A port: an integer with or without a sign. -/
def port? (text : String) : Option UInt16 :=
  match Numeral.signed? 9223372036854775808 text.toList with
  | some n => if 0 ≤ n ∧ n < 65536 then some (UInt16.ofNat n.toNat) else none
  | none => none

/-- A number of 64 bits. -/
def count? (text : String) : Option UInt64 :=
  (Numeral.unsigned? 18446744073709551616 text.toList).map UInt64.ofNat

/-! ## The daemon -/

/-- What the daemon is called with. -/
structure DaemonOptions where
  /-- The settings file, by extension. -/
  config : Option String
  /-- The conf file. -/
  conf : Option String
  /-- The values that go over those of the file. -/
  overrides : Overrides
deriving DecidableEq

namespace DaemonOptions

/-- Nothing is given. -/
def initial : DaemonOptions := ⟨none, none, .empty⟩

/-- Changes the overrides. -/
def change (o : DaemonOptions) (f : Overrides → Overrides) : DaemonOptions :=
  { o with overrides := f o.overrides }

/-- A switch among the overrides. -/
def switch (isOn : Overrides → Bool) (turnOn : Overrides → Overrides) : Action DaemonOptions :=
  .switch (once (fun o => isOn o.overrides) fun o => o.change turnOn)

/-- A value among the overrides. -/
def value {α : Type} (get : Overrides → Option α) (put : Overrides → α → Overrides)
    (read? : String → Option α) : Action DaemonOptions :=
  .value (setOnce (fun o => get o.overrides) (fun o v => o.change fun x => put x v) read?)

/-- The options of the daemon. -/
def option : String → Option (Action DaemonOptions)
  | "config" => some (.value (setOnce config (fun o v => { o with config := some v }) path?))
  | "conf" => some (.value (setOnce conf (fun o v => { o with conf := some v }) path?))
  | "datadir" => some (value Overrides.dataDir (fun x v => { x with dataDir := some v }) path?)
  | "testnet" => some (switch Overrides.testnet fun x => { x with testnet := true })
  | "regtest" => some (switch Overrides.regtest fun x => { x with regtest := true })
  | "rpcuser" => some (value Overrides.user (fun x v => { x with user := some v }) some)
  | "rpcpassword" => some (value Overrides.password (fun x v => { x with password := some v }) some)
  | "rpcport" => some (value Overrides.port (fun x v => { x with port := some v }) port?)
  | "rpcallowip" =>
      some (.value fun v o => .ok (o.change fun x => { x with allowIps := x.allowIps ++ [v] }))
  | "rpcthreads" => some (value Overrides.threads (fun x v => { x with threads := some v }) count?)
  | "rpcssl" => some (switch Overrides.ssl fun x => { x with ssl := true })
  | "disablesafemode" =>
      some (switch Overrides.disableSafeMode fun x => { x with disableSafeMode := true })
  | "log-filter" => some (value Overrides.logFilter (fun x v => { x with logFilter := some v }) some)
  | "log-json" => some (switch Overrides.logJson fun x => { x with logJson := true })
  | "help" => some (.switch fun _ => .error .help)
  | "version" => some (.switch fun _ => .error .version)
  | _ => none

/-- The letters of the daemon. -/
def letter (c : Char) : Option (DaemonOptions → Except Exit DaemonOptions) :=
  if c = 'h' then some fun _ => .error .help
  else if c = 'V' then some fun _ => .error .version
  else none

/-- The daemon takes no positional arguments. -/
def language : Language DaemonOptions where
  option := option
  letter := letter
  positional := fun _ _ => .error .misuse

/-- The options that arguments give. -/
def read (args : List String) : Except Exit DaemonOptions :=
  language.read args initial

end DaemonOptions

/-! ## The converter -/

/-- What the converter is called with so far. -/
structure ConvertDraft where
  /-- The positional arguments in order. -/
  paths : List String
  /-- Whether the converter reports what it reads. -/
  verbose : Bool
deriving DecidableEq

/-- What the converter is called with. -/
structure ConvertOptions where
  /-- The conf file. -/
  input : String
  /-- The file to write. -/
  output : String
  /-- Whether the converter reports what it reads. -/
  verbose : Bool
deriving DecidableEq

namespace ConvertOptions

/-- Turns the report on. -/
def verboseOnce : ConvertDraft → Except Exit ConvertDraft :=
  once ConvertDraft.verbose fun d => { d with verbose := true }

/-- The options of the converter. -/
def option : String → Option (Action ConvertDraft)
  | "verbose" => some (.switch verboseOnce)
  | "help" => some (.switch fun _ => .error .help)
  | _ => none

/-- The letters of the converter. -/
def letter (c : Char) : Option (ConvertDraft → Except Exit ConvertDraft) :=
  if c = 'v' then some verboseOnce
  else if c = 'h' then some fun _ => .error .help
  else none

/-- The converter takes one or two paths. -/
def positional (a : String) (d : ConvertDraft) : Except Exit ConvertDraft :=
  if a.isEmpty ∨ 2 ≤ d.paths.length then .error .misuse
  else .ok { d with paths := d.paths ++ [a] }

/-- The language of the converter. -/
def language : Language ConvertDraft where
  option := option
  letter := letter
  positional := positional

/-- The file that is written unless another is given. -/
def defaultOutput : String := "config.toml"

/-- The options that arguments give. -/
def read (args : List String) : Except Exit ConvertOptions :=
  match language.read args ⟨[], false⟩ with
  | .error e => .error e
  | .ok d =>
      match d.paths with
      | input :: rest => .ok ⟨input, rest.headD defaultOutput, d.verbose⟩
      | [] => .error .misuse

end ConvertOptions

end Cli

end RpcDaemon
