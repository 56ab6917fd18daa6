import RpcDaemon.Settings.Basic
import RpcDaemon.Settings.Error
import RpcDaemon.Text.Numeral

/-!
# Conf files

Settings as lines of keys and values: `key=value`, or a key alone. What follows a `#` is a comment,
and hyphens before a key do not count. Of several lines with one key the last holds, except that
patterns of peers are collected. Keys that are not known are noted.
-/

namespace RpcDaemon

namespace ConfFile

/-- A line that counts: a key and a value, both without blanks at their ends. -/
structure Entry where
  /-- The key. -/
  key : String
  /-- The value, empty if there is none. -/
  value : String
deriving DecidableEq

/-- Drops one carriage return at the end of a line. -/
def dropReturn (line : List Char) : List Char :=
  if line.getLast? = some '\r' then line.dropLast else line

/-- The lines of a text. A line feed at the end of the text ends its last line, and a carriage return
before a line feed belongs to the line end. -/
def lines (cs : List Char) : List (List Char) :=
  match (Chars.splitOn '\n' cs).reverse with
  | [] => []
  | last :: before =>
      (before.reverse.map dropReturn) ++ (if last.isEmpty then [] else [last])

/-- A line without its comment and without blanks at its ends. -/
def significant (line : List Char) : List Char :=
  Chars.trim (line.takeWhile fun c => c != '#')

/-- The entry of a line, if the line counts. -/
def entry? (line : List Char) : Option Entry :=
  match significant line with
  | [] => none
  | body =>
      let (key, value) :=
        match Chars.splitFirst? '=' body with
        | some (key, value) => (Chars.trim key, Chars.trim value)
        | none => (body, [])
      some ⟨String.ofList (key.dropWhile fun c => c == '-'), String.ofList value⟩

/-- The entries of a text. -/
def entries (text : String) : List Entry :=
  (lines text.toList).filterMap entry?

/-! ## Values -/

/-- A truth value: a word, or a number that is not zero. An empty value is true. -/
def flag? (value : String) : Option Bool :=
  let v := lowered value
  if v = "" ∨ v = "true" ∨ v = "yes" then some true
  else if v = "false" ∨ v = "no" then some false
  else (Numeral.signed? 9223372036854775808 v.toList).map fun n => n != 0

/-- A port. -/
def port? (value : String) : Option UInt16 :=
  (Numeral.unsigned? 65536 value.toList).map UInt16.ofNat

/-- A number of 64 bits. -/
def count? (value : String) : Option UInt64 :=
  (Numeral.unsigned? 18446744073709551616 value.toList).map UInt64.ofNat

/-- The filter of the log that asks for the messages of one part, of all parts, or of none. -/
def debugFilter (value : String) : Option String :=
  if value = "" ∨ value = "1" ∨ value = "all" then some "debug"
  else if value = "0" then none
  else some ("info,clam_node::" ++ value ++ "=debug")

/-! ## Settings -/

/-- Settings read so far, and the keys that are not known, in order. -/
structure Import where
  /-- The settings. -/
  settings : Settings
  /-- The keys that are not known. -/
  ignored : List String
deriving DecidableEq

/-- Nothing is read yet. -/
def Import.initial : Import := ⟨.default, []⟩

/-- Changes the settings of the server. -/
def Import.onServer (i : Import) (f : ServerSettings → ServerSettings) : Import :=
  { i with settings := { i.settings with rpc := f i.settings.rpc } }

/-- Changes the settings of the network. -/
def Import.onNetwork (i : Import) (f : Chain.Selection → Chain.Selection) : Import :=
  { i with settings := { i.settings with network := f i.settings.network } }

/-- A value that has been read, or the error that it does not fit. -/
def read {α : Type} (e : Entry) (value? : Option α) : Except SettingsError α :=
  match value? with
  | some v => .ok v
  | none => .error (.invalidValue e.key e.value)

/-- Applies an entry. -/
def apply (i : Import) (e : Entry) : Except SettingsError Import :=
  match e.key with
  | "rpcuser" => .ok (i.onServer fun s => { s with user := e.value })
  | "rpcpassword" => .ok (i.onServer fun s => { s with password := e.value })
  | "rpcport" => (read e (port? e.value)).map fun p => i.onServer fun s => { s with port := some p }
  | "rpcallowip" => .ok (i.onServer fun s => { s with allowIps := s.allowIps ++ [e.value] })
  | "rpcthreads" => (read e (count? e.value)).map fun n => i.onServer fun s => { s with threads := n }
  | "rpcssl" => (read e (flag? e.value)).map fun b => i.onServer fun s => { s with ssl := b }
  | "rpcsslcertificatechainfile" => .ok (i.onServer fun s => { s with sslCert := e.value })
  | "rpcsslprivatekeyfile" => .ok (i.onServer fun s => { s with sslKey := e.value })
  | "rpcsslciphers" => .ok (i.onServer fun s => { s with sslCiphers := e.value })
  | "testnet" => (read e (flag? e.value)).map fun b => i.onNetwork fun n => { n with testnet := b }
  | "regtest" => (read e (flag? e.value)).map fun b => i.onNetwork fun n => { n with regtest := b }
  | "disablesafemode" =>
      (read e (flag? e.value)).map fun b => i.onServer fun s => { s with disableSafeMode := b }
  | "datadir" => .ok { i with settings := { i.settings with dataDir := e.value } }
  | "debug" =>
      .ok { i with settings :=
        { i.settings with logging := { i.settings.logging with filter := debugFilter e.value } } }
  | key => .ok { i with ignored := i.ignored ++ [key] }

/-- Applies entries in order, up to the first that does not fit. -/
def applyAll (i : Import) (es : List Entry) : Except SettingsError Import :=
  es.foldlM apply i

/-- The settings that a text gives. -/
def parse (text : String) : Except SettingsError Import :=
  applyAll .initial (entries text)

end ConfFile

end RpcDaemon
