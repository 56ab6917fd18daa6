import RpcDaemon.Proofs.Settings.Datum
import RpcDaemon.Settings.Reading

/-!
# Settings as data

The data that settings are, and the settings that are read from data. Fields and whole tables that
were deleted from the data have their defaults, all others are as they were. Main statement:
`Settings.ofDatum?_deletion`.
-/

namespace RpcDaemon

/-! ## Fields that are deleted -/

/-- Network settings of which some fields have their defaults. -/
def Chain.Selection.without (gone : String → Bool) (s : Chain.Selection) : Chain.Selection :=
  let d := Settings.default.network
  { testnet := if gone "testnet" then d.testnet else s.testnet
    regtest := if gone "regtest" then d.regtest else s.regtest
    network := if gone "network" then d.network else s.network }

/-- Server settings of which some fields have their defaults. -/
def ServerSettings.without (gone : String → Bool) (s : ServerSettings) : ServerSettings :=
  let d := Settings.default.rpc
  { user := if gone "user" then d.user else s.user
    password := if gone "password" then d.password else s.password
    allowIps := if gone "allow_ips" then d.allowIps else s.allowIps
    port := if gone "port" then d.port else s.port
    threads := if gone "threads" then d.threads else s.threads
    ssl := if gone "ssl" then d.ssl else s.ssl
    sslCert := if gone "ssl_cert" then d.sslCert else s.sslCert
    sslKey := if gone "ssl_key" then d.sslKey else s.sslKey
    sslCiphers := if gone "ssl_ciphers" then d.sslCiphers else s.sslCiphers
    disableSafeMode := if gone "disable_safe_mode" then d.disableSafeMode else s.disableSafeMode
    maxBodyBytes := if gone "max_body_bytes" then d.maxBodyBytes else s.maxBodyBytes }

/-- Log settings of which some fields have their defaults. -/
def LogSettings.without (gone : String → Bool) (s : LogSettings) : LogSettings :=
  let d := Settings.default.logging
  { filter := if gone "filter" then d.filter else s.filter
    jsonFormat := if gone "json_format" then d.jsonFormat else s.jsonFormat }

/-- Settings of which some fields and tables have their defaults. -/
def Deletion.settings (del : Deletion) (s : Settings) : Settings :=
  let d := Settings.default
  { dataDir := if del.top "data_dir" then d.dataDir else s.dataDir
    network := if del.top "network" then d.network else s.network.without (del.field "network")
    rpc := if del.top "rpc" then d.rpc else s.rpc.without (del.field "rpc")
    logging := if del.top "logging" then d.logging else s.logging.without (del.field "logging") }

/-! ## Fields that are read -/

namespace Datum

/-- A text as data. -/
def text (s : String) : Datum := .string (some s)

/-- Texts as data. -/
def texts (items : List String) : Datum := .seq (items.map text)

/-- A list of texts is read back. -/
theorem strings?_texts (items : List String) : strings? (texts items) = some items := by
  show (items.map text).mapM string? = some items
  induction items with
  | nil => rfl
  | cons s items ih =>
    rw [List.map_cons, List.mapM_cons, ih]
    rfl

/-- A number of 64 bits is read back. -/
theorem count?_int (n : UInt64) : count? (.int n.toNat) = some n := by
  have hlt := n.toNat_lt
  rw [count?, if_pos ⟨by omega, by omega⟩, Int.toNat_natCast, UInt64.ofNat_toNat]

/-- A port is read back. -/
theorem port?_int (p : UInt16) : port? (.int p.toNat) = some p := by
  have hlt := p.toNat_lt
  rw [port?, if_pos ⟨by omega, by omega⟩, Int.toNat_natCast, UInt16.ofNat_toNat]

section Deleted

variable {α : Type} (gone : Bool)

/-- A field that is not deleted is read, and one that is has its default. -/
theorem orDefault_ite {read : Datum → Option α} {d : Datum} {a : α} (h : read d = some a)
    (default : α) :
    orDefault default read (if gone then none else some d) =
      some (if gone then default else a) := by
  cases gone with
  | true => rfl
  | false => exact h

theorem orDefault_bool (default b : Bool) :
    orDefault default bool? (if gone then none else some (.bool b)) =
      some (if gone then default else b) :=
  orDefault_ite gone (show bool? (.bool b) = some b from rfl) default

theorem orDefault_text (default s : String) :
    orDefault default string? (if gone then none else some (text s)) =
      some (if gone then default else s) :=
  orDefault_ite gone (show string? (text s) = some s from rfl) default

theorem orDefault_texts (default items : List String) :
    orDefault default strings? (if gone then none else some (texts items)) =
      some (if gone then default else items) :=
  orDefault_ite gone (strings?_texts items) default

theorem orDefault_count (default n : UInt64) :
    orDefault default count? (if gone then none else some (.int n.toNat)) =
      some (if gone then default else n) :=
  orDefault_ite gone (count?_int n) default

/-- A field that may be nothing is read unless it is deleted. -/
theorem orDefault_optional {read : Datum → Option α} {write : α → Datum}
    (h : ∀ a, optional? read (write a) = some (some a)) (o : Option α) :
    orDefault none (optional? read) (if gone then none else o.map write) =
      some (if gone then none else o) := by
  cases gone with
  | true => rfl
  | false =>
    cases o with
    | none => rfl
    | some a => exact h a

theorem orDefault_optional_text (o : Option String) :
    orDefault none (optional? string?) (if gone then none else o.map text) =
      some (if gone then none else o) :=
  orDefault_optional gone (fun _ => rfl) o

theorem orDefault_optional_port (o : Option UInt16) :
    orDefault none (optional? port?) (if gone then none else o.map fun p => .int p.toNat) =
      some (if gone then none else o) := by
  have hport : ∀ p : UInt16, optional? port? (.int p.toNat) = some (some p) := by
    intro p
    rw [optional?, port?_int, Option.map_some]
    intro h
    cases h
  exact orDefault_optional gone hport o

end Deleted

end Datum

/-! ## The data of settings -/

namespace Chain.Selection

/-- The fields of network settings as data. -/
def data (s : Selection) : List (Option Datum) :=
  [some (.bool s.testnet), some (.bool s.regtest), s.network.map Datum.text]

/-- Network settings as data. -/
def datum (s : Selection) : Datum := .ofFields (Record.fields networkFields s.data)

/-- Network settings are read back, with defaults where fields were deleted. -/
theorem ofDatum?_without (strict : Bool) (gone : String → Bool) (s : Selection) :
    ofDatum? strict (s.datum.without gone) = some (s.without gone) := by
  have hnodup : networkFields.Nodup := by decide
  rw [datum, Datum.without_ofFields, Record.filter_fields, ofDatum?,
    Datum.record?_ofFields strict hnodup (Record.length_blank gone rfl)]
  simp only [Record.blank, networkFields, data, List.zipWith_cons_cons, List.zipWith_nil_left,
    Datum.orDefault_bool, Datum.orDefault_optional_text]
  rfl

end Chain.Selection

namespace ServerSettings

/-- The fields of server settings as data. -/
def data (s : ServerSettings) : List (Option Datum) :=
  [some (.text s.user), some (.text s.password), some (.texts s.allowIps),
    s.port.map fun p => .int p.toNat, some (.int s.threads.toNat), some (.bool s.ssl),
    some (.text s.sslCert), some (.text s.sslKey), some (.text s.sslCiphers),
    some (.bool s.disableSafeMode), some (.int s.maxBodyBytes.toNat)]

/-- Server settings as data. -/
def datum (s : ServerSettings) : Datum := .ofFields (Record.fields serverFields s.data)

/-- Server settings are read back, with defaults where fields were deleted. -/
theorem ofDatum?_without (strict : Bool) (gone : String → Bool) (s : ServerSettings) :
    ofDatum? strict (s.datum.without gone) = some (s.without gone) := by
  have hnodup : serverFields.Nodup := by decide
  rw [datum, Datum.without_ofFields, Record.filter_fields, ofDatum?,
    Datum.record?_ofFields strict hnodup (Record.length_blank gone rfl)]
  simp only [Record.blank, serverFields, data, List.zipWith_cons_cons, List.zipWith_nil_left,
    Datum.orDefault_bool, Datum.orDefault_text, Datum.orDefault_texts, Datum.orDefault_count,
    Datum.orDefault_optional_port]
  rfl

end ServerSettings

namespace LogSettings

/-- The fields of log settings as data. -/
def data (s : LogSettings) : List (Option Datum) :=
  [s.filter.map Datum.text, some (.bool s.jsonFormat)]

/-- Log settings as data. -/
def datum (s : LogSettings) : Datum := .ofFields (Record.fields logFields s.data)

/-- Log settings are read back, with defaults where fields were deleted. -/
theorem ofDatum?_without (strict : Bool) (gone : String → Bool) (s : LogSettings) :
    ofDatum? strict (s.datum.without gone) = some (s.without gone) := by
  have hnodup : logFields.Nodup := by decide
  rw [datum, Datum.without_ofFields, Record.filter_fields, ofDatum?,
    Datum.record?_ofFields strict hnodup (Record.length_blank gone rfl)]
  simp only [Record.blank, logFields, data, List.zipWith_cons_cons, List.zipWith_nil_left,
    Datum.orDefault_bool, Datum.orDefault_optional_text]
  rfl

end LogSettings

namespace Settings

/-- Settings as data. -/
def datum (s : Settings) : Datum :=
  .ofFields [("data_dir", .text s.dataDir), ("network", s.network.datum), ("rpc", s.rpc.datum),
    ("logging", s.logging.datum)]

/-- **Settings are read back from their data**, with defaults where fields and tables were
deleted. -/
theorem ofDatum?_deletion (strict : Bool) (del : Deletion) (s : Settings) :
    ofDatum? strict (del.datum s.datum) = some (del.settings s) := by
  have hnodup : fields.Nodup := by decide
  have hdatum : del.datum s.datum = .ofFields (Record.fields fields (Record.blank del.top fields
      [some (.text s.dataDir), some (s.network.datum.without (del.field "network")),
        some (s.rpc.datum.without (del.field "rpc")),
        some (s.logging.datum.without (del.field "logging"))])) := by
    rw [← Record.filter_fields, ← Datum.without_ofFields]
    rfl
  rw [hdatum, ofDatum?, Datum.record?_ofFields strict hnodup (Record.length_blank del.top rfl)]
  simp only [Record.blank, fields, List.zipWith_cons_cons, List.zipWith_nil_left,
    Datum.orDefault_text,
    Datum.orDefault_ite _ (s.network.ofDatum?_without strict (del.field "network")),
    Datum.orDefault_ite _ (s.rpc.ofDatum?_without strict (del.field "rpc")),
    Datum.orDefault_ite _ (s.logging.ofDatum?_without strict (del.field "logging"))]
  rfl

/-- A field whose name is not known is passed over. -/
theorem ofDatum?_cons (strict : Bool) {name : String} (h : name ∉ fields) (d : Datum)
    (rest : List (String × Datum)) :
    ofDatum? strict (.ofFields ((name, d) :: rest)) = ofDatum? strict (.ofFields rest) := by
  rw [ofDatum?, Datum.record?_ofFields_cons strict h, ofDatum?]

end Settings

end RpcDaemon
