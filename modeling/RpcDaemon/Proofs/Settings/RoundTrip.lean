import RpcDaemon.Proofs.Files.Tree
import RpcDaemon.Proofs.Settings.Fields
import RpcDaemon.Settings.Load
import RpcDaemon.Settings.Writing

/-!
# Settings read back

Settings files of both formats give back the settings that were written. Where fields or whole tables
were deleted, exactly these have their defaults. Both formats hold the same data, `Settings.datum`, so
that the fields are read back once for both. Main statement: `Settings.files_read_back`.
-/

namespace RpcDaemon

/-! ## The data of both formats -/

namespace Datum

/-- The data of a JSON string. -/
theorem ofJson_ofString (s : String) : ofJson (.ofString s) = text s := by
  rw [Json.Document.ofString, ofJson, Json.string?_pieces, text]

/-- The data of a JSON integer. -/
theorem ofJson_ofInt (n : WideInt) : ofJson (.ofInt n.val) = .int n.val := by
  have hvalue := Json.value?_ofInt n 0
  rw [Json.Document.ofInt, Json.Document.value?, Option.map_eq_some_iff] at hvalue
  obtain ⟨m, hm, hnumber⟩ := hvalue
  cases hnumber
  rw [Json.Document.ofInt, ofJson, hm]

/-- The data of a JSON integer of 64 bits. -/
theorem ofJson_count (n : UInt64) : ofJson (.ofInt n.toNat) = .int n.toNat :=
  ofJson_ofInt (.ofUInt64 n)

/-- The data of a port in JSON. -/
theorem ofJson_port (p : UInt16) : ofJson (.ofInt p.toNat) = .int p.toNat :=
  ofJson_ofInt ⟨p.toNat, by omega, by have := p.toNat_lt; omega⟩

/-- The data of a JSON array of strings. -/
theorem ofJson_strings (items : List String) :
    ofJson (.array (items.map Json.Document.ofString)) = texts items := by
  rw [ofJson, ofJsonItems_eq_map, List.map_map, texts]
  congr 1
  apply List.map_congr_left
  intro s _
  exact ofJson_ofString s

/-- The data of a TOML list of strings. -/
theorem ofToml_strings (items : List String) : (Toml.Written.strings items).datum = texts items := by
  rw [Toml.Written.datum, Toml.Written.value, ofToml, ofTomlItems_eq_map, List.map_map, texts]
  rfl

/-- The data of a TOML integer, if it has 64 bits with a sign. -/
theorem ofToml_integer {n : Nat} (h : n < 9223372036854775808) :
    (Toml.Written.integer (Int64.ofInt n)).datum = .int n := by
  rw [Toml.Written.datum, Toml.Written.value, ofToml, Int64.toInt_ofInt_of_le (by omega) (by omega)]

end Datum

namespace Chain.Selection

/-- The JSON fields of network settings hold their data. -/
theorem map_jsonFields (s : Selection) :
    s.jsonFields.map (fun f => (f.1, Datum.ofJson f.2)) = Record.fields networkFields s.data := by
  obtain ⟨testnet, regtest, network⟩ := s
  cases network with
  | none => rfl
  | some name =>
    simp only [jsonFields, optionalField, List.map_append, List.map_cons, List.map_nil,
      Datum.ofJson_ofString]
    rfl

/-- The TOML fields of network settings hold their data. -/
theorem fieldData_tomlFields (s : Selection) :
    Toml.fieldData s.tomlFields = Record.fields networkFields s.data := by
  obtain ⟨testnet, regtest, network⟩ := s
  cases network <;> rfl

end Chain.Selection

namespace ServerSettings

/-- The JSON fields of server settings hold their data. -/
theorem map_jsonFields (s : ServerSettings) :
    s.jsonFields.map (fun f => (f.1, Datum.ofJson f.2)) = Record.fields serverFields s.data := by
  cases hport : s.port with
  | none =>
    simp only [jsonFields, hport, optionalField, List.map_append, List.map_cons, List.map_nil,
      Datum.ofJson_ofString, Datum.ofJson_count, Datum.ofJson_strings, data, Option.map_none]
    rfl
  | some p =>
    simp only [jsonFields, hport, optionalField, List.map_append, List.map_cons, List.map_nil,
      Datum.ofJson_ofString, Datum.ofJson_count, Datum.ofJson_strings, Datum.ofJson_port, data,
      Option.map_some]
    rfl

/-- The TOML fields of server settings hold their data, if the numbers can be written. -/
theorem fieldData_tomlFields {s : ServerSettings} (h : s.fitsToml = true) :
    Toml.fieldData s.tomlFields = Record.fields serverFields s.data := by
  rw [fitsToml, Bool.and_eq_true, decide_eq_true_eq, decide_eq_true_eq] at h
  have hthreads : (tomlCount s.threads).datum = .int s.threads.toNat := Datum.ofToml_integer h.1
  have hbody : (tomlCount s.maxBodyBytes).datum = .int s.maxBodyBytes.toNat :=
    Datum.ofToml_integer h.2
  cases hport : s.port with
  | none =>
    simp only [Toml.fieldData, tomlFields, hport, optionalField, List.map_append, List.map_cons,
      List.map_nil, hthreads, hbody, Datum.ofToml_strings, data, Option.map_none]
    rfl
  | some p =>
    have hlt := p.toNat_lt
    have hp : (Toml.Written.integer (Int64.ofInt p.toNat)).datum = .int p.toNat :=
      Datum.ofToml_integer (by omega)
    simp only [Toml.fieldData, tomlFields, hport, optionalField, List.map_append, List.map_cons,
      List.map_nil, hthreads, hbody, hp, Datum.ofToml_strings, data, Option.map_some]
    rfl

end ServerSettings

namespace LogSettings

/-- The JSON fields of log settings hold their data. -/
theorem map_jsonFields (s : LogSettings) :
    s.jsonFields.map (fun f => (f.1, Datum.ofJson f.2)) = Record.fields logFields s.data := by
  obtain ⟨filter, jsonFormat⟩ := s
  cases filter with
  | none => rfl
  | some name =>
    simp only [jsonFields, optionalField, List.map_append, List.map_cons, List.map_nil,
      Datum.ofJson_ofString]
    rfl

/-- The TOML fields of log settings hold their data. -/
theorem fieldData_tomlFields (s : LogSettings) :
    Toml.fieldData s.tomlFields = Record.fields logFields s.data := by
  obtain ⟨filter, jsonFormat⟩ := s
  cases filter <;> rfl

end LogSettings

namespace Settings

/-- **The JSON document of settings holds their data.** -/
theorem ofJson_jsonDocument (s : Settings) : Datum.ofJson s.jsonDocument = s.datum := by
  rw [jsonDocument, Datum.ofJson_ofFields]
  simp only [jsonFields, List.map_cons, List.map_nil, Datum.ofJson_ofString,
    Datum.ofJson_ofFields, Chain.Selection.map_jsonFields, ServerSettings.map_jsonFields,
    LogSettings.map_jsonFields]
  rfl

/-- **The TOML document of settings holds their data**, if the numbers can be written. -/
theorem ofToml_tomlDocument {s : Settings} (h : s.rpc.fitsToml = true) (origin : Toml.Origin) :
    Datum.ofToml (.table origin s.tomlDocument.entries) = s.datum := by
  rw [Toml.Document.ofToml_entries]
  simp only [tomlDocument, List.map_cons, List.map_nil, Chain.Selection.fieldData_tomlFields,
    ServerSettings.fieldData_tomlFields h, LogSettings.fieldData_tomlFields]
  rfl

/-! ## Documents that can be written -/

/-- The JSON document of settings is well-formed. -/
theorem wellFormed_jsonDocument (s : Settings) : s.jsonDocument.WellFormed := by
  have hoptional : ∀ {α : Type} (name : String) (write : α → Json.Document) (o : Option α),
      (∀ a, (write a).WellFormed) →
        ∀ f ∈ optionalField name write o, f.2.WellFormed := by
    intro α name write o hwrite f hf
    cases o with
    | none => cases hf
    | some a =>
      rw [List.mem_singleton.mp hf]
      exact hwrite a
  have hstring : ∀ t, (Json.Document.ofString t).WellFormed := Json.wellFormed_pieces
  have hitems : ∀ items : List String,
      (Json.Document.array (items.map Json.Document.ofString)).WellFormed := by
    intro items
    show Json.Document.WellFormedItems (items.map Json.Document.ofString)
    induction items with
    | nil => exact trivial
    | cons t items ih => exact ⟨hstring t, ih⟩
  have hbool : ∀ b, (Json.Document.bool b).WellFormed := fun _ => trivial
  have hint : ∀ n, (Json.Document.ofInt n).WellFormed := Json.wellFormed_ofInt
  have hnetwork : ∀ f ∈ s.network.jsonFields, f.2.WellFormed := by
    rw [Chain.Selection.jsonFields, List.forall_mem_append]
    refine ⟨?_, hoptional _ _ _ hstring⟩
    simp [hbool]
  have hrpc : ∀ f ∈ s.rpc.jsonFields, f.2.WellFormed := by
    rw [ServerSettings.jsonFields, List.forall_mem_append, List.forall_mem_append]
    refine ⟨⟨?_, hoptional _ _ _ fun p => hint p.toNat⟩, ?_⟩
    · simp [hstring, hitems]
    · simp [hstring, hbool, hint]
  have hlogging : ∀ f ∈ s.logging.jsonFields, f.2.WellFormed := by
    rw [LogSettings.jsonFields, List.forall_mem_append]
    refine ⟨hoptional _ _ _ hstring, ?_⟩
    simp [hbool]
  apply Json.Document.wellFormed_ofFields
  simp [jsonFields, hstring, Json.Document.wellFormed_ofFields hnetwork,
    Json.Document.wellFormed_ofFields hrpc, Json.Document.wellFormed_ofFields hlogging]

/-- The keys of fields that hold the data of a record are names of the record. -/
theorem map_fst_sublist {fields : Toml.Fields} {names : List String} {values : List (Option Datum)}
    (h : Toml.fieldData fields = Record.fields names values) :
    (fields.map fun f => f.1).Sublist names := by
  have hkeys : (fields.map fun f => f.1) = (Toml.fieldData fields).map fun f => f.1 := by
    rw [Toml.fieldData, List.map_map]
    rfl
  rw [hkeys, h]
  exact Record.map_fst_fields_sublist names values

/-- The TOML document of settings can be written, if the numbers can. -/
theorem wellFormed_tomlDocument {s : Settings} (h : s.rpc.fitsToml = true) :
    s.tomlDocument.WellFormed := by
  have hnetwork := map_fst_sublist s.network.fieldData_tomlFields
  have hrpc := map_fst_sublist (ServerSettings.fieldData_tomlFields h)
  have hlogging := map_fst_sublist s.logging.fieldData_tomlFields
  have hbare : ∀ {names : List String} {t : String × Toml.Fields}, Toml.IsBare t.1 →
      (∀ n ∈ names, Toml.IsBare n) → (t.2.map fun f => f.1).Sublist names →
        ∀ l ∈ Toml.Document.tableLines t, Toml.IsBare l.key := by
    intro names t ht hnames hsub l hl
    rcases List.mem_cons.mp hl with rfl | hl
    · exact ht
    · obtain ⟨f, hf, rfl⟩ := List.mem_map.mp hl
      exact hnames f.1 (hsub.subset (List.mem_map.mpr ⟨f, hf, rfl⟩))
  refine ⟨?_, ?_, ?_⟩
  · intro l hl
    rcases List.mem_append.mp hl with hl | hl
    · rw [List.mem_singleton.mp hl]
      show Toml.IsBare "data_dir"
      decide
    · obtain ⟨t, ht, hl⟩ := List.mem_flatMap.mp hl
      simp only [tomlDocument, List.mem_cons, List.not_mem_nil, or_false] at ht
      rcases ht with rfl | rfl | rfl
      · exact hbare (show Toml.IsBare "network" by decide) (by decide) hnetwork l hl
      · exact hbare (show Toml.IsBare "rpc" by decide) (by decide) hrpc l hl
      · exact hbare (show Toml.IsBare "logging" by decide) (by decide) hlogging l hl
  · show ["data_dir", "network", "rpc", "logging"].Nodup
    decide
  · intro t ht
    simp only [tomlDocument, List.mem_cons, List.not_mem_nil, or_false] at ht
    rcases ht with rfl | rfl | rfl
    · exact List.Nodup.sublist hnetwork (by decide)
    · exact List.Nodup.sublist hrpc (by decide)
    · exact List.Nodup.sublist hlogging (by decide)

/-- Settings have a TOML text if the numbers can be written, and it is that of their document. -/
theorem toml_eq_ok_iff {s : Settings} {text : String} :
    s.toml = .ok text ↔ s.rpc.fitsToml = true ∧ text = s.tomlDocument.text := by
  rw [toml]
  cases hfits : s.rpc.fitsToml with
  | true =>
    rw [if_pos rfl, Except.ok.injEq]
    exact ⟨fun h => ⟨rfl, h.symm⟩, fun h => h.2.symm⟩
  | false =>
    rw [if_neg Bool.false_ne_true]
    constructor
    · intro h
      cases h
    · intro h
      cases h.1

/-! ## Texts and files -/

/-- **Settings are read from every text of their JSON document**, with defaults where it was cut. -/
theorem ofJson?_deletion (s : Settings) (del : Deletion) {cs : List Char}
    (h : (del.json s.jsonDocument).HasText cs) :
    ofJson? (String.ofList cs) = some (del.settings s) := by
  have hread := h.read?_length (del.wellFormed_json s.wellFormed_jsonDocument)
  rw [ofJson?, String.toList_ofList, String.length_ofList, hread]
  show ofDatum? true (Datum.ofJson (del.json s.jsonDocument)) = _
  rw [del.ofJson_json, ofJson_jsonDocument, ofDatum?_deletion]

/-- **Settings are read from every text of their TOML document**, with defaults where it was cut. -/
theorem ofToml?_deletion {s : Settings} (hs : s.rpc.fitsToml = true) (del : Deletion)
    {cs : List Char} (h : (del.toml s.tomlDocument).LaidOut cs) :
    ofToml? (String.ofList cs) = some (del.settings s) := by
  have hread := Toml.Document.read?_laidOut (del.wellFormed_toml (wellFormed_tomlDocument hs)) h
  rw [ofToml?, hread]
  show ofDatum? false (Datum.ofToml (.table .header (del.toml s.tomlDocument).entries)) = _
  rw [del.ofToml_toml, ofToml_tomlDocument hs, ofDatum?_deletion]

end Settings

/-! ### Nothing deleted -/

/-- Nothing is deleted. -/
def Deletion.nothing : Deletion := ⟨fun _ => false, fun _ _ => false⟩

namespace Deletion

/-- Settings of which nothing is deleted. -/
theorem nothing_settings (s : Settings) : nothing.settings s = s := rfl

/-- A list of which nothing is deleted. -/
theorem filter_nothing {α : Type} (xs : List α) : xs.filter (fun _ => !false) = xs :=
  List.filter_eq_self.mpr fun _ _ => rfl

/-- A TOML document of which nothing is deleted. -/
theorem nothing_toml (d : Toml.Document) : nothing.toml d = d := by
  obtain ⟨root, tables⟩ := d
  simp only [toml, nothing, filter_nothing, List.map_id']

/-- A JSON document of which nothing is deleted. -/
theorem nothing_json (d : Json.Document) : nothing.json d = d := by
  have hwithout : ∀ e : Json.Document, e.without (fun _ => false) = e := by
    intro e
    cases e with
    | object members =>
      have hany : ∀ o : Option String, o.any (fun _ => false) = false := by
        intro o
        cases o <;> rfl
      rw [Json.Document.without]
      simp only [hany, filter_nothing]
    | _ => rfl
  have hmap : d.mapFields (fun _ e => e.without fun _ => false) = d := by
    cases d with
    | object members =>
      rw [Json.Document.mapFields]
      refine congrArg Json.Document.object (List.map_id'' (fun m => ?_) members)
      cases Json.Piece.string? m.1 with
      | some _ => rw [hwithout]
      | none => rfl
    | _ => rfl
  show (d.mapFields fun _ e => e.without fun _ => false).without (fun _ => false) = d
  rw [hmap, hwithout]

/-- The directory is deleted. -/
def directory : Deletion := ⟨fun n => n == "data_dir", fun _ _ => false⟩

/-- What is left of the TOML document of settings if the directory is deleted. -/
theorem directory_toml (s : Settings) :
    directory.toml s.tomlDocument = ⟨[], s.tomlDocument.tables⟩ := by
  have hroot : s.tomlDocument.root.filter (fun f => !directory.top f.1) = [] := rfl
  have htables : s.tomlDocument.tables.filter (fun t => !directory.top t.1) =
      s.tomlDocument.tables := rfl
  rw [toml, hroot, htables]
  simp only [directory, filter_nothing, List.map_id']

end Deletion

namespace Settings

/-- A file with this extension and this text is loaded as the settings. -/
def LoadsAs (s : Settings) (extension text : String) : Prop :=
  ∀ (fs after : Files) (path : String), Path.extension path = extension →
    fs.write path (Utf8.ofString text) = .ok after → load after path = .ok s

/-- A file is loaded as what its text gives in the format that its extension stands for. -/
theorem load_write {fs after : Files} {path text : String} {format : Format}
    (hformat : Format.ofExtension? (Path.extension path) = some format)
    (hwrite : fs.write path (Utf8.ofString text) = .ok after) :
    load after path = ofText format path text := by
  rw [load, hformat, readFile, Files.readText_write hwrite]
  rfl

theorem loadsAs_json {s : Settings} {text : String} (h : ofJson? text = some s) :
    s.LoadsAs "json" text := by
  intro fs after path hpath hwrite
  have hformat : Format.ofExtension? (Path.extension path) = some .json := by
    rw [hpath]
    rfl
  rw [load_write hformat hwrite, ofText, h]

theorem loadsAs_toml {s : Settings} {text : String} (h : ofToml? text = some s) :
    s.LoadsAs "toml" text := by
  intro fs after path hpath hwrite
  have hformat : Format.ofExtension? (Path.extension path) = some .toml := by
    rw [hpath]
    rfl
  rw [load_write hformat hwrite, ofText, h]

/-- **Settings files give back the settings.** The JSON file does; there is a TOML text exactly if
the numbers of worker threads and of bytes are signed integers of 64 bits, and it does too. Whatever
fields and whole tables are deleted from either document, every text of what is left is loaded, with
defaults for what was deleted and with the other fields as they were. -/
theorem files_read_back (s : Settings) :
    (∀ (fs after : Files) (path : String), Path.extension path = "json" →
      s.saveJson fs path = .ok after → load after path = .ok s) ∧
    ((∃ text, s.toml = .ok text) ↔
      s.rpc.threads.toNat < 9223372036854775808 ∧
        s.rpc.maxBodyBytes.toNat < 9223372036854775808) ∧
    (∀ text, s.toml = .ok text → s.LoadsAs "toml" text) ∧
    (∀ (del : Deletion) (cs : List Char), (del.json s.jsonDocument).HasText cs →
      (del.settings s).LoadsAs "json" (String.ofList cs)) ∧
    (∀ text, s.toml = .ok text → ∀ (del : Deletion) (cs : List Char),
      (del.toml s.tomlDocument).LaidOut cs →
        (del.settings s).LoadsAs "toml" (String.ofList cs)) := by
  refine ⟨?_, ?_, ?_, ?_, ?_⟩
  · intro fs after path hpath hwrite
    have htext : ofJson? s.json = some s := by
      have h := s.jsonDocument.hasText_pretty
      rw [← Deletion.nothing_json s.jsonDocument] at h
      have hread := s.ofJson?_deletion .nothing h
      rwa [Deletion.nothing_json, String.ofList_toList] at hread
    exact loadsAs_json htext fs after path hpath hwrite
  · have hfits : s.rpc.fitsToml = true ↔
        s.rpc.threads.toNat < 9223372036854775808 ∧
          s.rpc.maxBodyBytes.toNat < 9223372036854775808 := by
      rw [ServerSettings.fitsToml, Bool.and_eq_true, decide_eq_true_eq, decide_eq_true_eq]
    rw [← hfits]
    constructor
    · rintro ⟨text, htext⟩
      exact (toml_eq_ok_iff.mp htext).1
    · intro h
      exact ⟨_, toml_eq_ok_iff.mpr ⟨h, rfl⟩⟩
  · intro text htext
    obtain ⟨hfits, rfl⟩ := toml_eq_ok_iff.mp htext
    have h := s.tomlDocument.laidOut_chars
    rw [← Deletion.nothing_toml s.tomlDocument] at h
    have hread := ofToml?_deletion hfits .nothing h
    rw [Deletion.nothing_toml] at hread
    exact loadsAs_toml hread
  · intro del cs h
    exact loadsAs_json (s.ofJson?_deletion del h)
  · intro text htext del cs h
    exact loadsAs_toml (ofToml?_deletion (toml_eq_ok_iff.mp htext).1 del h)

end Settings

end RpcDaemon
