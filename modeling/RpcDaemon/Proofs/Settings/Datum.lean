import RpcDaemon.Proofs.Json.Record
import RpcDaemon.Proofs.Toml.Document
import RpcDaemon.Settings.Datum

/-!
# Deleting from documents

Fields and whole tables can be deleted from a settings file. What is left is the same data, whether
it is deleted from a JSON document, from a TOML document or from the data that either of them holds.
Main statements: `Deletion.ofJson_json` and `Deletion.ofToml_toml`.
-/

namespace RpcDaemon

/-- What is deleted from a document. -/
structure Deletion where
  /-- Whether a name of the root is deleted: a field, or a table with all its fields. -/
  top : String → Bool
  /-- Whether a field of a table is deleted. -/
  field : String → String → Bool

/-! ## JSON -/

namespace Json

namespace Document

/-- An object without the members of some names. -/
def without (gone : String → Bool) : Document → Document
  | .object members => .object (members.filter fun m => !(Piece.string? m.1).any gone)
  | d => d

/-- An object whose members are changed; the change is given their names. -/
def mapFields (change : String → Document → Document) : Document → Document
  | .object members =>
      .object (members.map fun m =>
        (m.1, match Piece.string? m.1 with
          | some k => change k m.2
          | none => m.2))
  | d => d

/-- Members are well-formed if each of them is. -/
theorem wellFormedMembers_iff {members : List (List Piece × Document)} :
    WellFormedMembers members ↔
      ∀ m ∈ members, (∀ p ∈ m.1, p.WellFormed) ∧ m.2.WellFormed := by
  induction members with
  | nil =>
    constructor
    · intro _ m hm
      cases hm
    · intro _
      exact trivial
  | cons m members ih =>
    obtain ⟨k, d⟩ := m
    rw [List.forall_mem_cons, WellFormedMembers, ih, and_assoc]

/-- What is left of a well-formed document is well-formed. -/
theorem WellFormed.without {d : Document} (h : d.WellFormed) (gone : String → Bool) :
    (d.without gone).WellFormed := by
  cases d with
  | object members =>
    have hmembers := wellFormedMembers_iff.mp h
    exact wellFormedMembers_iff.mpr fun m hm => hmembers m (List.mem_of_mem_filter hm)
  | _ => exact h

/-- A document whose members are changed is well-formed if the changed members are. -/
theorem WellFormed.mapFields {d : Document} (h : d.WellFormed)
    {change : String → Document → Document}
    (hchange : ∀ k e, e.WellFormed → (change k e).WellFormed) :
    (d.mapFields change).WellFormed := by
  cases d with
  | object members =>
    have hmembers := wellFormedMembers_iff.mp h
    apply wellFormedMembers_iff.mpr
    intro m hm
    obtain ⟨n, hn, rfl⟩ := List.mem_map.mp hm
    obtain ⟨hname, hdoc⟩ := hmembers n hn
    refine ⟨hname, ?_⟩
    dsimp only
    split
    · exact hchange _ _ hdoc
    · exact hdoc
  | _ => exact h

end Document

end Json

namespace Deletion

variable (del : Deletion)

/-- A JSON document without what is deleted. -/
def json (d : Json.Document) : Json.Document :=
  (d.mapFields fun k e => e.without (del.field k)).without del.top

/-- What is left of a well-formed JSON document is well-formed. -/
theorem wellFormed_json {d : Json.Document} (h : d.WellFormed) : (del.json d).WellFormed :=
  (h.mapFields fun k _ he => he.without (del.field k)).without del.top

/-! ## TOML -/

/-- A TOML document without what is deleted. -/
def toml (d : Toml.Document) : Toml.Document where
  root := d.root.filter fun f => !del.top f.1
  tables := (d.tables.filter fun t => !del.top t.1).map fun t =>
    (t.1, t.2.filter fun f => !del.field t.1 f.1)

/-- A line that is left is one of the lines before, or the header of a table with fewer fields. -/
theorem key_mem_of_mem_lines {d : Toml.Document} {l : Toml.Line} (hl : l ∈ (del.toml d).lines) :
    ∃ m ∈ d.lines, m.key = l.key := by
  rcases List.mem_append.mp hl with hl | hl
  · obtain ⟨f, hf, rfl⟩ := List.mem_map.mp hl
    exact ⟨_, List.mem_append_left _ (List.mem_map.mpr ⟨f, List.mem_of_mem_filter hf, rfl⟩), rfl⟩
  · obtain ⟨t, ht, hl⟩ := List.mem_flatMap.mp hl
    obtain ⟨u, hu, rfl⟩ := List.mem_map.mp ht
    have hu := List.mem_of_mem_filter hu
    rcases List.mem_cons.mp hl with rfl | hl
    · exact ⟨.header u.1, List.mem_append_right _
        (List.mem_flatMap.mpr ⟨u, hu, List.mem_cons_self⟩), rfl⟩
    · obtain ⟨f, hf, rfl⟩ := List.mem_map.mp hl
      have hfield : Toml.Line.field f ∈ u.2.map Toml.Line.field :=
        List.mem_map.mpr ⟨f, List.mem_of_mem_filter hf, rfl⟩
      exact ⟨.field f, List.mem_append_right _
        (List.mem_flatMap.mpr ⟨u, hu, List.mem_cons_of_mem _ hfield⟩), rfl⟩

/-- What is left of a TOML document that can be written can be written. -/
theorem wellFormed_toml {d : Toml.Document} (h : d.WellFormed) : (del.toml d).WellFormed where
  bare := by
    intro l hl
    obtain ⟨m, hm, hkey⟩ := del.key_mem_of_mem_lines hl
    exact hkey ▸ h.bare m hm
  nodup := by
    have htables : ((del.toml d).tables.map fun t => t.1) =
        (d.tables.filter fun t => !del.top t.1).map fun t => t.1 := by
      rw [toml, List.map_map]
      rfl
    rw [htables]
    exact h.nodup.sublist ((List.filter_sublist.map _).append (List.filter_sublist.map _))
  nodup_fields := by
    intro t ht
    obtain ⟨u, hu, rfl⟩ := List.mem_map.mp ht
    exact (h.nodup_fields u (List.mem_of_mem_filter hu)).sublist (List.filter_sublist.map _)

end Deletion

/-! ## Data -/

namespace Datum

/-- Fields as data. -/
def ofFields (fields : List (String × Datum)) : Datum :=
  .map (fields.map fun f => (some f.1, f.2))

/-- Data without the members of some names. -/
def without (gone : String → Bool) : Datum → Datum
  | .map members => .map (members.filter fun m => !m.1.any gone)
  | d => d

/-- Data whose members are changed; the change is given their names. -/
def mapFields (change : String → Datum → Datum) : Datum → Datum
  | .map members =>
      .map (members.map fun m =>
        (m.1, match m.1 with
          | some k => change k m.2
          | none => m.2))
  | d => d

/-- The members of an object are data one by one. -/
theorem ofJsonMembers_eq_map (members : List (List Json.Piece × Json.Document)) :
    ofJsonMembers members = members.map fun m => (Json.Piece.string? m.1, ofJson m.2) := by
  induction members with
  | nil => rfl
  | cons m members ih => rw [ofJsonMembers, ih, List.map_cons]

/-- The items of an array are data one by one. -/
theorem ofJsonItems_eq_map (items : List Json.Document) :
    ofJsonItems items = items.map ofJson := by
  induction items with
  | nil => rfl
  | cons d items ih => rw [ofJsonItems, ih, List.map_cons]

/-- The entries of a table are data one by one. -/
theorem ofTomlEntries_eq_map (entries : Toml.Entries) :
    ofTomlEntries entries = entries.map fun e => (some e.1, ofToml e.2) := by
  induction entries with
  | nil => rfl
  | cons e entries ih => rw [ofTomlEntries, ih, List.map_cons]

/-- The items of a list are data one by one. -/
theorem ofTomlItems_eq_map (items : List Toml.Value) : ofTomlItems items = items.map ofToml := by
  induction items with
  | nil => rfl
  | cons v items ih => rw [ofTomlItems, ih, List.map_cons]

/-- The data of an object with fields. -/
theorem ofJson_ofFields (fields : List (String × Json.Document)) :
    ofJson (.ofFields fields) = ofFields (fields.map fun f => (f.1, ofJson f.2)) := by
  rw [Json.Document.ofFields, ofJson, ofJsonMembers_eq_map, ofFields, List.map_map, List.map_map]
  congr 1
  apply List.map_congr_left
  intro f _
  simp only [Function.comp, Json.string?_pieces]

/-- Deleting from a document deletes from its data. -/
theorem ofJson_without (gone : String → Bool) (d : Json.Document) :
    ofJson (d.without gone) = (ofJson d).without gone := by
  cases d with
  | object members =>
    rw [Json.Document.without, ofJson, ofJsonMembers_eq_map, ofJson, ofJsonMembers_eq_map, without,
      List.filter_map]
    rfl
  | number n =>
    show ofJson (.number n) = (ofJson (.number n)).without gone
    rw [ofJson]
    split <;> rfl
  | _ => rfl

/-- Changing the members of a document changes those of its data. -/
theorem ofJson_mapFields {change : String → Json.Document → Json.Document}
    {change' : String → Datum → Datum}
    (h : ∀ k e, ofJson (change k e) = change' k (ofJson e)) (d : Json.Document) :
    ofJson (d.mapFields change) = (ofJson d).mapFields change' := by
  cases d with
  | object members =>
    rw [Json.Document.mapFields, ofJson, ofJsonMembers_eq_map, ofJson, ofJsonMembers_eq_map,
      mapFields, List.map_map, List.map_map]
    congr 1
    apply List.map_congr_left
    intro m _
    dsimp only [Function.comp]
    split
    · rename_i k hk
      rw [hk, h]
    · rename_i hk
      rw [hk]
  | number n =>
    show ofJson (.number n) = (ofJson (.number n)).mapFields change'
    rw [ofJson]
    split <;> rfl
  | _ => rfl

/-- Fields without those of some names. -/
theorem without_ofFields (gone : String → Bool) (fields : List (String × Datum)) :
    (ofFields fields).without gone = ofFields (fields.filter fun f => !gone f.1) := by
  rw [ofFields, without, List.filter_map]
  rfl

/-- Fields whose values are changed. -/
theorem mapFields_ofFields (change : String → Datum → Datum) (fields : List (String × Datum)) :
    (ofFields fields).mapFields change = ofFields (fields.map fun f => (f.1, change f.1 f.2)) := by
  rw [ofFields, mapFields, ofFields, List.map_map, List.map_map]
  rfl

/-- The fields of a record are read from data that holds them. -/
theorem record?_ofFields (strict : Bool) {names : List String} (hnodup : names.Nodup)
    {values : List (Option Datum)} (hlength : names.length = values.length) :
    (ofFields (Record.fields names values)).record? strict names = some values :=
  Record.ofMembers?_fields hnodup hlength

/-- A field whose name is not known is passed over. -/
theorem record?_ofFields_cons (strict : Bool) {name : String} {names : List String}
    (h : name ∉ names) (d : Datum) (fields : List (String × Datum)) :
    (ofFields ((name, d) :: fields)).record? strict names =
      (ofFields fields).record? strict names := by
  rw [ofFields, record?, List.map_cons, Record.ofMembers?, Record.place?_of_notMem h]
  rfl

end Datum

namespace Toml

/-- The data of a value that is written. -/
def Written.datum (v : Written) : Datum := Datum.ofToml v.value

/-- Nothing can be deleted from a value that is no table. -/
theorem Written.without_datum (gone : String → Bool) (v : Written) :
    v.datum.without gone = v.datum := by
  cases v <;> rfl

/-- The data of fields. -/
def fieldData (fields : Fields) : List (String × Datum) := fields.map fun f => (f.1, f.2.datum)

/-- The data of a document, field by field. -/
theorem Document.ofToml_entries (d : Document) (origin : Origin) :
    Datum.ofToml (.table origin d.entries) =
      Datum.ofFields (fieldData d.root ++
        d.tables.map fun t => (t.1, Datum.ofFields (fieldData t.2))) := by
  have hfields : ∀ fields : Fields, Datum.ofTomlEntries (fieldEntries fields) =
      (fieldData fields).map fun f => (some f.1, f.2) := by
    intro fields
    rw [Datum.ofTomlEntries_eq_map, fieldEntries, fieldData, List.map_map, List.map_map]
    rfl
  have htables : Datum.ofTomlEntries
      (d.tables.map fun t => (t.1, .table .header (fieldEntries t.2))) =
        (d.tables.map fun t => (t.1, Datum.ofFields (fieldData t.2))).map
          fun f => (some f.1, f.2) := by
    rw [Datum.ofTomlEntries_eq_map, List.map_map, List.map_map]
    apply List.map_congr_left
    intro t _
    simp only [Function.comp, Datum.ofToml, Datum.ofFields, hfields]
  rw [Datum.ofToml, Document.entries, Datum.ofTomlEntries_eq_map, List.map_append,
    ← Datum.ofTomlEntries_eq_map, ← Datum.ofTomlEntries_eq_map, hfields, htables, Datum.ofFields,
    List.map_append]

end Toml

namespace Deletion

variable (del : Deletion)

/-- Data without what is deleted. -/
def datum (d : Datum) : Datum :=
  (d.mapFields fun k e => e.without (del.field k)).without del.top

/-- **Deleting from a JSON document deletes from its data.** -/
theorem ofJson_json (d : Json.Document) :
    Datum.ofJson (del.json d) = del.datum (Datum.ofJson d) := by
  rw [json, Datum.ofJson_without,
    Datum.ofJson_mapFields fun k e => Datum.ofJson_without (del.field k) e, datum]

/-- **Deleting from a TOML document deletes from its data.** -/
theorem ofToml_toml (d : Toml.Document) (origin : Toml.Origin) :
    Datum.ofToml (.table origin (del.toml d).entries) =
      del.datum (Datum.ofToml (.table origin d.entries)) := by
  have hroot : (Toml.fieldData d.root).map (fun f => (f.1, f.2.without (del.field f.1))) =
      Toml.fieldData d.root := by
    rw [Toml.fieldData, List.map_map]
    apply List.map_congr_left
    intro f _
    simp only [Function.comp, Toml.Written.without_datum]
  have hfilter : ∀ (gone : String → Bool) (fields : Toml.Fields),
      (Toml.fieldData fields).filter (fun f => !gone f.1) =
        Toml.fieldData (fields.filter fun f => !gone f.1) := by
    intro gone fields
    rw [Toml.fieldData, List.filter_map]
    rfl
  have htables : ((d.tables.map fun t => (t.1, Datum.ofFields (Toml.fieldData t.2))).map
      fun f => (f.1, f.2.without (del.field f.1))).filter (fun f => !del.top f.1) =
        (del.toml d).tables.map fun t => (t.1, Datum.ofFields (Toml.fieldData t.2)) := by
    rw [toml, List.map_map, List.map_map, List.filter_map]
    apply List.map_congr_left
    intro t _
    simp only [Function.comp, Datum.without_ofFields, hfilter]
  rw [Toml.Document.ofToml_entries, Toml.Document.ofToml_entries, datum, Datum.mapFields_ofFields,
    Datum.without_ofFields, List.map_append, hroot, List.filter_append, hfilter, htables]
  rfl

end Deletion

end RpcDaemon
