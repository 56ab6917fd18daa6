import RpcDaemon.Proofs.Json.Members
import RpcDaemon.Proofs.Json.RoundTrip

/-!
# Documents that denote a value

A value may be written down in several ways, since the members of an object may stand in any order.
`Document.Denotes` says that a document can be written down within a limit and is read as a given
value. Main statement: a line that holds the document is read as that value,
`Document.Denotes.readBytes?_line`.
-/

namespace RpcDaemon

namespace Json

/-! ## Values that can be written down -/

/-- A value that can be written down so that it is read back: it has no floating point number in it,
its members stand in the order of their names, and it nests at most `limit` deep. -/
structure Writable (limit : Nat) (v : Json) : Prop where
  /-- No number has a point. -/
  floatFree : v.FloatFree
  /-- Members stand in the order of their names, as in every value. -/
  ordered : v.Ordered
  /-- The value does not nest too deeply. -/
  depth_le : v.depth ≤ limit

/-- Every item can be written down if all can. -/
theorem writable_of_mem_items {limit : Nat} {items : List Json} (hf : FloatFreeItems items)
    (ho : OrderedItems items) (hd : depthItems items ≤ limit) {v : Json} (hv : v ∈ items) :
    v.Writable limit := by
  induction items with
  | nil => cases hv
  | cons a items ih =>
    obtain ⟨hfirst, hrest⟩ := Nat.max_le.mp hd
    rcases List.mem_cons.mp hv with rfl | hv
    · exact ⟨hf.1, ho.1, hfirst⟩
    · exact ih hf.2 ho.2 hrest hv

/-- Every member can be written down if all can. -/
theorem writable_of_mem_members {limit : Nat} {ms : List (String × Json)}
    (hf : FloatFreeMembers ms) (ho : OrderedMembers ms) (hd : depthMembers ms ≤ limit)
    {m : String × Json} (hm : m ∈ ms) : m.2.Writable limit := by
  induction ms with
  | nil => cases hm
  | cons a ms ih =>
    obtain ⟨hfirst, hrest⟩ := Nat.max_le.mp hd
    rcases List.mem_cons.mp hm with rfl | hm
    · exact ⟨hf.1, ho.1, hfirst⟩
    · exact ih hf.2 ho.2 hrest hm

/-- Members can be written down together if each can. -/
theorem writable_members {limit : Nat} {ms : List (String × Json)}
    (h : ∀ m ∈ ms, m.2.Writable limit) :
    FloatFreeMembers ms ∧ OrderedMembers ms ∧ depthMembers ms ≤ limit := by
  induction ms with
  | nil => exact ⟨trivial, trivial, Nat.zero_le limit⟩
  | cons m ms ih =>
    have hfirst := h m List.mem_cons_self
    obtain ⟨hf, ho, hd⟩ := ih fun m' hm' => h m' (List.mem_cons_of_mem m hm')
    exact ⟨⟨hfirst.floatFree, hf⟩, ⟨hfirst.ordered, ho⟩, Nat.max_le.mpr ⟨hfirst.depth_le, hd⟩⟩

/-- An object can be written down if the members that it is put together from can. -/
theorem writable_ofMembers {k : Nat} {ms : List (String × Json)}
    (h : ∀ m ∈ ms, m.2.Writable k) : (ofMembers ms).Writable (k + 1) := by
  have hsorted : ∀ m ∈ Members.ofList ms, m.2.Writable k := fun m hm =>
    h m (Members.mem_of_mem_ofList hm)
  obtain ⟨hf, ho, hd⟩ := writable_members hsorted
  exact ⟨hf, ⟨Members.sorted_ofList ms, ho⟩, Nat.succ_le_succ hd⟩

/-- The members that an object was put together from can be written down if the object can. -/
theorem Writable.of_mem {limit : Nat} {ms : List (String × Json)}
    (h : (ofMembers ms).Writable (limit + 1)) (hnodup : (ms.map Prod.fst).Nodup)
    {m : String × Json} (hm : m ∈ ms) : m.2.Writable limit :=
  writable_of_mem_members h.floatFree h.ordered.2 (Nat.le_of_succ_le_succ h.depth_le)
    (Members.mem_ofList hnodup hm)

/-- The items of an array can be written down if the array can. -/
theorem Writable.of_mem_array {limit : Nat} {items : List Json}
    (h : (Json.array items).Writable limit) {v : Json} (hv : v ∈ items) : v.Writable limit :=
  writable_of_mem_items h.floatFree h.ordered (Nat.le_of_succ_le h.depth_le) hv

/-- A value that is put together from members nests at least one level. -/
theorem exists_limit_of_ofMembers {limit : Nat} {ms : List (String × Json)}
    (h : (ofMembers ms).Writable limit) : ∃ k, limit = k + 1 := by
  have hd : depthMembers (Members.ofList ms) + 1 ≤ limit := h.depth_le
  exact ⟨limit - 1, by omega⟩

/-! ## Documents -/

namespace Document

/-- The document can be written down, nests at most `limit` deep, and denotes the value `v`. -/
structure Denotes (limit : Nat) (d : Document) (v : Json) : Prop where
  /-- Every number and every string is one that a text can have. -/
  wellFormed : d.WellFormed
  /-- The nesting keeps to the limit. -/
  depth_le : d.depth ≤ limit
  /-- The document is read as the value. -/
  value : d.value? limit = some v

variable {limit : Nat}

/-- A value is denoted by its own document. -/
theorem denotes_document {v : Json} (h : v.Writable limit) : v.document.Denotes limit v where
  wellFormed := wellFormed_document v h.floatFree
  depth_le := by
    rw [depth_document v h.floatFree]
    exact h.depth_le
  value := value?_document v limit h.floatFree h.ordered h.depth_le

/-- The word `null` denotes `null`. -/
theorem denotes_null : Document.null.Denotes limit .null where
  wellFormed := trivial
  depth_le := Nat.zero_le limit
  value := rfl

/-- An integer that fits is denoted by its digits. -/
theorem denotes_ofInt (n : WideInt) : (ofInt n.val).Denotes limit (.int n) where
  wellFormed := wellFormed_ofInt n.val
  depth_le := Nat.zero_le limit
  value := value?_ofInt n limit

/-- A string is denoted by its characters. -/
theorem denotes_ofString (s : String) : (ofString s).Denotes limit (.string s) where
  wellFormed := wellFormed_pieces s
  depth_le := Nat.zero_le limit
  value := by
    show (Piece.string? (pieces s)).map Json.string = _
    rw [string?_pieces, Option.map_some]

/-! ## Objects -/

/-- The members of an object that names the parts of a value. -/
def fieldMembers (parts : List (String × Document × Json)) : List (List Piece × Document) :=
  parts.map fun p => (pieces p.1, p.2.1)

/-- Members whose documents denote values are put together one by one. -/
theorem memberValues?_fieldMembers {parts : List (String × Document × Json)}
    (h : ∀ p ∈ parts, p.2.1.Denotes limit p.2.2) (acc : List (String × Json)) :
    memberValues? limit (fieldMembers parts) acc =
      some (parts.foldl (fun acc p => Members.insert p.1 p.2.2 acc) acc) := by
  induction parts generalizing acc with
  | nil => rfl
  | cons p parts ih =>
    have hp := h p List.mem_cons_self
    rw [fieldMembers, List.map_cons, memberValues?, string?_pieces, hp.value]
    exact ih (fun q hq => h q (List.mem_cons_of_mem p hq)) _

/-- Members whose documents can be written down can be so themselves, and nest no deeper. -/
theorem wellFormed_fieldMembers {parts : List (String × Document × Json)}
    (h : ∀ p ∈ parts, p.2.1.Denotes limit p.2.2) :
    WellFormedMembers (fieldMembers parts) ∧ depthMembers (fieldMembers parts) ≤ limit := by
  induction parts with
  | nil => exact ⟨trivial, Nat.zero_le limit⟩
  | cons p parts ih =>
    have hp := h p List.mem_cons_self
    obtain ⟨hw, hd⟩ := ih fun q hq => h q (List.mem_cons_of_mem p hq)
    exact ⟨⟨wellFormed_pieces p.1, hp.wellFormed, hw⟩, Nat.max_le.mpr ⟨hp.depth_le, hd⟩⟩

/-- **An object whose fields denote values denotes the object of these values**, whatever the order
in which the fields stand. -/
theorem denotes_ofFields (parts : List (String × Document × Json))
    (h : ∀ p ∈ parts, p.2.1.Denotes limit p.2.2) :
    (ofFields (parts.map fun p => (p.1, p.2.1))).Denotes (limit + 1)
      (Json.ofMembers (parts.map fun p => (p.1, p.2.2))) := by
  obtain ⟨hw, hd⟩ := wellFormed_fieldMembers h
  have hmembers : ofFields (parts.map fun p => (p.1, p.2.1)) = .object (fieldMembers parts) := by
    rw [ofFields, List.map_map]
    rfl
  rw [hmembers]
  refine ⟨hw, Nat.succ_le_succ hd, ?_⟩
  rw [value?, memberValues?_fieldMembers h, Option.map_some, Json.ofMembers, Members.ofList,
    List.foldl_map]

/-! ## Lines -/

/-- The text of a document is read back from its line. -/
theorem read?_line {d : Document} (hw : d.WellFormed) (hd : d.depth ≤ limit) :
    read? limit (d.chars ++ ['\n']) = some d :=
  read?_laidOut blanks_nil (laidOut_chars d) (blanks_newline 0) hw hd

/-- **The line that holds a document is read as the value that the document denotes.** -/
theorem Denotes.readBytes?_line {d : Document} {v : Json} (h : d.Denotes depthLimit v) :
    readBytes? (Utf8.ofString (String.ofList (d.chars ++ ['\n']))) = some v := by
  rw [readBytes?, Utf8.ofString, String.toList_ofList, Utf8.decode?_encode, Option.bind_some,
    readChars?, read?_line h.wellFormed h.depth_le, Option.bind_some, h.value]

end Document

end Json

end RpcDaemon
