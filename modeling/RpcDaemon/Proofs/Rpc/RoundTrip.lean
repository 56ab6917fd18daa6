import RpcDaemon.Proofs.Json.Denoted
import RpcDaemon.Proofs.Json.Printed
import RpcDaemon.Proofs.Json.Record
import RpcDaemon.Rpc.Response

/-!
# Replies read back

A reply is written on one line, and the line is read as the very same reply: its result, its id and
its error with number, wording and data. Floating point numbers are left out, for reading them may
round, and data that is `null`, which is read as no data. Main statement: `response_read_back`.
-/

namespace RpcDaemon

namespace Rpc

open Json (Document depthLimit)

/-! ## Parts of an error -/

/-- The number of an error is read back. -/
theorem int32?_ofInt (n : Int32) : int32? (Document.ofInt n.toInt) = some n := by
  have hlower := n.le_toInt
  have hupper := n.toInt_lt
  have hvalue : (⟨decide (n.toInt < 0), Numeral.digits n.toInt.natAbs, none, none⟩ :
      Json.NumberText).value? = some (.int (WideInt.ofInt32 n)) := by
    have h := Json.value?_ofInt (WideInt.ofInt32 n) 0
    obtain ⟨m, hm, heq⟩ := Option.map_eq_some_iff.mp h
    exact (Json.number.inj heq) ▸ hm
  unfold int32? Document.ofInt
  dsimp only
  rw [hvalue]
  show (if -2147483648 ≤ n.toInt ∧ n.toInt < 2147483648 then some (Int32.ofInt n.toInt) else none) =
    some n
  rw [if_pos ⟨by omega, by omega⟩, Int32.ofInt_toInt]

/-- The wording of an error is read back. -/
theorem string?_ofString (s : String) : string? (Document.ofString s) = some s :=
  Json.string?_pieces s

/-- Apart from floating point numbers only `null` is written as the word `null`. -/
theorem document_ne_null {v : Json} (hf : v.FloatFree) (hv : v ≠ .null) : v.document ≠ .null := by
  intro h
  cases v with
  | null => exact hv rfl
  | number n =>
    cases n with
    | int n => cases h
    | float x => exact hf
  | bool b => cases h
  | string s => cases h
  | array items => cases h
  | object members => cases h

/-! ## Errors -/

namespace ErrorObject

/-- The fields of an error, in order. -/
def fields (e : ErrorObject) : List (Option Document) :=
  [some (Document.ofInt e.code.toInt), some (Document.ofString e.message),
    e.data.map Json.document]

/-- An error is written as the fields that it has. -/
theorem document_eq (e : ErrorObject) :
    e.document = Document.ofFields (Record.fields fieldNames e.fields) := by
  rcases e with ⟨code, message, _ | data⟩
  · rfl
  · rfl

/-- A field of an error nests less deeply than the error. -/
theorem depth_lt_of_mem_fields {e : ErrorObject} {d : Document} (hd : some d ∈ e.fields) :
    d.depth < e.document.depth := by
  rw [document_eq]
  exact Document.depth_lt_record rfl hd

/-- An error can be written down if its data can. -/
theorem wellFormed_document {e : ErrorObject} (hdata : ∀ v ∈ e.data, v.FloatFree) :
    e.document.WellFormed := by
  rw [document_eq]
  apply Document.wellFormed_record
  intro d hd
  simp only [fields, List.mem_cons, Option.some.injEq, List.not_mem_nil, or_false] at hd
  rcases hd with rfl | rfl | hd
  · exact Json.wellFormed_ofInt e.code.toInt
  · exact Json.wellFormed_pieces e.message
  · obtain ⟨v, hv, rfl⟩ := Option.map_eq_some_iff.mp hd.symm
    exact Json.wellFormed_document v (hdata v hv)

/-- **An error is read back**, data and all. -/
theorem read?_document {e : ErrorObject} (hdata : ∀ v ∈ e.data, v.FloatFree ∧ v.Ordered)
    (hnull : e.data ≠ some .null) (hdepth : e.document.depth ≤ depthLimit - 1) :
    read? e.document = some e := by
  have hrecord : Document.record? true fieldNames e.document = some e.fields := by
    rw [document_eq]
    exact Document.record?_ofFields true (by decide) rfl
  rcases e with ⟨code, message, _ | data⟩
  · rw [read?, hrecord]
    simp only [fields, int32?_ofInt, string?_ofString]
    rfl
  · obtain ⟨hfloat, hordered⟩ := hdata data rfl
    have hmem : some data.document ∈ fields ⟨code, message, some data⟩ := by simp [fields]
    have hd := depth_lt_of_mem_fields hmem
    rw [Json.depth_document data hfloat] at hd
    have hvalue := Json.value?_document data (depthLimit - 2) hfloat hordered (by omega)
    have hne := document_ne_null hfloat fun h => hnull (congrArg some h)
    rw [read?, hrecord]
    simp only [fields, Option.map_some, int32?_ofInt, string?_ofString, hvalue]
    rfl

end ErrorObject

/-! ## Replies -/

namespace Response

/-- The fields of a reply, in order. -/
def fields (r : Response) : List (Option Document) :=
  [some r.result.document, some (r.error.elim .null ErrorObject.document), some r.id.document]

/-- A reply is written as its fields. -/
theorem document_eq (r : Response) :
    r.document = Document.ofFields (Record.fields fieldNames r.fields) := by
  rcases r with ⟨result, _ | e, id⟩
  · rfl
  · rfl

/-- A field of a reply nests less deeply than the reply. -/
theorem depth_lt_of_mem_fields {r : Response} {d : Document} (hd : some d ∈ r.fields) :
    d.depth < r.document.depth := by
  rw [document_eq]
  exact Document.depth_lt_record rfl hd

/-- The values within a reply. -/
def values (r : Response) : List Json :=
  r.result :: r.id :: (r.error.bind ErrorObject.data).toList

/-- A reply that can be read back from its line. -/
structure Recoverable (r : Response) : Prop where
  /-- No value has a floating point number in it. -/
  floatFree : ∀ v ∈ r.values, v.FloatFree
  /-- Members stand in the order of their names, as in every value. -/
  ordered : ∀ v ∈ r.values, v.Ordered
  /-- Data is not `null`. -/
  data_ne_null : ∀ e ∈ r.error, e.data ≠ some .null
  /-- The line nests fewer than 128 arrays and objects. -/
  depth_lt : r.document.depth < 128

variable {r : Response}

/-- The data of an error is one of the values. -/
theorem mem_values_of_mem_data {e : ErrorObject} (he : e ∈ r.error) {v : Json} (hv : v ∈ e.data) :
    v ∈ r.values := by
  have hdata : r.error.bind ErrorObject.data = some v := Option.bind_eq_some_iff.mpr ⟨e, he, hv⟩
  rw [values, hdata]
  simp

/-- Such a reply can be written down. -/
theorem Recoverable.wellFormed (h : r.Recoverable) : r.document.WellFormed := by
  rw [document_eq]
  apply Document.wellFormed_record
  intro d hd
  simp only [fields, List.mem_cons, Option.some.injEq, List.not_mem_nil, or_false] at hd
  rcases hd with rfl | rfl | rfl
  · exact Json.wellFormed_document r.result (h.floatFree _ (by simp [values]))
  · cases herror : r.error with
    | none => exact trivial
    | some e =>
      exact ErrorObject.wellFormed_document fun v hv =>
        h.floatFree v (mem_values_of_mem_data herror hv)
  · exact Json.wellFormed_document r.id (h.floatFree _ (by simp [values]))

/-- The value of a part nests less deeply than the reply, so that it is read back. -/
theorem Recoverable.part? (h : r.Recoverable) {v : Json} (hv : v ∈ r.values)
    (hmem : some v.document ∈ r.fields) : part? (some v.document) = some v := by
  have hd := depth_lt_of_mem_fields hmem
  have hdepth := h.depth_lt
  rw [Json.depth_document v (h.floatFree v hv)] at hd
  apply Json.value?_document v _ (h.floatFree v hv) (h.ordered v hv)
  rw [depthLimit]
  omega

/-- The error of a reply is read back. -/
theorem Recoverable.errorPart? (h : r.Recoverable) :
    errorPart? (r.error.elim .null ErrorObject.document) = some r.error := by
  cases herror : r.error with
  | none => rfl
  | some e =>
    have hmem : some e.document ∈ r.fields := by simp [fields, herror]
    have hd := depth_lt_of_mem_fields hmem
    have hdepth := h.depth_lt
    have hvalues := fun v hv => mem_values_of_mem_data (v := v) herror hv
    have hread := ErrorObject.read?_document (e := e)
      (fun v hv => ⟨h.floatFree v (hvalues v hv), h.ordered v (hvalues v hv)⟩)
      (h.data_ne_null e herror) (by rw [depthLimit]; omega)
    show (ErrorObject.read? e.document).map some = _
    rw [hread, Option.map_some]

/-- **The document of a reply is read as the reply.** -/
theorem Recoverable.ofDocument? (h : r.Recoverable) : ofDocument? r.document = some r := by
  have hrecord : Document.record? true fieldNames r.document = some r.fields := by
    rw [document_eq]
    exact Document.record?_ofFields true (by decide) rfl
  have hresult := h.part? (v := r.result) (by simp [values]) (by simp [fields])
  have hid := h.part? (v := r.id) (by simp [values]) (by simp [fields])
  rw [Response.ofDocument?, hrecord]
  simp only [fields, hresult, hid, h.errorPart?]
  rfl

end Response

/-- **A reply is one line, and is read back from it**, with or without the line feed at its end: no
other control stands in it. -/
theorem response_read_back (r : Response) (h : r.Recoverable) :
    ∃ line, r.body.toList = line ++ ['\n'] ∧ (∀ c ∈ line, 0x20 ≤ c.toNat) ∧
      Response.read? r.body.toList = some r ∧ Response.read? line = some r := by
  have hbody : r.body.toList = r.document.chars ++ ['\n'] := String.toList_ofList
  have hlength := r.document.depth_le_length
  refine ⟨r.document.chars, hbody, r.document.printed_chars, ?_, ?_⟩
  · have hlimit : r.document.depth ≤ (r.document.chars ++ ['\n']).length := by
      rw [List.length_append]
      omega
    rw [hbody, Response.read?, Document.read?_line h.wellFormed hlimit, Option.bind_some,
      h.ofDocument?]
  · rw [Response.read?, Document.read?_chars h.wellFormed hlength, Option.bind_some,
      h.ofDocument?]

/-- A reply with integers and the number of an error at their limits, controls, quotes and
characters of two, three and four bytes. -/
theorem response_read_back_of_limits :
    let lowest : WideInt := ⟨-9223372036854775808, by decide, by decide⟩
    let highest : WideInt := ⟨18446744073709551615, by decide, by decide⟩
    let r : Response :=
      ⟨.object [("", .int lowest), ("a\"\\\n", .int highest), ("é", .array [.null, .bool false]),
          ("\u2028", .string "\x1f"), ("😀", .object [])],
        some ⟨-2147483648, "line\r\nline", some (.array [.object [("data", .null)]])⟩,
        .string "\x00\t😀"⟩
    r.Recoverable ∧
      ∃ line, r.body.toList = line ++ ['\n'] ∧ (∀ c ∈ line, 0x20 ≤ c.toNat) ∧
        Response.read? r.body.toList = some r ∧ Response.read? line = some r := by
  intro lowest highest r
  have hr : r.Recoverable :=
    { floatFree := by
        intro v hv
        simp only [Response.values, r, Option.bind_some, Option.toList_some, List.mem_cons,
          List.not_mem_nil, or_false] at hv
        rcases hv with rfl | rfl | rfl
        · exact ⟨trivial, trivial, ⟨trivial, trivial, trivial⟩, trivial, trivial, trivial⟩
        · exact trivial
        · exact ⟨⟨trivial, trivial⟩, trivial⟩
      ordered := by
        intro v hv
        simp only [Response.values, r, Option.bind_some, Option.toList_some, List.mem_cons,
          List.not_mem_nil, or_false] at hv
        rcases hv with rfl | rfl | rfl
        · exact ⟨by decide, trivial, trivial, ⟨trivial, trivial, trivial⟩, trivial,
            ⟨by decide, trivial⟩, trivial⟩
        · exact trivial
        · exact ⟨⟨by decide, trivial, trivial⟩, trivial⟩
      data_ne_null := by
        intro e he
        cases he
        simp
      depth_lt := by decide }
  exact ⟨hr, response_read_back r hr⟩

end Rpc

end RpcDaemon
