import RpcDaemon.Proofs.Rpc.Envelope
import RpcDaemon.Proofs.Rpc.RoundTrip

/-!
# Errors in replies

An error has three forms: the value of a whole reply that carries it, the reply with its error
member as a record, and the line that is written. They agree, also where the data of the error is
`null`, which is data and stands there as a member. Main statement: `Error.encoders_agree`.
-/

namespace RpcDaemon

namespace Rpc

open Json (Document depthLimit)

/-! ## Members -/

/-- The error member has data exactly if the error has, and `null` is data too. -/
theorem Error.get?_toObject_data (e : Error) : e.toObject.get? "data" = e.data := by
  rcases e with ⟨code, message, _ | data⟩
  · -- A member called `data` would be that of the number or of the wording.
    refine Option.eq_none_iff_forall_ne_some.mpr fun v hv => ?_
    have hmem := Members.mem_of_get?_ofList hv
    simp at hmem
  · have hnames : ["code", "message", "data"].Nodup := by decide
    exact Members.get?_ofList_of_mem hnames (by simp)

/-- The error member of a reply is the error as an object. -/
theorem Error.get?_toJson_error (e : Error) (id : Json) :
    (e.toJson id).get? "error" = some e.toObject := by
  have hnames : ["result", "error", "id"].Nodup := by decide
  exact Members.get?_ofList_of_mem hnames (by simp)

/-- The record of an error has the value of the error. -/
theorem ErrorObject.toJson_ofError (e : Error) : (ErrorObject.ofError e).toJson = e.toObject := by
  rcases e with ⟨code, message, _ | data⟩
  · rfl
  · rfl

/-- A reply that carries an error has the value that the error gives. -/
theorem Response.toJson_failure (e : Error) (id : Json) :
    (Response.failure e id).toJson = e.toJson id := by
  rw [Error.toJson, ← ErrorObject.toJson_ofError]
  rfl

/-- The line of the reply has the same members: data is written exactly if the error has some. -/
theorem Response.document_failure (e : Error) (id : Json) :
    ∃ fields, (Response.failure e id).document =
        Document.ofFields [("result", .null), ("error", Document.ofFields fields),
          ("id", id.document)] ∧
      ("data" ∈ fields.map Prod.fst ↔ e.data.isSome) := by
  rcases e with ⟨code, message, _ | data⟩
  · exact ⟨[("code", _), ("message", _)], rfl, by simp⟩
  · exact ⟨[("code", _), ("message", _), ("data", data.document)], rfl, by simp⟩

/-! ## Lines -/

/-- An error member can be written down if its data can. -/
theorem ErrorObject.writable_toJson {e : ErrorObject} {k : Nat}
    (h : ∀ v ∈ e.data, v.Writable k) : e.toJson.Writable (k + 1) := by
  have hcode : (Json.int (WideInt.ofInt32 e.code)).Writable k := ⟨trivial, trivial, Nat.zero_le k⟩
  have hmessage : (Json.string e.message).Writable k := ⟨trivial, trivial, Nat.zero_le k⟩
  refine Json.writable_ofMembers fun m hm => ?_
  rcases e with ⟨code, message, _ | data⟩
  · simp only [List.mem_cons, List.not_mem_nil, or_false] at hm
    rcases hm with rfl | rfl
    · exact hcode
    · exact hmessage
  · simp only [List.mem_append, List.mem_cons, List.not_mem_nil, or_false] at hm
    rcases hm with (rfl | rfl) | rfl
    · exact hcode
    · exact hmessage
    · exact h data rfl

namespace Response

variable {r : Response}

/-- **The value of a reply can be written down** if its parts can and its line nests fewer than 128
arrays and objects. -/
theorem writable_toJson (hparts : ∀ v ∈ r.values, v.FloatFree ∧ v.Ordered)
    (hdepth : r.document.depth < 128) : r.toJson.Writable depthLimit := by
  -- What stands within the reply nests less deeply than its line.
  have hpart : ∀ v ∈ r.values, some v.document ∈ r.fields → v.Writable (depthLimit - 1) := by
    intro v hv hmem
    have hd := depth_lt_of_mem_fields hmem
    rw [Json.depth_document v (hparts v hv).1] at hd
    exact ⟨(hparts v hv).1, (hparts v hv).2, by rw [depthLimit]; omega⟩
  refine Json.writable_ofMembers (k := depthLimit - 1) fun m hm => ?_
  simp only [List.mem_cons, List.not_mem_nil, or_false] at hm
  rcases hm with rfl | rfl | rfl
  · exact hpart r.result (by simp [values]) (by simp [fields])
  · cases herror : r.error with
    | none => exact ⟨trivial, trivial, Nat.zero_le _⟩
    | some e =>
      have hd := depth_lt_of_mem_fields (r := r) (d := e.document) (by simp [fields, herror])
      refine ErrorObject.writable_toJson (k := depthLimit - 2) fun v hv => ?_
      have hv' := hparts v (mem_values_of_mem_data herror hv)
      have hdata := ErrorObject.depth_lt_of_mem_fields (e := e) (d := v.document) (by
        rw [ErrorObject.fields, Option.mem_def.mp hv]
        simp)
      rw [Json.depth_document v hv'.1] at hdata
      exact ⟨hv'.1, hv'.2, by rw [depthLimit]; omega⟩
  · exact hpart r.id (by simp [values]) (by simp [fields])

end Response

/-- **The forms of an error agree**: the value of a whole reply is that of the reply as a record,
its error member is the error as an object, with data exactly if the error carries some, in the
value and in the line that is written, and the line of the reply is read as that value. -/
theorem Error.encoders_agree (e : Error) (id : Json) :
    e.toJson id = (Response.failure e id).toJson ∧
      (e.toJson id).get? "error" = some e.toObject ∧
      e.toObject.get? "data" = e.data ∧
      (∃ fields, (Response.failure e id).document =
          Document.ofFields [("result", .null), ("error", Document.ofFields fields),
            ("id", id.document)] ∧
        ("data" ∈ fields.map Prod.fst ↔ e.data.isSome)) ∧
      ((∀ v, v = id ∨ e.data = some v → v.FloatFree ∧ v.Ordered) →
        (Response.failure e id).document.depth < 128 →
        Json.readBytes? (Utf8.ofString (Response.failure e id).body) = some (e.toJson id)) := by
  refine ⟨(Response.toJson_failure e id).symm, e.get?_toJson_error id, e.get?_toObject_data,
    Response.document_failure e id, ?_⟩
  intro hparts hdepth
  rw [← Response.toJson_failure]
  refine Response.readBytes?_body (Response.writable_toJson (fun v hv => ?_) hdepth)
  have hvalues : (Response.failure e id).values = .null :: id :: e.data.toList := rfl
  rw [hvalues, List.mem_cons, List.mem_cons, Option.mem_toList] at hv
  rcases hv with rfl | hv | hv
  · exact ⟨trivial, trivial⟩
  · exact hparts v (Or.inl hv)
  · exact hparts v (Or.inr hv)

/-- An error whose data is `null`, in a reply to a call with a nested id. -/
theorem Error.encoders_agree_of_null :
    let e : Error := ⟨.walletError, "a \"quoted\"\nline", some .null⟩
    let id : Json := .object [("k", .array [.bool true, .string "\u0001"])]
    (∀ v, v = id ∨ e.data = some v → v.FloatFree ∧ v.Ordered) ∧
      (Response.failure e id).document.depth < 128 ∧
      e.toObject.get? "data" = some .null ∧
      Json.readBytes? (Utf8.ofString (Response.failure e id).body) = some (e.toJson id) := by
  intro e id
  have hparts : ∀ v, v = id ∨ e.data = some v → v.FloatFree ∧ v.Ordered := by
    rintro v (rfl | hv)
    · exact ⟨⟨⟨trivial, trivial, trivial⟩, trivial⟩, by decide, ⟨trivial, trivial, trivial⟩,
        trivial⟩
    · cases hv
      exact ⟨trivial, trivial⟩
  have hdepth : (Response.failure e id).document.depth < 128 := by decide
  obtain ⟨-, -, hdata, -, hread⟩ := Error.encoders_agree e id
  exact ⟨hparts, hdepth, hdata, hread hparts hdepth⟩

end Rpc

end RpcDaemon
