import RpcDaemon.Proofs.Json.Denoted
import RpcDaemon.Rpc.Response

/-!
# The envelope of a reply

A reply is written with its members in the order in which they are declared, and is a value with its
members in the order of their names. Both are the same JSON: the line of a reply is read as its
value. Main statement: `Response.readBytes?_body`.
-/

namespace RpcDaemon

namespace Rpc

open Json (Document)

variable {limit : Nat}

/-- The error member is written as the value that it is. -/
theorem ErrorObject.denotes_document {e : ErrorObject} (h : e.toJson.Writable limit) :
    e.document.Denotes limit e.toJson := by
  have hcode : ∀ k, (Document.ofInt e.code.toInt).Denotes k (.int (WideInt.ofInt32 e.code)) :=
    fun k => Document.denotes_ofInt (WideInt.ofInt32 e.code)
  obtain ⟨k, rfl⟩ := Json.exists_limit_of_ofMembers h
  rcases e with ⟨code, message, _ | data⟩
  · refine Document.denotes_ofFields [("code", _, _), ("message", _, _)] ?_
    intro p hp
    simp only [List.mem_cons, List.not_mem_nil, or_false] at hp
    rcases hp with rfl | rfl
    · exact hcode k
    · exact Document.denotes_ofString message
  · have hnames : ["code", "message", "data"].Nodup := by decide
    have hdata : data.Writable k := h.of_mem (m := ("data", data)) hnames (by simp)
    refine Document.denotes_ofFields [("code", _, _), ("message", _, _), ("data", _, _)] ?_
    intro p hp
    simp only [List.mem_cons, List.not_mem_nil, or_false] at hp
    rcases hp with rfl | rfl | rfl
    · exact hcode k
    · exact Document.denotes_ofString message
    · exact Document.denotes_document hdata

namespace Response

/-- A reply is written as the value that it is. -/
theorem denotes_document {r : Response} (h : r.toJson.Writable limit) :
    r.document.Denotes limit r.toJson := by
  obtain ⟨k, rfl⟩ := Json.exists_limit_of_ofMembers h
  have hnames : ["result", "error", "id"].Nodup := by decide
  have hresult : r.result.Writable k := h.of_mem (m := ("result", r.result)) hnames (by simp)
  have hid : r.id.Writable k := h.of_mem (m := ("id", r.id)) hnames (by simp)
  refine Document.denotes_ofFields [("result", _, _), ("error", _, _), ("id", _, _)] ?_
  intro p hp
  simp only [List.mem_cons, List.not_mem_nil, or_false] at hp
  rcases hp with rfl | rfl | rfl
  · exact Document.denotes_document hresult
  · rcases r with ⟨result, _ | e, id⟩
    · exact Document.denotes_null
    · exact ErrorObject.denotes_document (h.of_mem (m := ("error", e.toJson)) hnames (by simp))
  · exact Document.denotes_document hid

/-- **The line of a reply is read as the value of the reply.** -/
theorem readBytes?_body {r : Response} (h : r.toJson.Writable Json.depthLimit) :
    Json.readBytes? (Utf8.ofString r.body) = some r.toJson :=
  (denotes_document h).readBytes?_line

end Response

end Rpc

end RpcDaemon
