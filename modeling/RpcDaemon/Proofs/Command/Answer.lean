import RpcDaemon.Proofs.Command.Invocation

/-!
# Answers to values

Whatever a value is, it gets one response, which gives its id back. A value that fails one of the
checks on calls is refused with the message of the first that it fails, and nothing is run; any other
value is a call, whose command is run once if the table has it and the node allows it. Main
statement: `response_law`.
-/

namespace RpcDaemon

namespace Rpc

namespace Request

/-! ## Values that make no call -/

/-- The value fails a check on calls; the message is that of the first one that it fails. -/
inductive Refused : Json → String → Prop
  /-- The value is no object. -/
  | notObject {v : Json} (h : v.isObject = false) : Refused v "Invalid Request object"
  /-- There is no method, or it is `null`. -/
  | missingMethod {v : Json} (hobject : v.isObject = true)
      (h : v.get? "method" = none ∨ v.get? "method" = some .null) : Refused v "Missing method"
  /-- There is a method other than `null` that is not a string. -/
  | methodNotString {v method : Json} (h : v.get? "method" = some method) (hnull : method ≠ .null)
      (hstring : ∀ s, method ≠ .string s) : Refused v "Method must be a string"
  /-- The method is a string, and there are parameters other than `null` that are no array. -/
  | paramsNotArray {v params : Json} {method : String} (h : v.get? "method" = some (.string method))
      (hparams : v.get? "params" = some params) (hnull : params ≠ .null)
      (harray : ∀ items, params ≠ .array items) : Refused v "Params must be an array"

/-- The value is a call of the method with the parameters, of which there are none if they are left
out or `null`. -/
structure Calls (v : Json) (method : String) (params : List Json) : Prop where
  /-- The method is a string. -/
  method_eq : v.get? "method" = some (.string method)
  /-- The parameters are an array. -/
  params_eq : v.get? "params" = some (.array params) ∨
    (params = [] ∧ (v.get? "params" = none ∨ v.get? "params" = some .null))

/-- Only an object has members. -/
theorem isObject_of_get? {v m : Json} {name : String} (h : v.get? name = some m) :
    v.isObject = true := by
  cases v with
  | object ms => rfl
  | null => cases h
  | bool b => cases h
  | number n => cases h
  | string s => cases h
  | array items => cases h

/-- A value that fails a check is no call, and the fault that is found is that of the check. -/
theorem ofJson_of_refused {v : Json} {message : String} (h : Refused v message) :
    ∃ f : RequestFault, ofJson v = .error f ∧ f.message = message := by
  unfold ofJson
  cases h with
  | notObject h => exact ⟨.notAnObject, by rw [h]; rfl, rfl⟩
  | missingMethod hobject h =>
    refine ⟨.missingMethod, ?_, rfl⟩
    rw [if_pos hobject, methodOf]
    rcases h with h | h
    · rw [h]
    · rw [h]
  | @methodNotString method h hnull hstring =>
    refine ⟨.methodNotString, ?_, rfl⟩
    rw [if_pos (isObject_of_get? h), methodOf, h]
    cases method with
    | null => exact absurd rfl hnull
    | string s => exact absurd rfl (hstring s)
    | bool b => rfl
    | number n => rfl
    | array items => rfl
    | object ms => rfl
  | @paramsNotArray params method h hparams hnull harray =>
    refine ⟨.paramsNotArray, ?_, rfl⟩
    have hmethod : methodOf v = .ok method := by rw [methodOf, h]
    rw [if_pos (isObject_of_get? h), hmethod]
    dsimp only
    rw [paramsOf, hparams]
    cases params with
    | null => exact absurd rfl hnull
    | array items => exact absurd rfl (harray items)
    | bool b => rfl
    | number n => rfl
    | string s => rfl
    | object ms => rfl

/-- A value that is a call passes every check. -/
theorem ofJson_of_calls {v : Json} {method : String} {params : List Json}
    (h : Calls v method params) : ofJson v = .ok ⟨idOf v, method, params⟩ := by
  have hmethod : methodOf v = .ok method := by rw [methodOf, h.method_eq]
  have hparams : paramsOf v = .ok params := by
    rw [paramsOf]
    rcases h.params_eq with hp | ⟨rfl, hp | hp⟩
    · rw [hp]
    · rw [hp]
    · rw [hp]
  rw [ofJson, if_pos (isObject_of_get? h.method_eq), hmethod]
  dsimp only
  rw [hparams]

/-- A value that fails a check is no call. -/
theorem Refused.not_calls {v : Json} {message : String} (h : Refused v message) (method : String)
    (params : List Json) : ¬ Calls v method params := by
  intro hcalls
  obtain ⟨f, hf, -⟩ := ofJson_of_refused h
  rw [ofJson_of_calls hcalls] at hf
  cases hf

/-- A value whose method is a string is a call unless its parameters are no array. -/
theorem refused_or_calls_of_method {v : Json} {method : String}
    (h : v.get? "method" = some (.string method)) :
    (∃ message, Refused v message) ∨ ∃ params, Calls v method params := by
  cases hp : v.get? "params" with
  | none => exact Or.inr ⟨[], h, Or.inr ⟨rfl, Or.inl hp⟩⟩
  | some p =>
    by_cases hnull : p = .null
    · subst hnull
      exact Or.inr ⟨[], h, Or.inr ⟨rfl, Or.inr hp⟩⟩
    · by_cases harray : ∃ items, p = .array items
      · obtain ⟨items, rfl⟩ := harray
        exact Or.inr ⟨items, h, Or.inl hp⟩
      · exact Or.inl ⟨_, .paramsNotArray h hp hnull (not_exists.mp harray)⟩

/-- **Every value either fails a check or is a call.** -/
theorem refused_or_calls (v : Json) :
    (∃ message, Refused v message) ∨ ∃ method params, Calls v method params := by
  cases hobject : v.isObject with
  | false => exact Or.inl ⟨_, .notObject hobject⟩
  | true =>
    cases hm : v.get? "method" with
    | none => exact Or.inl ⟨_, .missingMethod hobject (Or.inl hm)⟩
    | some m =>
      by_cases hnull : m = .null
      · subst hnull
        exact Or.inl ⟨_, .missingMethod hobject (Or.inr hm)⟩
      · by_cases hstring : ∃ s, m = .string s
        · obtain ⟨s, rfl⟩ := hstring
          rcases refused_or_calls_of_method hm with hr | hc
          · exact Or.inl hr
          · exact Or.inr ⟨s, hc⟩
        · exact Or.inl ⟨_, .methodNotString hm hnull (not_exists.mp hstring)⟩

/-- A value that is accepted is the call that the request tells. -/
theorem calls_of_ofJson {v : Json} {r : Request} (h : ofJson v = .ok r) :
    Calls v r.method r.params := by
  rcases refused_or_calls v with ⟨message, hr⟩ | ⟨method, params, hc⟩
  · obtain ⟨f, hf, -⟩ := ofJson_of_refused hr
    cases h.symm.trans hf
  · cases h.symm.trans (ofJson_of_calls hc)
    exact hc

end Request

end Rpc

namespace Table

variable {σ : Type}

open Rpc (Request Response)

/-! ## Responses -/

/-- A value that fails a check is refused, and nothing happens. -/
theorem executeValue_of_refused (t : Table σ) {v : Json} {message : String} (w : World σ)
    (h : Request.Refused v message) :
    t.executeValue v w = (⟨.null, some ⟨-32600, message, none⟩, Request.idOf v⟩, w) := by
  obtain ⟨f, hf, rfl⟩ := Request.ofJson_of_refused h
  rw [executeValue, hf]
  rfl

/-- A call is answered with what running it gives. -/
theorem executeValue_of_calls (t : Table σ) {v : Json} {method : String} {params : List Json}
    (w : World σ) (h : Request.Calls v method params) :
    t.executeValue v w =
      (Response.ofResult (t.execute method params w).1 (Request.idOf v),
        (t.execute method params w).2) := by
  rw [executeValue, Request.ofJson_of_calls h]
  rfl

/-- The table has the method, and the node lets its command run. -/
def Admits (t : Table σ) (method : String) (w : World σ) (c : Command) : Prop :=
  t.lookup? method = some c ∧ refusal? c w.node = none

/-- A command that is admitted is run once, and its outcome is reported. -/
theorem execute_of_admits (t : Table σ) {method : String} {w : World σ} {c : Command}
    (h : t.Admits method w c) (params : List Json) :
    t.execute method params w =
      (result (t.run c.handler params w).1, (t.run c.handler params w).2) := by
  rw [execute, h.1]
  dsimp only
  rw [h.2]

/-- A method without an admitted command fails, and nothing happens. -/
theorem execute_of_not_admits (t : Table σ) {method : String} {w : World σ}
    (h : ∀ c, ¬ t.Admits method w c) (params : List Json) :
    ∃ e, t.execute method params w = (.error e, w) := by
  rw [execute]
  cases hc : t.lookup? method with
  | none => exact ⟨_, rfl⟩
  | some c =>
    dsimp only
    cases hr : refusal? c w.node with
    | none => exact absurd ⟨hc, hr⟩ (h c)
    | some e => exact ⟨e, rfl⟩

/-- A response says that a call succeeded exactly if the outcome is a value, which is its result. -/
theorem ofResult_success_iff {o : Outcome} {id value : Json} :
    (Response.ofResult (result o) id).error = none ∧
      (Response.ofResult (result o) id).result = value ↔ o = .value value := by
  cases o <;> simp [result, Response.ofResult, Response.success, Response.failure]

/-- A response with an error has no result. -/
theorem ofResult_result_of_error {res : Except Rpc.Error Json} {id : Json}
    (h : (Response.ofResult res id).error ≠ none) : (Response.ofResult res id).result = .null := by
  cases res with
  | ok v => exact absurd rfl h
  | error e => rfl

theorem ofResult_id (res : Except Rpc.Error Json) (id : Json) :
    (Response.ofResult res id).id = id := by
  cases res <;> rfl

/-- The response gives back the id of the value. -/
theorem executeValue_id (t : Table σ) (v : Json) (w : World σ) :
    (t.executeValue v w).1.id = Request.idOf v := by
  rcases Request.refused_or_calls v with ⟨message, h⟩ | ⟨method, params, h⟩
  · rw [executeValue_of_refused t w h]
  · rw [executeValue_of_calls t w h, ofResult_id]

/-- A response with an error has no result. -/
theorem executeValue_result_of_error (t : Table σ) (v : Json) (w : World σ)
    (h : (t.executeValue v w).1.error ≠ none) : (t.executeValue v w).1.result = .null := by
  rcases Request.refused_or_calls v with ⟨message, hr⟩ | ⟨method, params, hc⟩
  · rw [executeValue_of_refused t w hr]
  · rw [executeValue_of_calls t w hc] at h ⊢
    exact ofResult_result_of_error h

/-- What a call comes to: its command is run once if it is admitted, and the response tells whether
that gave a value; nothing happens if it is not. -/
theorem executeValue_of_admits (t : Table σ) {v : Json} {method : String} {params : List Json}
    {w : World σ} {c : Command} (h : Request.Calls v method params) (hc : t.Admits method w c) :
    t.executeValue v w =
      (Response.ofResult (result (t.run c.handler params w).1) (Request.idOf v),
        (t.run c.handler params w).2) := by
  rw [executeValue_of_calls t w h, execute_of_admits t hc]

theorem executeValue_of_not_admits (t : Table σ) {v : Json} {method : String} {params : List Json}
    {w : World σ} (h : Request.Calls v method params) (hc : ∀ c, ¬ t.Admits method w c) :
    ∃ e, t.executeValue v w = (Response.failure e (Request.idOf v), w) := by
  obtain ⟨e, he⟩ := execute_of_not_admits t hc params
  refine ⟨e, ?_⟩
  rw [executeValue_of_calls t w h, he]
  rfl

/-- A response has no error exactly if the value is a call whose command is admitted and gives a
value. -/
theorem executeValue_error_eq_none_iff (t : Table σ) (v : Json) (w : World σ) :
    (t.executeValue v w).1.error = none ↔ ∃ method params c value,
      Request.Calls v method params ∧ t.Admits method w c ∧
        (t.run c.handler params w).1 = .value value := by
  constructor
  · intro hnone
    rcases Request.refused_or_calls v with ⟨message, hr⟩ | ⟨method, params, hcalls⟩
    · rw [executeValue_of_refused t w hr] at hnone
      cases hnone
    · by_cases hc : ∃ c, t.Admits method w c
      · obtain ⟨c, hc⟩ := hc
        rw [executeValue_of_admits t hcalls hc] at hnone
        exact ⟨method, params, c, _, hcalls, hc, ofResult_success_iff.mp ⟨hnone, rfl⟩⟩
      · obtain ⟨e, he⟩ := executeValue_of_not_admits t hcalls (not_exists.mp hc)
        rw [he] at hnone
        cases hnone
  · rintro ⟨method, params, c, value, hcalls, hc, hvalue⟩
    rw [executeValue_of_admits t hcalls hc]
    exact (ofResult_success_iff.mpr hvalue).1

/-- **The law of responses.** The response to a value gives back the id of the value, `null` if it has
none. Every value either fails a check on calls, and then the response tells the first that it
fails, and nothing is run and nothing changes; or it is a call, and then the response reports what
running the method with the parameters comes to. If the command of the method is admitted, it is run
once with the parameters, and the response has no error exactly if that gave a value, which is its
result; otherwise the response has an error, and nothing is run and nothing changes. A response with
an error has no result. -/
theorem response_law (t : Table σ) (v : Json) (w : World σ) :
    let r := (t.executeValue v w).1
    let after := (t.executeValue v w).2
    ((∀ id, v.get? "id" = some id → r.id = id) ∧ (v.get? "id" = none → r.id = .null)) ∧
      ((∃ message, Request.Refused v message) ∨ ∃ method params, Request.Calls v method params) ∧
      (∀ message, Request.Refused v message →
        (∀ method params, ¬ Request.Calls v method params) ∧
          r.error = some ⟨-32600, message, none⟩ ∧ after = w) ∧
      (∀ method params, Request.Calls v method params →
        r = Response.ofResult (t.execute method params w).1 r.id ∧
          after = (t.execute method params w).2) ∧
      (∀ method params c, Request.Calls v method params → t.Admits method w c →
        after = (t.run c.handler params w).2 ∧
          (∃ ds, Descriptions ds ∧ (c.handler ≠ .builtin .help → ds = []) ∧
            after.calls = w.calls ++ ⟨c.handler, params, false⟩ :: ds) ∧
          ∀ value, r.error = none ∧ r.result = value ↔
            (t.run c.handler params w).1 = .value value) ∧
      (∀ method params, Request.Calls v method params → (∀ c, ¬ t.Admits method w c) →
        r.error ≠ none ∧ after = w) ∧
      (r.error = none ↔ ∃ method params c value, Request.Calls v method params ∧
        t.Admits method w c ∧ (t.run c.handler params w).1 = .value value) ∧
      (r.error ≠ none → r.result = .null) := by
  intro r after
  have hid : r.id = Request.idOf v := executeValue_id t v w
  refine ⟨⟨?_, ?_⟩, Request.refused_or_calls v, ?_, ?_, ?_, ?_,
    executeValue_error_eq_none_iff t v w, executeValue_result_of_error t v w⟩
  · intro id h
    rw [hid, Request.idOf, h]
    rfl
  · intro h
    rw [hid, Request.idOf, h]
    rfl
  · intro message h
    have hr : t.executeValue v w = _ := executeValue_of_refused t w h
    refine ⟨h.not_calls, ?_, ?_⟩
    · exact congrArg (fun p => p.1.error) hr
    · exact congrArg Prod.snd hr
  · intro method params hcalls
    have hr := executeValue_of_calls t w hcalls
    rw [hid]
    exact ⟨congrArg Prod.fst hr, congrArg Prod.snd hr⟩
  · intro method params c hcalls hc
    have hr := executeValue_of_admits t hcalls hc
    have hafter : after = (t.run c.handler params w).2 := congrArg Prod.snd hr
    refine ⟨hafter, ?_, ?_⟩
    · rw [hafter]
      exact t.calls_run c.handler params w
    · intro value
      have hresponse : r = Response.ofResult (result (t.run c.handler params w).1) (Request.idOf v) :=
        congrArg Prod.fst hr
      rw [hresponse]
      exact ofResult_success_iff
  · intro method params hcalls hc
    obtain ⟨e, hr⟩ := executeValue_of_not_admits t hcalls hc
    refine ⟨?_, congrArg Prod.snd hr⟩
    have herror : r.error = some _ := congrArg (fun p => p.1.error) hr
    rw [herror]
    exact Option.some_ne_none _

end Table

end RpcDaemon
