import RpcDaemon.Service.Body

/-!
# What a body is and what it is answered with

Every body is one of three things: a batch or a call, which is answered with status 200 whatever
the handlers do; an object that makes no call, which is answered with status 400; or no JSON that
could make a call, which is answered with status 500. Only the first runs handlers, and only the
first leaves the connection open.
-/

namespace RpcDaemon

/-! ## The three shapes of a body -/

/-- A value that is neither an array nor an object. -/
def Json.IsScalar : Json → Prop
  | .array _ => False
  | .object _ => False
  | _ => True

namespace Body

/-- The body is a batch, or an object that makes a call. -/
def Accepted (body : List UInt8) : Prop :=
  (∃ items, Json.readBytes? body = some (.array items)) ∨
    ∃ ms r, Json.readBytes? body = some (.object ms) ∧ Rpc.Request.ofJson (.object ms) = .ok r

/-- The body is an object with the id `id` that makes no call because of the fault `f`. -/
def Faulty (body : List UInt8) (id : Json) (f : Rpc.RequestFault) : Prop :=
  ∃ ms, Json.readBytes? body = some (.object ms) ∧
    Rpc.Request.ofJson (.object ms) = .error f ∧ id = Rpc.Request.idOf (.object ms)

/-- The body is malformed UTF-8, or well-formed text but no JSON, or a single scalar. -/
def Unusable (body : List UInt8) : Prop :=
  Utf8.decode? body = none ∨
    (∃ cs, Utf8.decode? body = some cs ∧ Json.readChars? cs = none) ∨
    ∃ v, Json.readBytes? body = some v ∧ v.IsScalar

/-- A body that gives no value is malformed UTF-8 or no JSON. -/
theorem unusable_of_readBytes?_eq_none {body : List UInt8} (h : Json.readBytes? body = none) :
    Unusable body := by
  unfold Json.readBytes? at h
  cases hd : Utf8.decode? body with
  | none => exact Or.inl hd
  | some cs =>
    rw [hd, Option.bind_some] at h
    exact Or.inr (Or.inl ⟨cs, hd, h⟩)

/-- Every body has one of the three shapes. -/
theorem shape_cases (body : List UInt8) :
    Accepted body ∨ (∃ id f, Faulty body id f) ∨ Unusable body := by
  cases hv : Json.readBytes? body with
  | none => exact Or.inr (Or.inr (unusable_of_readBytes?_eq_none hv))
  | some v =>
    cases v with
    | array items => exact Or.inl (Or.inl ⟨items, hv⟩)
    | object ms =>
      cases hr : Rpc.Request.ofJson (.object ms) with
      | ok r => exact Or.inl (Or.inr ⟨ms, r, hv, hr⟩)
      | error f => exact Or.inr (Or.inl ⟨_, f, ms, hv, hr, rfl⟩)
    | null => exact Or.inr (Or.inr (Or.inr (Or.inr ⟨_, hv, trivial⟩)))
    | bool b => exact Or.inr (Or.inr (Or.inr (Or.inr ⟨_, hv, trivial⟩)))
    | number n => exact Or.inr (Or.inr (Or.inr (Or.inr ⟨_, hv, trivial⟩)))
    | string s => exact Or.inr (Or.inr (Or.inr (Or.inr ⟨_, hv, trivial⟩)))

end Body

namespace Table

variable {σ σ₁ σ₂ : Type}

/-! ## The answer to each shape -/

/-- A batch is answered with the replies to its items, in the state that answering them leaves. -/
theorem answerBody_of_array (t : Table σ) (w : World σ) {body : List UInt8} {items : List Json}
    (h : Json.readBytes? body = some (.array items)) :
    t.answerBody body w =
      (.answered (batchBody (t.executeBatch items w).1), (t.executeBatch items w).2) := by
  rw [answerBody, h]
  rfl

/-- A call is answered with its reply, in the state that running it leaves. -/
theorem answerBody_of_call (t : Table σ) (w : World σ) {body : List UInt8}
    {ms : List (String × Json)} {r : Rpc.Request} (h : Json.readBytes? body = some (.object ms))
    (hr : Rpc.Request.ofJson (.object ms) = .ok r) :
    t.answerBody body w =
      (.answered (t.executeRequest r w).1.body, (t.executeRequest r w).2) := by
  rw [answerBody, h]
  show t.answerValue (.object ms) w = _
  rw [answerValue, hr]

/-- An accepted body is answered with status 200 and leaves the connection open. -/
theorem answerBody_of_accepted (t : Table σ) (w : World σ) {body : List UInt8}
    (h : Body.Accepted body) :
    (t.answerBody body w).1.status = 200 ∧ (t.answerBody body w).1.close = false := by
  rcases h with ⟨items, h⟩ | ⟨ms, r, h, hr⟩
  · rw [answerBody_of_array t w h]
    exact ⟨rfl, rfl⟩
  · rw [answerBody_of_call t w h hr]
    exact ⟨rfl, rfl⟩

/-- An object that makes no call is refused with its own id, and nothing is run. -/
theorem answerBody_of_faulty (t : Table σ) (w : World σ) {body : List UInt8} {id : Json}
    {f : Rpc.RequestFault} (h : Body.Faulty body id f) :
    t.answerBody body w = (⟨400, (Rpc.Response.failure f.error id).body, true⟩, w) := by
  obtain ⟨ms, h, hr, rfl⟩ := h
  rw [answerBody, h]
  show t.answerValue (.object ms) w = _
  rw [answerValue, hr]
  rfl

/-- What cannot make a call is refused with the id `null`, and nothing is run. -/
theorem answerBody_of_unusable (t : Table σ) (w : World σ) {body : List UInt8}
    (h : Body.Unusable body) :
    ∃ message, t.answerBody body w =
      (⟨500, (Rpc.Response.failure (Rpc.Error.parseError message) .null).body, true⟩, w) := by
  have none_case : Json.readBytes? body = none →
      t.answerBody body w =
        (⟨500, (Rpc.Response.failure (Rpc.Error.parseError "Parse error") .null).body, true⟩,
          w) := by
    intro hn
    rw [answerBody, hn]
    rfl
  rcases h with hd | ⟨cs, hd, hc⟩ | ⟨v, hv, hs⟩
  · refine ⟨_, none_case ?_⟩
    rw [Json.readBytes?, hd, Option.bind_none]
  · refine ⟨_, none_case ?_⟩
    rw [Json.readBytes?, hd, Option.bind_some, hc]
  · refine ⟨"Top-level object parse error", ?_⟩
    rw [answerBody, hv]
    cases v with
    | array items => exact absurd hs id
    | object ms => exact absurd hs id
    | null => rfl
    | bool b => rfl
    | number n => rfl
    | string s => rfl

/-- The shape of a body, its status, and whether it ends the connection; only an accepted body
changes the state. -/
theorem answerBody_cases (t : Table σ) (body : List UInt8) (w : World σ) :
    (Body.Accepted body ∧ (t.answerBody body w).1.status = 200 ∧
        (t.answerBody body w).1.close = false) ∨
      ((∃ id f, Body.Faulty body id f) ∧ (t.answerBody body w).1.status = 400 ∧
        (t.answerBody body w).1.close = true ∧ (t.answerBody body w).2 = w) ∨
      (Body.Unusable body ∧ (t.answerBody body w).1.status = 500 ∧
        (t.answerBody body w).1.close = true ∧ (t.answerBody body w).2 = w) := by
  rcases Body.shape_cases body with h | ⟨id, f, h⟩ | h
  · exact Or.inl ⟨h, answerBody_of_accepted t w h⟩
  · rw [answerBody_of_faulty t w h]
    exact Or.inr (Or.inl ⟨⟨id, f, h⟩, rfl, rfl, rfl⟩)
  · obtain ⟨message, hm⟩ := answerBody_of_unusable t w h
    rw [hm]
    exact Or.inr (Or.inr ⟨h, rfl, rfl, rfl⟩)

/-- The status and the decision to close are the same for every table and every state. -/
theorem answerBody_status_eq (t₁ : Table σ₁) (t₂ : Table σ₂) (body : List UInt8) (w₁ : World σ₁)
    (w₂ : World σ₂) :
    (t₁.answerBody body w₁).1.status = (t₂.answerBody body w₂).1.status ∧
      (t₁.answerBody body w₁).1.close = (t₂.answerBody body w₂).1.close := by
  rcases Body.shape_cases body with h | ⟨id, f, h⟩ | h
  · obtain ⟨hs₁, hc₁⟩ := answerBody_of_accepted t₁ w₁ h
    obtain ⟨hs₂, hc₂⟩ := answerBody_of_accepted t₂ w₂ h
    exact ⟨hs₁.trans hs₂.symm, hc₁.trans hc₂.symm⟩
  · rw [answerBody_of_faulty t₁ w₁ h, answerBody_of_faulty t₂ w₂ h]
    exact ⟨rfl, rfl⟩
  · obtain ⟨m₁, h₁⟩ := answerBody_of_unusable t₁ w₁ h
    obtain ⟨m₂, h₂⟩ := answerBody_of_unusable t₂ w₂ h
    rw [h₁, h₂]
    exact ⟨rfl, rfl⟩

/-! ## Outcomes of handlers stay within the reply -/

/-- **What a handler does never reaches the HTTP layer.** The status and the decision to close are
those of the shape of the body, with any table and in any state. A fault gives back the id of the
object, an unusable body the id `null`, and neither of them changes the state or runs a handler. -/
theorem answerBody_by_shape (t₁ : Table σ₁) (t₂ : Table σ₂) (body : List UInt8) (w₁ : World σ₁)
    (w₂ : World σ₂) :
    let a₁ := t₁.answerBody body w₁
    let a₂ := t₂.answerBody body w₂
    (a₁.1.status = a₂.1.status ∧ a₁.1.close = a₂.1.close) ∧
      (a₁.1.status = 200 ∧ a₁.1.close = false ↔ Body.Accepted body) ∧
      (a₁.1.status = 400 ∧ a₁.1.close = true ↔ ∃ id f, Body.Faulty body id f) ∧
      (a₁.1.status = 500 ∧ a₁.1.close = true ↔ Body.Unusable body) ∧
      (a₁.1.status = 200 ∨ a₁.1.status = 400 ∨ a₁.1.status = 500) ∧
      (∀ id f, Body.Faulty body id f → a₁.1.body = (Rpc.Response.failure f.error id).body) ∧
      (Body.Unusable body → ∃ message,
        a₁.1.body = (Rpc.Response.failure (Rpc.Error.parseError message) .null).body) ∧
      (a₁.1.status ≠ 200 → a₁.2 = w₁) := by
  intro a₁ a₂
  have cases₁ := answerBody_cases t₁ body w₁
  -- The three shapes have three statuses, so a status gives the shape back.
  refine ⟨answerBody_status_eq t₁ t₂ body w₁ w₂, ⟨?_, answerBody_of_accepted t₁ w₁⟩, ⟨?_, ?_⟩,
    ⟨?_, ?_⟩, ?_, ?_, ?_, ?_⟩
  · rintro ⟨hs, -⟩
    rcases cases₁ with ⟨h, -⟩ | ⟨-, hs', -⟩ | ⟨-, hs', -⟩
    · exact h
    · exact absurd (hs.symm.trans hs') (by decide)
    · exact absurd (hs.symm.trans hs') (by decide)
  · rintro ⟨hs, -⟩
    rcases cases₁ with ⟨-, hs', -⟩ | ⟨h, -⟩ | ⟨-, hs', -⟩
    · exact absurd (hs.symm.trans hs') (by decide)
    · exact h
    · exact absurd (hs.symm.trans hs') (by decide)
  · rintro ⟨id, f, h⟩
    show (t₁.answerBody body w₁).1.status = 400 ∧ (t₁.answerBody body w₁).1.close = true
    rw [answerBody_of_faulty t₁ w₁ h]
    exact ⟨rfl, rfl⟩
  · rintro ⟨hs, -⟩
    rcases cases₁ with ⟨-, hs', -⟩ | ⟨-, hs', -⟩ | ⟨h, -⟩
    · exact absurd (hs.symm.trans hs') (by decide)
    · exact absurd (hs.symm.trans hs') (by decide)
    · exact h
  · intro h
    obtain ⟨message, hm⟩ := answerBody_of_unusable t₁ w₁ h
    show (t₁.answerBody body w₁).1.status = 500 ∧ (t₁.answerBody body w₁).1.close = true
    rw [hm]
    exact ⟨rfl, rfl⟩
  · rcases cases₁ with ⟨-, hs, -⟩ | ⟨-, hs, -⟩ | ⟨-, hs, -⟩
    · exact Or.inl hs
    · exact Or.inr (Or.inl hs)
    · exact Or.inr (Or.inr hs)
  · intro id f h
    show (t₁.answerBody body w₁).1.body = _
    rw [answerBody_of_faulty t₁ w₁ h]
  · intro h
    obtain ⟨message, hm⟩ := answerBody_of_unusable t₁ w₁ h
    refine ⟨message, ?_⟩
    show (t₁.answerBody body w₁).1.body = _
    rw [hm]
  · intro hs
    rcases cases₁ with ⟨-, hs', -⟩ | ⟨-, -, -, hw⟩ | ⟨-, -, -, hw⟩
    · exact absurd hs' hs
    · exact hw
    · exact hw

end Table

end RpcDaemon
