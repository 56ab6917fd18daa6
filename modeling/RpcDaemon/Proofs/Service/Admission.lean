import RpcDaemon.Proofs.Access.Credentials
import RpcDaemon.Proofs.Command.Invocation
import RpcDaemon.Proofs.Service.Dialogue
import RpcDaemon.Proofs.Tls.Record

/-!
# Admission to a connection

Only a request that asks for the root and brings accepted credentials of its own is executed, and
none after one that does not. Main statement: without such a first request nothing is run, nothing
changes, and what is written says nothing of the commands or of the node.
-/

namespace RpcDaemon

/-- The bytes that a peer sends, without regard to how they come. -/
def Inbound.bytes : Inbound → List UInt8
  | .plain bytes => bytes
  | .secured bytes => bytes

/-! ## Invocations and their requests -/

/-- Answering a body adds to the log of invocations. -/
theorem Table.calls_prefix_answerBody {σ : Type} (t : Table σ) (body : List UInt8) (w : World σ) :
    w.calls <+: (t.answerBody body w).2.calls := by
  rcases Body.shape_cases body with (⟨items, h⟩ | ⟨ms, r, h, hr⟩) | ⟨id, f, h⟩ | h
  · rw [answerBody_of_array t w h]
    exact t.calls_prefix_executeBatch items w
  · rw [answerBody_of_call t w h hr]
    exact t.calls_prefix_execute r.method r.params w
  · exact ⟨[], by rw [answerBody_of_faulty t w h, List.append_nil]⟩
  · obtain ⟨message, hm⟩ := answerBody_of_unusable t w h
    exact ⟨[], by rw [hm, List.append_nil]⟩

namespace Service

variable {σ : Type}

/-- The requests that are executed, each with the handlers that its own answer runs. -/
def invocations (s : Service σ) :
    List Http.Request → World σ → List (Http.Request × List Invocation)
  | [], _ => []
  | r :: rest, w =>
      (r, (s.answer r w).2.calls.drop w.calls.length) :: s.invocations rest (s.answer r w).2

/-- Every handler that is run while requests are executed is run for one of them. -/
theorem calls_answerAll (s : Service σ) (rs : List Http.Request) (w : World σ) :
    (s.answerAll rs w).2.calls = w.calls ++ (s.invocations rs w).flatMap fun p => p.2 := by
  induction rs generalizing w with
  | nil =>
    show w.calls = w.calls ++ []
    rw [List.append_nil]
  | cons r rest ih =>
    -- The log only grows, so what the answer adds stands behind what was there.
    have hfirst : w.calls ++ (s.answer r w).2.calls.drop w.calls.length = (s.answer r w).2.calls :=
      List.prefix_iff_eq_append.mp (s.table.calls_prefix_answerBody r.body w)
    rw [answerAll, ih, invocations, List.flatMap_cons, ← List.append_assoc, hfirst]

/-- A request is not turned away exactly if the credentials admit it. -/
theorem rejection?_eq_none_iff (s : Service σ) (r : Http.Request) :
    s.rejection? r = none ↔ s.credentials.Admits r := by
  unfold rejection? Credentials.Admits
  by_cases hu : r.uri = "/"
  · rw [if_neg fun h => h hu]
    cases hh : r.header? "authorization" with
    | none => simp
    | some v =>
      cases ha : s.credentials.accepts v with
      | false => simp [ha]
      | true => simp [ha, hu]
  · rw [if_pos hu]
    simp [hu]

/-! ## Connections without an admitted request -/

/-- A stream that does not start with a request is closed, with a reply if the failure has one. -/
theorem serveHttp_of_error (s : Service σ) {bytes : List UInt8} {e : Http.FramingError}
    (h : Http.readRequest s.maxBody bytes = .error e) (w : World σ) :
    s.serveHttp bytes w = ⟨(e.replyStatus?.map fun n => Sent.reply (.closing n)).toList, 0, w⟩ := by
  rw [serveHttp, Http.readAll_of_error h]
  show finish e w = _
  unfold finish
  cases e.replyStatus? <;> rfl

/-- The milliseconds that a request waits before it is turned away. -/
def Rejection.delay (c : Credentials) : Rejection → Nat
  | .wrongCredentials => if c.isWeak then weakDelay else 0
  | _ => 0

/-- A stream whose first request is turned away is closed with one reply. -/
theorem serveHttp_of_rejection (s : Service σ) {bytes rest : List UInt8} {r : Http.Request}
    {why : Rejection} (h : Http.readRequest s.maxBody bytes = .ok (r, rest))
    (hr : s.rejection? r = some why) (w : World σ) :
    s.serveHttp bytes w = ⟨[.reply why.reply], why.delay s.credentials, w⟩ := by
  rw [serveHttp, Http.readAll_of_ok h]
  show s.serveRequests _ (r :: _) w = _
  rw [serveRequests, hr]
  cases why <;> rfl

variable (c : Credentials) (l : AllowList) (tls : TlsMode) (maxBody : Nat)

/-- A stream without an admitted first request is answered alike by all tables and in all states,
with at most one reply and without any effect. -/
theorem serveHttp_of_not_admitted {bytes : List UInt8}
    (h : ∀ r rest, Http.readRequest maxBody bytes = .ok (r, rest) → ¬ c.Admits r) :
    ∃ (sent : List Sent) (delay : Nat), sent.length ≤ 1 ∧
      ∀ {σ : Type} (t : Table σ) (w : World σ),
        (Service.mk t c l tls maxBody).serveHttp bytes w = ⟨sent, delay, w⟩ := by
  cases hr : Http.readRequest maxBody bytes with
  | error e =>
    refine ⟨_, 0, ?_, fun t w => serveHttp_of_error ⟨t, c, l, tls, maxBody⟩ hr w⟩
    cases e.replyStatus? <;> simp
  | ok p =>
    obtain ⟨r, rest⟩ := p
    -- Whether and why a request is turned away does not depend on the table.
    have hsome : ∃ why, ∀ {σ : Type} (t : Table σ),
        (Service.mk t c l tls maxBody).rejection? r = some why := by
      cases hj : (Service.mk (Table.empty (σ := Unit) fun _ _ _ n u => (.usage "", n, u))
          c l tls maxBody).rejection? r with
      | none => exact absurd ((rejection?_eq_none_iff _ r).mp hj) (h r rest hr)
      | some why => exact ⟨why, fun t => hj⟩
    obtain ⟨why, hwhy⟩ := hsome
    exact ⟨[.reply why.reply], why.delay c, by simp,
      fun t w => serveHttp_of_rejection ⟨t, c, l, tls, maxBody⟩ hr (hwhy t) w⟩

/-- Whether a connection cannot bring anything to execution: the peer may not connect, TLS cannot be
had, or the stream does not start with an admitted request. -/
def Shut (peer : Net.Address) (inbound : Inbound) : Prop :=
  l.allows peer = false ∨ tls = .unavailable ∨
    ∀ r rest, Http.readRequest maxBody inbound.bytes = .ok (r, rest) → ¬ c.Admits r

/-- What is written on a connection that cannot bring anything to execution is a function of the
configuration and of the stream alone. -/
theorem serve_of_shut {peer : Net.Address} {inbound : Inbound}
    (h : Shut c l tls maxBody peer inbound) :
    ∃ (sent : List Sent) (delay : Nat), sent.length ≤ 1 ∧
      (l.allows peer = false ∧ tls.isTls = true ∨ tls = .unavailable → sent = []) ∧
      (l.allows peer = false ∧ tls = .disabled → sent = [.reply (.closing 403)]) ∧
      ∀ {σ : Type} (t : Table σ) (w : World σ),
        (Service.mk t c l tls maxBody).serve peer inbound w = ⟨sent, delay, w⟩ := by
  cases ha : l.allows peer with
  | false =>
    cases tls with
    | disabled =>
      refine ⟨[.reply (.closing 403)], 0, by simp, by simp [TlsMode.isTls], fun _ => rfl, ?_⟩
      intro σ t w
      simp [serve, ha, Served.one]
    | enabled =>
      refine ⟨[], 0, by simp, fun _ => rfl, by simp, ?_⟩
      intro σ t w
      simp [serve, ha, Served.silent]
    | unavailable =>
      refine ⟨[], 0, by simp, fun _ => rfl, by simp, ?_⟩
      intro σ t w
      simp [serve, ha, Served.silent]
  | true =>
    have hnone : tls = .unavailable ∨
        ∀ r rest, Http.readRequest maxBody inbound.bytes = .ok (r, rest) → ¬ c.Admits r :=
      h.resolve_left (by simp [ha])
    cases tls with
    | unavailable =>
      refine ⟨[], 0, by simp, fun _ => rfl, by simp, ?_⟩
      intro σ t w
      simp [serve, ha, Served.silent]
    | disabled =>
      cases inbound with
      | plain bytes =>
        obtain ⟨sent, delay, hlen, hserve⟩ :=
          serveHttp_of_not_admitted c l .disabled maxBody (hnone.resolve_left (by decide))
        refine ⟨sent, delay, hlen, by simp, by simp, ?_⟩
        intro σ t w
        exact (if_pos ha).trans (hserve t w)
      | secured bytes =>
        refine ⟨[], 0, by simp, fun _ => rfl, by simp, ?_⟩
        intro σ t w
        simp [serve, ha, Served.silent]
    | enabled =>
      cases inbound with
      | secured bytes =>
        obtain ⟨sent, delay, hlen, hserve⟩ :=
          serveHttp_of_not_admitted c l .enabled maxBody (hnone.resolve_left (by decide))
        refine ⟨sent, delay, hlen, by simp, by simp, ?_⟩
        intro σ t w
        exact (if_pos ha).trans (hserve t w)
      | plain bytes =>
        refine ⟨if Tls.refuses bytes then [.tlsAlert] else [], 0, by split <;> simp, by simp,
          by simp, ?_⟩
        intro σ t w
        refine (if_pos ha).trans ?_
        show refusePlain bytes w = _
        unfold refusePlain
        split <;> rfl

/-! ## Rejected credentials -/

/-- Why a request with a rejected `Authorization` value is turned away does not depend on the
value. -/
theorem rejection?_of_rejected (s : Service σ) {r : Http.Request} {v : String}
    (hv : r.header? "authorization" = some v) (hr : s.credentials.accepts v = false) :
    s.rejection? r = some (if r.uri = "/" then .wrongCredentials else .notFound) := by
  unfold rejection?
  by_cases hu : r.uri = "/"
  · rw [if_neg fun h => h hu, hv, if_pos hu]
    simp [hr]
  · rw [if_pos hu, if_neg hu]

/-- A stream whose first request carries a rejected value is served alike for every such value. -/
theorem serveHttp_of_rejected (s : Service σ) {bytes rest : List UInt8} {r : Http.Request}
    {v : String} (h : Http.readRequest s.maxBody bytes = .ok (r, rest))
    (hv : r.header? "authorization" = some v) (hr : s.credentials.accepts v = false)
    (w : World σ) :
    s.serveHttp bytes w =
      let why : Rejection := if r.uri = "/" then .wrongCredentials else .notFound
      ⟨[.reply why.reply], why.delay s.credentials, w⟩ :=
  serveHttp_of_rejection s h (rejection?_of_rejected s hv hr) w

/-- Two connections whose streams start with requests for the same target, each with a rejected
value, are served alike, be the streams plain or not. -/
theorem serve_of_rejected (s : Service σ) (peer : Net.Address) {b₁ b₂ rest₁ rest₂ : List UInt8}
    {r₁ r₂ : Http.Request} {v₁ v₂ : String}
    (h₁ : Http.readRequest s.maxBody b₁ = .ok (r₁, rest₁))
    (h₂ : Http.readRequest s.maxBody b₂ = .ok (r₂, rest₂)) (hu : r₁.uri = r₂.uri)
    (hv₁ : r₁.header? "authorization" = some v₁) (hr₁ : s.credentials.accepts v₁ = false)
    (hv₂ : r₂.header? "authorization" = some v₂) (hr₂ : s.credentials.accepts v₂ = false)
    (w : World σ) :
    s.serve peer (.plain b₁) w = s.serve peer (.plain b₂) w ∧
      s.serve peer (.secured b₁) w = s.serve peer (.secured b₂) w := by
  have hhttp : s.serveHttp b₁ w = s.serveHttp b₂ w := by
    rw [serveHttp_of_rejected s h₁ hv₁ hr₁, serveHttp_of_rejected s h₂ hv₂ hr₂, hu]
  have hplain : refusePlain b₁ w = refusePlain b₂ w := by
    rw [refusePlain, refusePlain, Http.refuses_of_readRequest h₁, Http.refuses_of_readRequest h₂]
  unfold serve
  cases s.allowList.allows peer with
  | false => exact ⟨rfl, rfl⟩
  | true =>
    cases s.tls with
    -- Each mode serves one kind of stream and treats the other alike.
    | disabled => exact ⟨hhttp, rfl⟩
    | enabled => exact ⟨hplain, hhttp⟩
    | unavailable => exact ⟨rfl, rfl⟩

/-- The requests that a connection executes are the first ones of the stream, all of them admitted,
and every handler that it runs is run for one of them. -/
theorem serve_executed (s : Service σ) (peer : Net.Address) (inbound : Inbound) (w : World σ) :
    ∃ executed rest, Http.Reads s.maxBody inbound.bytes executed rest ∧
      (∀ r ∈ executed, s.credentials.Admits r) ∧
      (s.serve peer inbound w).world = (s.answerAll executed w).2 := by
  have hhttp : ∃ executed rest, Http.Reads s.maxBody inbound.bytes executed rest ∧
      (∀ r ∈ executed, s.credentials.Admits r) ∧
      (s.serveHttp inbound.bytes w).world = (s.answerAll executed w).2 := by
    obtain ⟨replies, -, hd⟩ := serveHttp_dialogue s inbound.bytes w
    obtain ⟨executed, rest, hread, hadm, hworld, -⟩ := hd.exists_executed
    exact ⟨executed, rest, hread, fun r hr => (rejection?_eq_none_iff s r).mp (hadm r hr),
      hworld.symm⟩
  have hnone : ∀ served : Served σ, served.world = w →
      ∃ executed rest, Http.Reads s.maxBody inbound.bytes executed rest ∧
        (∀ r ∈ executed, s.credentials.Admits r) ∧ served.world = (s.answerAll executed w).2 :=
    fun _ hw => ⟨[], inbound.bytes, .nil _, by simp, hw⟩
  unfold serve
  cases s.allowList.allows peer with
  | false => cases s.tls <;> exact hnone _ rfl
  | true =>
    cases s.tls with
    | disabled => cases inbound <;> first | exact hhttp | exact hnone _ rfl
    | unavailable => exact hnone _ rfl
    | enabled =>
      cases inbound with
      | secured bytes => exact hhttp
      | plain bytes =>
        refine hnone (refusePlain bytes w) ?_
        unfold refusePlain
        split <;> rfl

/-- **Nothing is executed or told without authentication.** Every handler that a connection runs,
and every change of the state, comes from the requests at the front of the stream up to the first
that is not admitted. If there is none of them, two dispatchers that differ in everything but the
configuration of the listener write the same, at most one reply, and stay as they are; in the TLS
modes a peer that may not connect gets nothing. The value of rejected credentials shows nowhere. -/
theorem serve_needs_admission {σ₁ σ₂ : Type} (t₁ : Table σ₁) (t₂ : Table σ₂) (c : Credentials)
    (l : AllowList) (tls : TlsMode) (maxBody : Nat) (peer : Net.Address) (w₁ : World σ₁)
    (w₂ : World σ₂) :
    let s₁ : Service σ₁ := ⟨t₁, c, l, tls, maxBody⟩
    let s₂ : Service σ₂ := ⟨t₂, c, l, tls, maxBody⟩
    (∀ inbound, ∃ executed rest,
      Http.Reads maxBody inbound.bytes executed rest ∧ (∀ r ∈ executed, c.Admits r) ∧
        (s₁.serve peer inbound w₁).world = (s₁.answerAll executed w₁).2 ∧
        (s₁.serve peer inbound w₁).world.calls =
          w₁.calls ++ (s₁.invocations executed w₁).flatMap fun p => p.2) ∧
    (∀ inbound, Shut c l tls maxBody peer inbound →
      (s₁.serve peer inbound w₁).world = w₁ ∧ (s₂.serve peer inbound w₂).world = w₂ ∧
        (∀ clock, (s₁.serve peer inbound w₁).bytes clock =
          (s₂.serve peer inbound w₂).bytes clock) ∧
        (s₁.serve peer inbound w₁).delay = (s₂.serve peer inbound w₂).delay ∧
        (s₁.serve peer inbound w₁).sent.length ≤ 1 ∧
        (l.allows peer = false ∧ tls.isTls = true ∨ tls = .unavailable →
          (s₁.serve peer inbound w₁).sent = []) ∧
        (l.allows peer = false ∧ tls = .disabled →
          (s₁.serve peer inbound w₁).sent = [.reply (.closing 403)])) ∧
    (∀ b₁ b₂ r₁ r₂ rest₁ rest₂ v₁ v₂,
      Http.readRequest maxBody b₁ = .ok (r₁, rest₁) →
      Http.readRequest maxBody b₂ = .ok (r₂, rest₂) → r₁.uri = r₂.uri →
      r₁.header? "authorization" = some v₁ → c.accepts v₁ = false →
      r₂.header? "authorization" = some v₂ → c.accepts v₂ = false →
        s₁.serve peer (.plain b₁) w₁ = s₁.serve peer (.plain b₂) w₁ ∧
          s₁.serve peer (.secured b₁) w₁ = s₁.serve peer (.secured b₂) w₁) := by
  intro s₁ s₂
  refine ⟨?_, ?_, ?_⟩
  · intro inbound
    obtain ⟨executed, rest, hread, hadm, hworld⟩ := serve_executed s₁ peer inbound w₁
    refine ⟨executed, rest, hread, hadm, hworld, ?_⟩
    rw [hworld]
    exact calls_answerAll s₁ executed w₁
  · intro inbound h
    obtain ⟨sent, delay, hlen, hsilent, hforbidden, hserve⟩ := serve_of_shut c l tls maxBody h
    have h₁ : s₁.serve peer inbound w₁ = ⟨sent, delay, w₁⟩ := hserve t₁ w₁
    have h₂ : s₂.serve peer inbound w₂ = ⟨sent, delay, w₂⟩ := hserve t₂ w₂
    rw [h₁, h₂]
    exact ⟨rfl, rfl, fun _ => rfl, rfl, hlen, hsilent, hforbidden⟩
  · intro b₁ b₂ r₁ r₂ rest₁ rest₂ v₁ v₂ h₁ h₂ hu hv₁ hr₁ hv₂ hr₂
    exact serve_of_rejected s₁ peer h₁ h₂ hu hv₁ hr₁ hv₂ hr₂ w₁

end Service

end RpcDaemon
