import RpcDaemon.Proofs.Access.Credentials
import RpcDaemon.Proofs.Http.Receiving
import RpcDaemon.Proofs.Json.RoundTrip
import RpcDaemon.Proofs.Service.Admission

/-!
# Calls sent one after the other

A client sends any number of calls on one connection without waiting for the replies. Every call is
executed once, in order, and answered with its own reply, which the client reads back. Main
statement: `serve_pipeline`.
-/

namespace RpcDaemon

/-! ## Running calls in order -/

namespace Table

variable {σ : Type}

/-- Runs calls in order, each in the state that those before it leave. -/
def executeAll (t : Table σ) : List Rpc.Request → World σ → List Rpc.Response × World σ
  | [], w => ([], w)
  | r :: rest, w =>
      ((t.executeRequest r w).1 :: (t.executeAll rest (t.executeRequest r w).2).1,
        (t.executeAll rest (t.executeRequest r w).2).2)

/-- Each call has one response. -/
@[simp] theorem length_executeAll (t : Table σ) (rs : List Rpc.Request) (w : World σ) :
    (t.executeAll rs w).1.length = rs.length := by
  induction rs generalizing w with
  | nil => rfl
  | cons r rs ih => rw [executeAll, List.length_cons, List.length_cons, ih]

end Table

/-! ## Calls and the messages that make them -/

namespace Rpc

/-- The value makes a call, and can be written down and read back: it is an object with a string
for its method and with an array, `null` or nothing for its parameters, it has no floating point
number in it, and it nests fewer than 128 levels. -/
structure Callable (q : Json) : Prop where
  /-- The value is an object. -/
  isObject : q.isObject = true
  /-- The method is a string. -/
  method : ∃ m, q.get? "method" = some (.string m)
  /-- The parameters are an array, `null`, or left out. -/
  params : q.get? "params" = none ∨ q.get? "params" = some .null ∨
    ∃ items, q.get? "params" = some (.array items)
  /-- No number has a point. -/
  floatFree : q.FloatFree
  /-- Members stand in the order of their names, as in every value. -/
  ordered : q.Ordered
  /-- The value does not nest too deeply. -/
  depth : q.depth < 128

/-- A value that makes a call is an object that is accepted as a request. -/
theorem Callable.exists_request {q : Json} (h : Callable q) :
    ∃ ms r, q = .object ms ∧ Request.ofJson q = .ok r := by
  obtain ⟨method, hmethod⟩ := h.method
  have hm : Request.methodOf q = .ok method := by
    unfold Request.methodOf
    rw [hmethod]
  have hp : ∃ params, Request.paramsOf q = .ok params := by
    unfold Request.paramsOf
    rcases h.params with hp | hp | ⟨items, hp⟩
    · exact ⟨[], by rw [hp]⟩
    · exact ⟨[], by rw [hp]⟩
    · exact ⟨items, by rw [hp]⟩
  obtain ⟨params, hp⟩ := hp
  have hr : Request.ofJson q = .ok ⟨Request.idOf q, method, params⟩ := by
    unfold Request.ofJson
    rw [if_pos h.isObject, hm]
    dsimp only
    rw [hp]
  cases q with
  | object ms => exact ⟨ms, _, rfl, hr⟩
  | null => cases h.isObject
  | bool b => cases h.isObject
  | number n => cases h.isObject
  | string s => cases h.isObject
  | array items => cases h.isObject

/-- The HTTP reply that carries the response to a call. -/
def Response.reply (res : Response) : Http.Reply :=
  .json 200 res.body true

/-- The reply has the body of the response. -/
theorem Response.body_reply (res : Response) : res.reply.body = res.body := by
  rw [Response.reply, Http.Reply.body]

end Rpc

/-- `m` makes the call `q` with the credentials `c`: a POST to the root under HTTP/1.1 that brings
the credentials, says nothing about the connection, and has the compact text of `q` for its body. -/
structure Presents (c : Credentials) (maxBody : Nat) (q : Json) (m : Http.Message) : Prop where
  /-- The message keeps to the limits. -/
  framed : m.Framed maxBody
  /-- The method is `POST`. -/
  method : m.method = "POST"
  /-- The target is the root. -/
  uri : m.uri = "/"
  /-- The version is HTTP/1.1. -/
  minorVersion : m.minorVersion = 1
  /-- A header presents the credentials. -/
  authorization : ∃ h ∈ m.headers, lowered h.1 = "authorization" ∧ h.2 = c.header
  /-- No header is about the connection. -/
  connection : ∀ h ∈ m.headers, lowered h.1 ≠ "connection"
  /-- The body is the call. -/
  body : m.body = Utf8.encode q.document.chars

namespace Presents

variable {c : Credentials} {maxBody : Nat} {q : Json} {m : Http.Message}

/-- The request that is read off the message is admitted. -/
theorem admits (h : Presents c maxBody q m) : c.Admits m.request := by
  obtain ⟨header, hmem, hname, hvalue⟩ := h.authorization
  have hlookup := Http.Message.lookup_readHeaders h.framed.nodup hmem
  rw [hname, hvalue] at hlookup
  exact ⟨h.uri, c.header, hlookup, c.accepts_header⟩

/-- The request that is read off the message leaves the connection open. -/
theorem keepAlive (h : Presents c maxBody q m) : m.request.keepAlive = true := by
  have hnone : m.request.header? "connection" = none := by
    show m.readHeaders.lookup (lowered "connection") = none
    rw [List.lookup_eq_none_iff]
    intro p hp
    obtain ⟨header, hmem, rfl⟩ := List.mem_map.mp hp
    exact bne_iff_ne.mpr fun heq => h.connection header hmem heq.symm
  unfold Http.Request.keepAlive
  rw [hnone]
  show decide (1 ≤ m.minorVersion) = true
  rw [h.minorVersion]
  rfl

end Presents

/-- The message that a client composes makes the call, if the call and the credentials are not too
long. -/
theorem presents_post {c : Credentials} {maxBody : Nat} {q : Json}
    (hmax : maxBody < 18446744073709551616)
    (hbody : (Utf8.encode q.document.chars).length ≤ maxBody)
    (hshort : (Utf8.encode (Http.headerChars ("Authorization", c.header))).length + 2 ≤
      Http.maxLine) :
    Presents c maxBody q (.post c.header (Utf8.encode q.document.chars)) where
  framed := Http.Message.framed_post hmax hbody c.clean_header hshort
  method := rfl
  uri := rfl
  minorVersion := rfl
  authorization := by
    refine ⟨_, List.mem_cons_self, ?_, rfl⟩
    show lowered "Authorization" = "authorization"
    decide
  connection := by
    intro h hm
    simp only [Http.Message.post, List.mem_cons, List.not_mem_nil, or_false] at hm
    rcases hm with rfl | rfl
    · show lowered "Authorization" ≠ "connection"
      decide
    · show lowered "Content-Length" ≠ "connection"
      decide
  body := rfl

/-- What is sent is read back reply by reply, with nothing left over. -/
theorem Served.readMany?_bytes {σ : Type} {served : Served σ} {replies : List Http.Reply}
    (h : served.sent = replies.map Sent.reply) (hstatus : ∀ r ∈ replies, r.status < 65536)
    (clock : Nat → Nat) :
    Http.Received.readMany? replies.length (served.bytes clock) =
      some (replies.zipIdx.map fun p => p.1.received (clock p.2), []) := by
  have hread := Http.Reply.readMany?_render (replies.zipIdx.map fun p => (clock p.2, p.1)) ?_ []
  · rw [List.length_map, List.length_zipIdx, List.append_nil, List.map_map, List.map_map] at hread
    rw [Served.bytes_of_replies h]
    exact hread
  · intro p hp
    obtain ⟨q, hq, rfl⟩ := List.mem_map.mp hp
    exact hstatus q.1 (List.fst_mem_of_mem_zipIdx hq)

namespace Service

variable {σ : Type} {s : Service σ}

/-- A message that makes a call is answered with the response to the call, in the state that
running it leaves. -/
theorem answer_of_presents {q : Json} {m : Http.Message} (hm : Presents s.credentials s.maxBody q m)
    (hq : Rpc.Callable q) {r : Rpc.Request} (hr : Rpc.Request.ofJson q = .ok r) (w : World σ) :
    s.answer m.request w =
      ((s.table.executeRequest r w).1.reply, (s.table.executeRequest r w).2) := by
  obtain ⟨ms, -, rfl, -⟩ := hq.exists_request
  have hread : Json.readBytes? m.request.body = some (.object ms) := by
    show Json.readBytes? m.body = _
    rw [hm.body]
    exact Json.readBytes?_encode hq.floatFree hq.ordered (Nat.le_of_lt_succ hq.depth)
  unfold answer
  rw [Table.answerBody_of_call s.table w hread hr, hm.keepAlive]
  rfl

/-- Calls that are sent one after the other are answered one after the other. -/
theorem serveHttp_of_presents {calls : List (Json × Http.Message)}
    (hmax : s.maxBody < 18446744073709551616)
    (hcalls : ∀ p ∈ calls, Rpc.Callable p.1 ∧ Presents s.credentials s.maxBody p.1 p.2)
    (w : World σ) :
    ∃ rs, calls.map (fun p => Rpc.Request.ofJson p.1) = rs.map Except.ok ∧
      (s.serveHttp (calls.map fun p => p.2.render).flatten w).sent =
        ((s.table.executeAll rs w).1.map Rpc.Response.reply).map Sent.reply ∧
      (s.serveHttp (calls.map fun p => p.2.render).flatten w).world =
        (s.table.executeAll rs w).2 := by
  -- The state that one call leaves is the one that the next starts in.
  induction calls generalizing w with
  | nil =>
    have hnil : s.serveHttp [] w = ⟨[], 0, w⟩ := serveHttp_of_error s (e := .closed) rfl w
    refine ⟨[], rfl, ?_, ?_⟩
    · show (s.serveHttp [] w).sent = []
      rw [hnil]
    · show (s.serveHttp [] w).world = w
      rw [hnil]
  | cons p calls ih =>
    obtain ⟨hq, hm⟩ := hcalls p List.mem_cons_self
    obtain ⟨-, r, -, hr⟩ := hq.exists_request
    obtain ⟨rs, hrs, hsent, hworld⟩ := ih (fun p' hp' => hcalls p' (List.mem_cons_of_mem p hp'))
      (s.table.executeRequest r w).2
    have hadm : s.rejection? p.2.request = none := (rejection?_eq_none_iff s _).mpr hm.admits
    have hstep : s.serveHttp ((p :: calls).map fun p => p.2.render).flatten w =
        (s.serveHttp (calls.map fun p => p.2.render).flatten (s.table.executeRequest r w).2).after
          (s.table.executeRequest r w).1.reply := by
      rw [List.map_cons, List.flatten_cons]
      unfold serveHttp
      rw [Http.readAll_of_ok (hm.framed.readRequest_render hmax _)]
      show s.serveRequests _ (_ :: _) w = _
      rw [serveRequests_cons s _ _ _ w hadm, answer_of_presents hm hq hr w]
      rfl
    refine ⟨r :: rs, by rw [List.map_cons, List.map_cons, hr, hrs], ?_, ?_⟩
    · rw [hstep]
      show Sent.reply _ :: Served.sent _ = _
      rw [hsent]
      rfl
    · rw [hstep]
      exact hworld

/-- **Fidelity of a connection.** To a peer that is let in, every call that is sent on the
connection is answered, in order, with one reply of status 200 that says that the connection stays
open. The client cuts the replies out of what is sent by their lengths, and finds nothing else
there; the body of each is the response to its call, run in the state that the calls before it
leave. In the end the state is the one that running every call once, in order, leads to. The limit
on bodies is one that a word of 64 bits can hold. -/
theorem serve_pipeline (s : Service σ) (peer : Net.Address) (calls : List (Json × Http.Message))
    (w : World σ) (hpeer : s.allowList.allows peer = true) (htls : s.tls = .disabled)
    (hmax : s.maxBody < 18446744073709551616)
    (hcalls : ∀ p ∈ calls, Rpc.Callable p.1 ∧ Presents s.credentials s.maxBody p.1 p.2) :
    let served := s.serve peer (.plain (calls.map fun p => p.2.render).flatten) w
    ∃ rs, calls.map (fun p => Rpc.Request.ofJson p.1) = rs.map Except.ok ∧
      served.world = (s.table.executeAll rs w).2 ∧
      served.sent.length = calls.length ∧
      ∀ clock, ∃ received,
        Http.Received.readMany? calls.length (served.bytes clock) = some (received, []) ∧
        (∀ reply ∈ received, reply.status = 200 ∧
          reply.headers.lookup "Connection" = some "keep-alive") ∧
        received.map Http.Received.body =
          (s.table.executeAll rs w).1.map fun res => Utf8.ofString res.body := by
  intro served
  obtain ⟨rs, hrs, hsent, hworld⟩ := serveHttp_of_presents hmax hcalls w
  have hserved : served = s.serveHttp (calls.map fun p => p.2.render).flatten w := by
    show s.serve peer _ w = _
    unfold serve
    rw [if_pos hpeer, htls]
  have hlength : ((s.table.executeAll rs w).1.map Rpc.Response.reply).length = calls.length := by
    have h := congrArg List.length hrs
    rw [List.length_map, List.length_map] at h
    rw [List.length_map, Table.length_executeAll, h]
  rw [hserved]
  refine ⟨rs, hrs, hworld, by rw [hsent, List.length_map, hlength], ?_⟩
  intro clock
  have hstatus : ∀ reply ∈ (s.table.executeAll rs w).1.map Rpc.Response.reply,
      reply.status = 200 ∧ reply.keepAlive = true := by
    intro reply hreply
    obtain ⟨res, -, rfl⟩ := List.mem_map.mp hreply
    exact ⟨rfl, rfl⟩
  have hread := Served.readMany?_bytes hsent (fun r hr => by rw [(hstatus r hr).1]; decide) clock
  rw [hlength] at hread
  -- The moments of writing show in the dates only.
  refine ⟨_, hread, ?_, ?_⟩
  · intro reply hreply
    obtain ⟨p, hp, rfl⟩ := List.mem_map.mp hreply
    obtain ⟨res, -, hres⟩ := List.mem_map.mp (List.fst_mem_of_mem_zipIdx hp)
    rw [← hres]
    exact ⟨rfl, Http.Reply.lookup_connection (clock p.2) 200 res.body true⟩
  · have hbody : (fun reply : Http.Reply => Utf8.ofString reply.body) ∘ Rpc.Response.reply =
        fun res => Utf8.ofString res.body := by
      funext res
      rw [Function.comp_apply, res.body_reply]
    rw [Http.Reply.bodies_received, List.map_map, hbody]

/-- Two calls, of which the second stops the node, are answered on one connection. -/
theorem serve_pipeline_of_two :
    let s : Service Unit := ⟨.builtins fun _ _ _ node _ => (.panic none, node, ()),
      ⟨"user", "password"⟩, ⟨[]⟩, .disabled, 64⟩
    let w : World Unit := ⟨.fresh .initial, (), []⟩
    let q₁ : Json := .object [("id", .null), ("method", .string "getblockcount")]
    let q₂ : Json := .object [("method", .string "stop"), ("params", .array [])]
    let m₁ := Http.Message.post s.credentials.header (Utf8.encode q₁.document.chars)
    let m₂ := Http.Message.post s.credentials.header (Utf8.encode q₂.document.chars)
    let served := s.serve (.v4 ⟨127, 0, 0, 1⟩) (.plain [m₁.render, m₂.render].flatten) w
    ∃ rs, [Rpc.Request.ofJson q₁, Rpc.Request.ofJson q₂] = rs.map Except.ok ∧
      served.world = (s.table.executeAll rs w).2 ∧
      served.sent.length = 2 ∧
      ∀ clock, ∃ received,
        Http.Received.readMany? 2 (served.bytes clock) = some (received, []) ∧
        (∀ reply ∈ received, reply.status = 200 ∧
          reply.headers.lookup "Connection" = some "keep-alive") ∧
        received.map Http.Received.body =
          (s.table.executeAll rs w).1.map fun res => Utf8.ofString res.body := by
  intro s w q₁ q₂ m₁ m₂
  have hcall₁ : Rpc.Callable q₁ :=
    ⟨rfl, ⟨_, rfl⟩, Or.inl rfl, ⟨trivial, trivial, trivial⟩, ⟨by decide, trivial, trivial, trivial⟩,
      by decide⟩
  have hcall₂ : Rpc.Callable q₂ :=
    ⟨rfl, ⟨_, rfl⟩, Or.inr (Or.inr ⟨_, rfl⟩), ⟨trivial, trivial, trivial⟩,
      ⟨by decide, trivial, trivial, trivial⟩, by decide⟩
  have hshort : (Utf8.encode (Http.headerChars ("Authorization", s.credentials.header))).length + 2
      ≤ Http.maxLine := by
    decide +kernel
  refine serve_pipeline s (.v4 ⟨127, 0, 0, 1⟩) [(q₁, m₁), (q₂, m₂)] w (by decide) rfl (by decide) ?_
  intro p hp
  rcases List.mem_cons.mp hp with rfl | hp
  · exact ⟨hcall₁, presents_post (by decide) (by decide +kernel) hshort⟩
  · rcases List.mem_singleton.mp hp with rfl
    exact ⟨hcall₂, presents_post (by decide) (by decide +kernel) hshort⟩

end Service

end RpcDaemon
