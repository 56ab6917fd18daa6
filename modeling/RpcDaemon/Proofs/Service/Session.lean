import RpcDaemon.Proofs.Chain.Selection
import RpcDaemon.Proofs.Command.Effect
import RpcDaemon.Proofs.Runs
import RpcDaemon.Proofs.Service.Admission
import RpcDaemon.Proofs.Service.Batch

/-!
# Sessions

A session is a list of steps on one node and its commands. Calls come in directly, as values, in
batches and on connections; the commands are listed, the warnings are set, the network is chosen,
and the node is asked to shut down. Which calls come in is read off the bytes alone, and they are
run one after the other with nothing else between them. Main statement: `Entry.performs`.
-/

namespace RpcDaemon

open Rpc (Request)

/-! ## Calls in a row -/

namespace Table

variable {σ : Type} {t : Table σ} {made made' : String → List Json → Prop} {w w' w'' : World σ}

/-- The state after calls, each a method with its parameters, were run in turn. -/
def afterCalls (t : Table σ) (calls : List (String × List Json)) (w : World σ) : World σ :=
  calls.foldl (fun w c => (t.execute c.1 c.2 w).2) w

/-- From the state `w` the calls that are `made` are run in turn, no others, and this leaves `w'`.
-/
def Performs (t : Table σ) (made : String → List Json → Prop) (w w' : World σ) : Prop :=
  ∃ calls, w' = t.afterCalls calls w ∧
    ∀ method params, (method, params) ∈ calls ↔ made method params

/-- Nothing happens where no call is made. -/
theorem performs_of_forall_not (h : ∀ method params, ¬ made method params) :
    t.Performs made w w := by
  refine ⟨[], rfl, fun method params => ?_⟩
  simp [h method params]

/-- A single call is run. -/
theorem performs_execute (t : Table σ) (method : String) (params : List Json) (w : World σ) :
    t.Performs (fun m ps => m = method ∧ ps = params) w (t.execute method params w).2 := by
  refine ⟨[(method, params)], rfl, fun m ps => ?_⟩
  rw [List.mem_singleton, Prod.mk.injEq]

/-- Calls are run after others. -/
theorem Performs.append (h : t.Performs made w w') (h' : t.Performs made' w' w'') :
    t.Performs (fun m ps => made m ps ∨ made' m ps) w w'' := by
  obtain ⟨calls, rfl, hcalls⟩ := h
  obtain ⟨calls', rfl, hcalls'⟩ := h'
  refine ⟨calls ++ calls', ?_, fun m ps => ?_⟩
  · unfold afterCalls
    rw [List.foldl_append]
  · rw [List.mem_append, hcalls, hcalls']

theorem Performs.congr (h : t.Performs made w w') (heq : ∀ m ps, made m ps ↔ made' m ps) :
    t.Performs made' w w' := by
  obtain ⟨calls, hw, hcalls⟩ := h
  exact ⟨calls, hw, fun m ps => (hcalls m ps).trans (heq m ps)⟩

/-- Calls change the node as the handlers that the table brings along do, if that it is asked to
shut down is allowed too. -/
theorem Performs.respects {R : Node → Node → Prop} (h : t.Performs made w w')
    (hR : t.Respects R) (hstop : ∀ n : Node, R n n.requestShutdown) : R w.node w'.node := by
  obtain ⟨calls, rfl, -⟩ := h
  induction calls generalizing w with
  | nil => exact hR.refl w.node
  | cons c rest ih => exact hR.trans (hR.execute_of_requestShutdown hstop c.1 c.2 w) ih

end Table

/-! ## Values, batches and bodies -/

/-- A value is one call at most. -/
theorem Rpc.Request.Calls.unique {v : Json} {method method' : String} {params params' : List Json}
    (h : Request.Calls v method params) (h' : Request.Calls v method' params') :
    method' = method ∧ params' = params := by
  have heq := (Request.ofJson_of_calls h').symm.trans (Request.ofJson_of_calls h)
  cases heq
  exact ⟨rfl, rfl⟩

/-- A body makes a call: it is one, or it is a batch with such an item. -/
inductive Body.Makes (body : List UInt8) (method : String) (params : List Json) : Prop
  /-- The body is the call. -/
  | alone {v : Json} (h : Json.readBytes? body = some v) (hcall : Request.Calls v method params)
  /-- The call is an item of the body. -/
  | item {items : List Json} {v : Json} (h : Json.readBytes? body = some (.array items))
      (hv : v ∈ items) (hcall : Request.Calls v method params)

namespace Body

variable {body : List UInt8} {method : String} {params : List Json}

/-- A body that is no JSON makes no call. -/
theorem not_makes_of_none (h : Json.readBytes? body = none) : ¬ Makes body method params := by
  rintro (⟨hv, -⟩ | ⟨hv, -, -⟩)
  · cases h.symm.trans hv
  · cases h.symm.trans hv

/-- A batch makes the calls among its items. -/
theorem makes_iff_of_array {items : List Json} (h : Json.readBytes? body = some (.array items)) :
    Makes body method params ↔ ∃ v ∈ items, Request.Calls v method params := by
  constructor
  · rintro (⟨hv, hcall⟩ | ⟨hv, hmem, hcall⟩)
    · cases h.symm.trans hv
      cases Request.isObject_of_get? hcall.method_eq
    · cases h.symm.trans hv
      exact ⟨_, hmem, hcall⟩
  · rintro ⟨v, hmem, hcall⟩
    exact .item h hmem hcall

/-- A body that is no batch makes the call that its value is. -/
theorem makes_iff_of_not_array {v : Json} (h : Json.readBytes? body = some v)
    (harray : ∀ items, v ≠ .array items) :
    Makes body method params ↔ Request.Calls v method params := by
  constructor
  · rintro (⟨hv, hcall⟩ | ⟨hv, -, -⟩)
    · cases h.symm.trans hv
      exact hcall
    · cases h.symm.trans hv
      exact absurd rfl (harray _)
  · exact .alone h

end Body

namespace Table

variable {σ : Type} (t : Table σ)

/-- **A value** is run if it is a call. -/
theorem performs_value (v : Json) (w : World σ) :
    t.Performs (Request.Calls v) w (t.executeValue v w).2 := by
  rcases Request.refused_or_calls v with ⟨message, hr⟩ | ⟨method, params, hc⟩
  · rw [executeValue_of_refused t w hr]
    exact performs_of_forall_not hr.not_calls
  · rw [executeValue_of_calls t w hc]
    refine (t.performs_execute method params w).congr fun m ps => ⟨?_, hc.unique⟩
    rintro ⟨rfl, rfl⟩
    exact hc

/-- **A batch** runs those of its items that are calls. -/
theorem performs_batch (items : List Json) (w : World σ) :
    t.Performs (fun m ps => ∃ v ∈ items, Request.Calls v m ps) w (t.executeBatch items w).2 := by
  induction items generalizing w with
  | nil => exact performs_of_forall_not (by simp)
  | cons v rest ih =>
    rw [executeBatch_cons]
    refine ((t.performs_value v w).append (ih _)).congr fun m ps => ?_
    simp only [List.mem_cons, exists_eq_or_imp]

/-- A body that is no batch leaves the state that its value leaves. -/
theorem answerBody_snd_of_not_array {body : List UInt8} {v : Json} (w : World σ)
    (h : Json.readBytes? body = some v) (harray : ∀ items, v ≠ .array items) :
    (t.answerBody body w).2 = (t.executeValue v w).2 := by
  rw [answerBody, h]
  show (t.answerValue v w).2 = (t.executeValue v w).2
  cases v with
  | array items => exact absurd rfl (harray items)
  | object ms =>
    unfold answerValue executeValue
    cases Request.ofJson (.object ms) <;> rfl
  | null => rfl
  | bool b => rfl
  | number n => rfl
  | string s => rfl

/-- **A body** runs the calls that it makes. -/
theorem performs_body (body : List UInt8) (w : World σ) :
    t.Performs (Body.Makes body) w (t.answerBody body w).2 := by
  cases hv : Json.readBytes? body with
  | none =>
    have hsame : (t.answerBody body w).2 = w := by rw [answerBody, hv]
    rw [hsame]
    exact performs_of_forall_not fun _ _ => Body.not_makes_of_none hv
  | some v =>
    by_cases harray : ∃ items, v = .array items
    · obtain ⟨items, rfl⟩ := harray
      rw [answerBody_of_array t w hv]
      exact (t.performs_batch items w).congr fun _ _ => (Body.makes_iff_of_array hv).symm
    · have hne := not_exists.mp harray
      rw [t.answerBody_snd_of_not_array w hv hne]
      exact (t.performs_value v w).congr fun _ _ => (Body.makes_iff_of_not_array hv hne).symm

end Table

/-! ## Connections -/

namespace Service

variable {σ : Type} {s : Service σ}

/-- The reply to a request leaves the connection open if the request asks for that and its body is a
batch or makes a call. -/
theorem keepAlive_answer_iff (s : Service σ) (r : Http.Request) (w : World σ) :
    (s.answer r w).1.keepAlive = true ↔ r.keepAlive = true ∧ Body.Accepted r.body := by
  have hk : (s.answer r w).1.keepAlive =
      (r.keepAlive && !(s.table.answerBody r.body w).1.close) := by
    rw [answer_fst]
    rfl
  rw [hk, Bool.and_eq_true, Bool.not_eq_true']
  refine and_congr_right fun _ => ⟨?_, fun h => (Table.answerBody_of_accepted s.table w h).2⟩
  intro hopen
  rcases s.table.answerBody_cases r.body w with ⟨h, -⟩ | ⟨-, -, hclose, -⟩ | ⟨-, -, hclose, -⟩
  · exact h
  · cases hopen.symm.trans hclose
  · cases hopen.symm.trans hclose

/-- The request is executed on a stream with the bytes: it is admitted, and so are those before it,
each of which leaves the connection open. -/
inductive Executed (c : Credentials) (maxBody : Nat) : List UInt8 → Http.Request → Prop
  /-- The first request of the stream. -/
  | first {bytes rest : List UInt8} {r : Http.Request}
      (hread : Http.readRequest maxBody bytes = .ok (r, rest)) (hadmits : c.Admits r) :
      Executed c maxBody bytes r
  /-- A request behind the first one. -/
  | later {bytes rest : List UInt8} {r q : Http.Request}
      (hread : Http.readRequest maxBody bytes = .ok (r, rest)) (hadmits : c.Admits r)
      (hopen : r.keepAlive = true) (hbody : Body.Accepted r.body)
      (hlater : Executed c maxBody rest q) : Executed c maxBody bytes q

variable {c : Credentials} {maxBody : Nat} {bytes rest : List UInt8} {r q : Http.Request}

/-- Nothing is executed where no request can be read. -/
theorem not_executed_of_error {e : Http.FramingError}
    (h : Http.readRequest maxBody bytes = .error e) : ¬ Executed c maxBody bytes q := by
  intro hq
  cases hq with
  | first hread => cases h.symm.trans hread
  | later hread => cases h.symm.trans hread

/-- Nothing is executed where the first request is turned away. -/
theorem not_executed_of_not_admits (h : Http.readRequest maxBody bytes = .ok (r, rest))
    (hadmits : ¬ c.Admits r) : ¬ Executed c maxBody bytes q := by
  intro hq
  cases hq with
  | first hread hq =>
    cases h.symm.trans hread
    exact hadmits hq
  | later hread hq =>
    cases h.symm.trans hread
    exact hadmits hq

/-- What is executed where the first request is admitted. -/
theorem executed_iff (h : Http.readRequest maxBody bytes = .ok (r, rest)) (hadmits : c.Admits r) :
    Executed c maxBody bytes q ↔
      q = r ∨ (r.keepAlive = true ∧ Body.Accepted r.body) ∧ Executed c maxBody rest q := by
  constructor
  · intro hq
    cases hq with
    | first hread =>
      cases h.symm.trans hread
      exact Or.inl rfl
    | later hread hadm hopen hbody hlater =>
      cases h.symm.trans hread
      exact Or.inr ⟨⟨hopen, hbody⟩, hlater⟩
  · rintro (rfl | ⟨⟨hopen, hbody⟩, hlater⟩)
    · exact .first h hadmits
    · exact .later h hadmits hopen hbody hlater

/-- **A dialogue** runs the calls that the executed requests make. -/
theorem Dialogue.performs {w w' : World σ} {replies : List Http.Reply}
    (h : Dialogue s bytes w replies w') :
    s.table.Performs (fun m ps => ∃ r, Executed s.credentials s.maxBody bytes r ∧
      Body.Makes r.body m ps) w w' := by
  induction h with
  | silent hr he =>
    exact Table.performs_of_forall_not fun _ _ ⟨_, hq, _⟩ => not_executed_of_error hr hq
  | misframed hr he =>
    exact Table.performs_of_forall_not fun _ _ ⟨_, hq, _⟩ => not_executed_of_error hr hq
  | @turnedAway bytes rest w r why hr hj =>
    have hadmits : ¬ s.credentials.Admits r := by
      rw [← rejection?_eq_none_iff, hj]
      exact Option.some_ne_none why
    exact Table.performs_of_forall_not fun _ _ ⟨_, hq, _⟩ =>
      not_executed_of_not_admits hr hadmits hq
  | @last bytes rest w r hr hj hk =>
    have hexecuted := fun q => executed_iff (q := q) hr ((rejection?_eq_none_iff s r).mp hj)
    -- The connection is closed behind the request, so no later one is executed.
    have hclosed : ¬(r.keepAlive = true ∧ Body.Accepted r.body) := by
      rw [← keepAlive_answer_iff s r w, hk]
      exact Bool.false_ne_true
    refine (s.table.performs_body r.body w).congr fun m ps => ?_
    simp only [hexecuted, hclosed, false_and, or_false, exists_eq_left]
  | @next bytes rest w w' r replies hr hj hk hd ih =>
    have hexecuted := fun q => executed_iff (q := q) hr ((rejection?_eq_none_iff s r).mp hj)
    have hopen := (keepAlive_answer_iff s r w).mp hk
    refine ((s.table.performs_body r.body w).append ih).congr fun m ps => ?_
    simp only [hexecuted, hopen, and_self, true_and, or_and_right, exists_or, exists_eq_left]

end Service

/-- A connection: how the peer is judged, who it is, and what it sends. -/
structure Connection where
  /-- The user and password. -/
  credentials : Credentials
  /-- The peers that may connect. -/
  allowList : AllowList
  /-- The TLS mode. -/
  tls : TlsMode
  /-- The greatest length of a body. -/
  maxBody : Nat
  /-- The peer. -/
  peer : Net.Address
  /-- What the peer sends. -/
  inbound : Inbound

namespace Connection

/-- What serves the connection. -/
def service {σ : Type} (c : Connection) (t : Table σ) : Service σ :=
  ⟨t, c.credentials, c.allowList, c.tls, c.maxBody⟩

/-- The stream comes to be read: the peer may connect, and it speaks as the mode has it. -/
def IsHeard (c : Connection) : Prop :=
  c.allowList.allows c.peer = true ∧
    ((c.tls = .disabled ∧ ∃ bytes, c.inbound = .plain bytes) ∨
      (c.tls = .enabled ∧ ∃ bytes, c.inbound = .secured bytes))

/-- A connection that is heard is served as its stream is. -/
theorem serve_of_isHeard {σ : Type} {c : Connection} (h : c.IsHeard) (t : Table σ) (w : World σ) :
    (c.service t).serve c.peer c.inbound w = (c.service t).serveHttp c.inbound.bytes w := by
  obtain ⟨credentials, allowList, tls, maxBody, peer, inbound⟩ := c
  obtain ⟨hpeer, ⟨htls, bytes, hbytes⟩ | ⟨htls, bytes, hbytes⟩⟩ := h
  · cases htls
    cases hbytes
    exact if_pos hpeer
  · cases htls
    cases hbytes
    exact if_pos hpeer

/-- What is sent on a connection that is not heard does not depend on the table. -/
theorem serve_of_not_isHeard {c : Connection} (h : ¬ c.IsHeard) :
    ∃ (sent : List Sent) (delay : Nat), ∀ {σ : Type} (t : Table σ) (w : World σ),
      (c.service t).serve c.peer c.inbound w = ⟨sent, delay, w⟩ := by
  obtain ⟨credentials, allowList, tls, maxBody, peer, inbound⟩ := c
  by_cases hpeer : allowList.allows peer = true
  · cases tls with
    | unavailable => exact ⟨[], 0, fun _ _ => if_pos hpeer⟩
    | disabled =>
      cases inbound with
      | secured bytes => exact ⟨[], 0, fun _ _ => if_pos hpeer⟩
      | plain bytes => exact absurd ⟨hpeer, Or.inl ⟨rfl, bytes, rfl⟩⟩ h
    | enabled =>
      cases inbound with
      | secured bytes => exact absurd ⟨hpeer, Or.inr ⟨rfl, bytes, rfl⟩⟩ h
      | plain bytes =>
        refine ⟨if Tls.refuses bytes then [.tlsAlert] else [], 0, fun _ w => ?_⟩
        refine (if_pos hpeer).trans ?_
        show Service.refusePlain bytes w = _
        unfold Service.refusePlain
        split <;> rfl
  · cases tls with
    | disabled => exact ⟨[.reply (.closing 403)], 0, fun _ _ => if_neg hpeer⟩
    | enabled => exact ⟨[], 0, fun _ _ => if_neg hpeer⟩
    | unavailable => exact ⟨[], 0, fun _ _ => if_neg hpeer⟩

/-- A connection that is not heard leaves the state as it was. -/
theorem world_serve_of_not_isHeard {σ : Type} {c : Connection} (h : ¬ c.IsHeard) (t : Table σ)
    (w : World σ) : ((c.service t).serve c.peer c.inbound w).world = w := by
  obtain ⟨sent, delay, hserve⟩ := serve_of_not_isHeard h
  rw [hserve]

end Connection

/-! ## Ways for calls to come in -/

/-- A way for calls to come in. -/
inductive Entry where
  /-- A command is run. -/
  | execute (method : String) (params : List Json)
  /-- A well-formed call is answered. -/
  | request (r : Request)
  /-- A value is answered. -/
  | value (v : Json)
  /-- A batch is answered. -/
  | batch (items : List Json)
  /-- A connection is served. -/
  | connection (c : Connection)

namespace Entry

variable {σ : Type}

/-- The state afterwards. -/
def run (t : Table σ) : Entry → World σ → World σ
  | execute method params, w => (t.execute method params w).2
  | request r, w => (t.executeRequest r w).2
  | value v, w => (t.executeValue v w).2
  | batch items, w => (t.executeBatch items w).2
  | connection c, w => ((c.service t).serve c.peer c.inbound w).world

/-- The call of the method with the parameters comes in. -/
def Makes : Entry → String → List Json → Prop
  | execute method params, m, ps => m = method ∧ ps = params
  | request r, m, ps => m = r.method ∧ ps = r.params
  | value v, m, ps => Request.Calls v m ps
  | batch items, m, ps => ∃ v ∈ items, Request.Calls v m ps
  | connection c, m, ps => c.IsHeard ∧
      ∃ r, Service.Executed c.credentials c.maxBody c.inbound.bytes r ∧ Body.Makes r.body m ps

/-- **However calls come in, they are run in turn, and nothing else is done.** -/
theorem performs (e : Entry) (t : Table σ) (w : World σ) : t.Performs e.Makes w (e.run t w) := by
  cases e with
  | execute method params => exact t.performs_execute method params w
  | request r => exact t.performs_execute r.method r.params w
  | value v => exact t.performs_value v w
  | batch items => exact t.performs_batch items w
  | connection c =>
    show t.Performs _ w ((c.service t).serve c.peer c.inbound w).world
    by_cases hheard : c.IsHeard
    · rw [Connection.serve_of_isHeard hheard]
      obtain ⟨replies, -, hd⟩ := (c.service t).serveHttp_dialogue c.inbound.bytes w
      exact hd.performs.congr fun m ps => (and_iff_right hheard).symm
    · rw [Connection.world_serve_of_not_isHeard hheard]
      exact Table.performs_of_forall_not fun _ _ h => hheard h.1

end Entry

/-! ## Sessions -/

namespace Session

variable {σ : Type}

/-- A step of a session. -/
inductive Step where
  /-- Calls come in. -/
  | calls (e : Entry)
  /-- The commands are listed. -/
  | help (filter : String)
  /-- The text of the warnings is set. -/
  | warn (text : String)
  /-- Something is done to the choice of the network. -/
  | network (a : Chain.Step)
  /-- The node is asked to shut down. -/
  | requestShutdown

/-- The state after a step. -/
def Step.run (t : Table σ) : Step → World σ → World σ
  | calls e, w => e.run t w
  | help filter, w => (t.help filter w).2
  | warn text, w => { w with node := { w.node with warnings := w.node.warnings.set text } }
  | network a, w => { w with node := { w.node with registry := (a.run w.node.registry).2 } }
  | requestShutdown, w => { w with node := w.node.requestShutdown }

/-- The state after the first `k` steps, where `w` is the state before them. -/
def after (t : Table σ) (steps : List Step) (w : World σ) (k : Nat) : World σ :=
  (steps.take k).foldl (fun w a => a.run t w) w

variable {t : Table σ} {steps : List Step} {w : World σ} {k : Nat}

/-- A step leads from the state before it to the one after it. -/
theorem after_succ {a : Step} (h : steps[k]? = some a) :
    after t steps w (k + 1) = a.run t (after t steps w k) :=
  foldl_take_succ h w

/-- Past the end of the session nothing changes. -/
theorem after_succ_of_none (h : steps[k]? = none) :
    after t steps w (k + 1) = after t steps w k := by
  unfold after
  rw [take_succ_of_none h]

end Session

end RpcDaemon
