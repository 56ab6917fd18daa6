import RpcDaemon.Proofs.Command.Failure
import RpcDaemon.Proofs.Command.Policy
import RpcDaemon.Proofs.Service.Session

/-!
# Failing calls in a session

However a handler fails, the caller gets one error for it, and the rest of the session goes on as if
nothing had happened: the state is the one that the handler left, the locks are free again, and what
came of the handler shows in no reply but its own. A call that changes nothing can be left out of the
session, or out of a batch, and the other replies stay. Main statement:
`Session.failures_disturb_nothing`.
-/

namespace RpcDaemon

open Rpc (Request)

variable {σ : Type} {t t' : Table σ} {past past' : List Invocation} {w w' : World σ}

/-! ## Bodies and connections -/

namespace Table

/-- **A body** leaves the same, and gets the same reply if the handlers of its calls come to the same.
-/
theorem SameEffects.answerBody (ht : t.SameEffects t') {body : List UInt8}
    (hbody : ∀ method params, Body.Makes body method params → ¬ t.IsHelp method)
    (hw : w.Abreast past past' w') :
    SameAnswer (∀ method params, Body.Makes body method params → t.SameOutcomes t' method)
      past past' (t.answerBody body w) (t'.answerBody body w') := by
  unfold Table.answerBody
  cases hv : Json.readBytes? body with
  | none => exact .of_const _ _ hw
  | some v =>
    cases v with
    | array items =>
      have hbatch := ht.executeBatch (fun v hmem m ps hc => hbody m ps (.item hv hmem hc)) hw
      exact (hbatch.map fun rs => BodyReply.answered (batchBody rs)).weaken
        fun hsame v hmem m ps hc => hsame m ps (.item hv hmem hc)
    | object ms =>
      show SameAnswer _ past past' (t.answerValue (.object ms) w) (t'.answerValue (.object ms) w')
      unfold Table.answerValue
      cases hr : Request.ofJson (.object ms) with
      | error f => exact .of_const _ _ hw
      | ok r =>
        have hmakes : Body.Makes body r.method r.params := .alone hv (Request.calls_of_ofJson hr)
        have hrequest := ht.executeRequest (hbody r.method r.params hmakes) hw
        exact (hrequest.map fun res => BodyReply.answered res.body).weaken
          fun hsame => hsame r.method r.params hmakes
    | null => exact .of_const _ _ hw
    | bool b => exact .of_const _ _ hw
    | number n => exact .of_const _ _ hw
    | string s => exact .of_const _ _ hw

end Table

/-- What was sent, after which delay, and the state afterwards. -/
def Served.answer (served : Served σ) : (List Sent × Nat) × World σ :=
  ((served.sent, served.delay), served.world)

theorem Served.answer_one (r : Http.Reply) (w : World σ) :
    (Served.one r w).answer = (([.reply r], 0), w) := rfl

theorem Served.answer_after (r : Http.Reply) (served : Served σ) :
    (served.after r).answer = ((.reply r :: served.answer.1.1, served.answer.1.2),
      served.answer.2) := rfl

namespace Service

/-- **A stream** is served with the same effects, and with the same replies if the handlers of the
calls that are executed come to the same. -/
theorem serveHttp_of_sameEffects {s : Service σ} (ht : s.table.SameEffects t') {bytes : List UInt8}
    (hbytes : ∀ r, Executed s.credentials s.maxBody bytes r → ∀ method params,
      Body.Makes r.body method params → ¬ s.table.IsHelp method)
    (hw : w.Abreast past past' w') :
    SameAnswer (∀ r, Executed s.credentials s.maxBody bytes r → ∀ method params,
        Body.Makes r.body method params → s.table.SameOutcomes t' method)
      past past' (s.serveHttp bytes w).answer
      (Service.serveHttp { s with table := t' } bytes w').answer := by
  -- The stream gets shorter with every request, so the induction is on its length.
  induction hn : bytes.length using Nat.strongRecOn generalizing bytes w w' with
  | ind n ih =>
    cases hr : Http.readRequest s.maxBody bytes with
    | error e =>
      rw [serveHttp_of_error s hr w, serveHttp_of_error { s with table := t' } hr w']
      exact .of_const _ _ hw
    | ok p =>
      obtain ⟨r, rest⟩ := p
      cases hj : s.rejection? r with
      | some why =>
        rw [serveHttp_of_rejection s hr hj w, serveHttp_of_rejection { s with table := t' } hr hj w']
        exact .of_const _ _ hw
      | none =>
        have hadmits := (rejection?_eq_none_iff s r).mp hj
        have hfirst := Executed.first hr hadmits
        have hanswer : SameAnswer _ past past' (s.answer r w)
            (Service.answer { s with table := t' } r w') :=
          (ht.answerBody (hbytes r hfirst) hw).map fun reply =>
            Http.Reply.of reply.status reply.body (r.keepAlive && !reply.close)
        rw [serveHttp_of_answer s hr hj w, serveHttp_of_answer { s with table := t' } hr hj w']
        -- Whether the connection stays open is decided by the request alone.
        by_cases hopen : r.keepAlive = true ∧ Body.Accepted r.body
        · have hlt : rest.length < n := hn ▸ Http.length_lt_of_readRequest hr
          have hlater := fun q => Executed.later (q := q) hr hadmits hopen.1 hopen.2
          have hrest := ih rest.length hlt (fun q hq => hbytes q (hlater q hq)) hanswer.world rfl
          rw [if_pos ((keepAlive_answer_iff s r w).mpr hopen),
            if_pos ((keepAlive_answer_iff { s with table := t' } r w').mpr hopen),
            Served.answer_after, Served.answer_after]
          refine ⟨fun hsame => ?_, hrest.world⟩
          dsimp only
          rw [hanswer.answer_eq (hsame r hfirst),
            hrest.answer_eq fun q hq => hsame q (hlater q hq)]
        · rw [if_neg (mt (keepAlive_answer_iff s r w).mp hopen),
            if_neg (mt (keepAlive_answer_iff { s with table := t' } r w').mp hopen),
            Served.answer_one, Served.answer_one]
          refine ⟨fun hsame => ?_, hanswer.world⟩
          dsimp only
          rw [hanswer.answer_eq (hsame r hfirst)]

end Service

/-! ## Replies in a session -/

namespace Session

/-- What is given back to a step. -/
inductive Reply where
  /-- What running a command comes to. -/
  | outcome (res : Except Rpc.Error Json)
  /-- Responses to values. -/
  | responses (rs : List Rpc.Response)
  /-- What is sent on a connection, and how long a failed login is slowed down. -/
  | sent (sent : List Sent) (delay : Nat)
  /-- A listing of the commands, or the text of a breakdown. -/
  | listing (text : Except (Option String) String)
  /-- What comes of a choice of the network. -/
  | network (chosen : Except Chain.SelectError (Option Chain.Network))
  /-- Nothing. -/
  | nothing

end Session

namespace Entry

/-- What is given back to the calls, and the state afterwards. -/
def answer (t : Table σ) : Entry → World σ → Session.Reply × World σ
  | execute method params, w =>
      (.outcome (t.execute method params w).1, (t.execute method params w).2)
  | request r, w => (.responses [(t.executeRequest r w).1], (t.executeRequest r w).2)
  | value v, w => (.responses [(t.executeValue v w).1], (t.executeValue v w).2)
  | batch items, w => (.responses (t.executeBatch items w).1, (t.executeBatch items w).2)
  | connection c, w =>
      let served := (c.service t).serve c.peer c.inbound w
      (.sent served.sent served.delay, served.world)

@[simp] theorem answer_snd (e : Entry) (t : Table σ) (w : World σ) :
    (e.answer t w).2 = e.run t w := by
  cases e <;> rfl

/-- **However calls come in**, they leave the same, and get the same replies if their handlers come to
the same. -/
theorem answer_of_sameEffects (ht : t.SameEffects t') {e : Entry}
    (he : ∀ method params, e.Makes method params → ¬ t.IsHelp method)
    (hw : w.Abreast past past' w') :
    SameAnswer (∀ method params, e.Makes method params → t.SameOutcomes t' method)
      past past' (e.answer t w) (e.answer t' w') := by
  cases e with
  | execute method params =>
    have hexecute := ht.execute (he method params ⟨rfl, rfl⟩) hw params
    exact (hexecute.map Session.Reply.outcome).weaken fun hsame => hsame method params ⟨rfl, rfl⟩
  | request r =>
    have hrequest := ht.executeRequest (he r.method r.params ⟨rfl, rfl⟩) hw
    exact (hrequest.map fun res => Session.Reply.responses [res]).weaken
      fun hsame => hsame r.method r.params ⟨rfl, rfl⟩
  | value v => exact (ht.executeValue he hw).map fun res => Session.Reply.responses [res]
  | batch items =>
    have hbatch := ht.executeBatch (fun v hv m ps hc => he m ps ⟨v, hv, hc⟩) hw
    exact (hbatch.map Session.Reply.responses).weaken
      fun hsame v hv m ps hc => hsame m ps ⟨v, hv, hc⟩
  | connection c =>
    suffices hserve : SameAnswer _ past past' ((c.service t).serve c.peer c.inbound w).answer
        ((c.service t').serve c.peer c.inbound w').answer from
      hserve.map fun p => Session.Reply.sent p.1 p.2
    by_cases hheard : c.IsHeard
    · rw [Connection.serve_of_isHeard hheard, Connection.serve_of_isHeard hheard]
      have hstream := Service.serveHttp_of_sameEffects (s := c.service t) ht
        (fun r hr m ps hm => he m ps ⟨hheard, r, hr, hm⟩) hw
      exact hstream.weaken fun hsame r hr m ps hm => hsame m ps ⟨hheard, r, hr, hm⟩
    · obtain ⟨sent, delay, hserve⟩ := Connection.serve_of_not_isHeard hheard
      rw [hserve, hserve]
      exact .of_const _ _ hw

end Entry

namespace Session

/-- What is given back to a step, and the state afterwards. -/
def Step.answer (t : Table σ) : Step → World σ → Reply × World σ
  | calls e, w => e.answer t w
  | help filter, w => (.listing (t.help filter w).1, (t.help filter w).2)
  | warn text, w => (.nothing, (warn text).run t w)
  | network a, w => (.network (a.run w.node.registry).1, (network a).run t w)
  | requestShutdown, w => (.nothing, requestShutdown.run t w)

@[simp] theorem Step.answer_snd (a : Step) (t : Table σ) (w : World σ) :
    (a.answer t w).2 = a.run t w := by
  cases a with
  | calls e => exact e.answer_snd t w
  | help filter => rfl
  | warn text => rfl
  | network a => rfl
  | requestShutdown => rfl

/-- The step makes the call of the method with the parameters. -/
def Step.Makes : Step → String → List Json → Prop
  | calls e => e.Makes
  | _ => fun _ _ => False

/-- The step asks for a listing of the commands, be it by a call. -/
def Step.AsksHelp (t : Table σ) : Step → Prop
  | calls e => ∃ method params, e.Makes method params ∧ t.IsHelp method
  | help _ => True
  | _ => False

/-- **A step** leaves the same, and gets the same reply if the handlers of its calls come to the same.
-/
theorem Step.answer_of_sameEffects (ht : t.SameEffects t') {a : Step} (ha : ¬ a.AsksHelp t)
    (hw : w.Abreast past past' w') :
    SameAnswer (∀ method params, a.Makes method params → t.SameOutcomes t' method)
      past past' (a.answer t w) (a.answer t' w') := by
  cases a with
  | calls e =>
    exact e.answer_of_sameEffects ht (fun m ps hmakes hhelp => ha ⟨m, ps, hmakes, hhelp⟩) hw
  | help filter => exact absurd trivial ha
  | warn text =>
    refine ⟨fun _ => rfl, ?_, hw.store_eq, hw.calls_eq⟩
    show { w'.node with warnings := w'.node.warnings.set text } = _
    rw [hw.node_eq]
    rfl
  | network a =>
    refine ⟨fun _ => ?_, ?_, hw.store_eq, hw.calls_eq⟩
    · show Reply.network (a.run w'.node.registry).1 = _
      rw [hw.node_eq]
      rfl
    · show { w'.node with registry := (a.run w'.node.registry).2 } = _
      rw [hw.node_eq]
      rfl
  | requestShutdown =>
    exact ⟨fun _ => rfl, congrArg Node.requestShutdown hw.node_eq, hw.store_eq, hw.calls_eq⟩

/-- The replies to the steps of a session, and the state at its end. -/
def play (t : Table σ) : List Step → World σ → List Reply × World σ
  | [], w => ([], w)
  | a :: rest, w =>
      ((a.answer t w).1 :: (play t rest (a.run t w)).1, (play t rest (a.run t w)).2)

@[simp] theorem length_play (t : Table σ) (steps : List Step) (w : World σ) :
    (play t steps w).1.length = steps.length := by
  induction steps generalizing w with
  | nil => rfl
  | cons a rest ih => rw [play, List.length_cons, List.length_cons, ih]

/-- The later steps of a session start in the state that the earlier ones leave. -/
theorem play_append (t : Table σ) (before later : List Step) (w : World σ) :
    play t (before ++ later) w =
      ((play t before w).1 ++ (play t later (play t before w).2).1,
        (play t later (play t before w).2).2) := by
  induction before generalizing w with
  | nil => rfl
  | cons a rest ih =>
    rw [List.cons_append, play, play, ih]
    rfl

/-- The state at a moment is the one at the end of the steps before it. -/
theorem after_eq_play (t : Table σ) (steps : List Step) (w : World σ) (k : Nat) :
    after t steps w k = (play t (steps.take k) w).2 := by
  unfold after
  generalize steps.take k = before
  induction before generalizing w with
  | nil => rfl
  | cons a rest ih => exact ih _

/-- **A session** without listings leads to the same states but for what was run before it, and a step
of it gets the same reply if the handlers of its calls come to the same. -/
theorem play_of_sameEffects (ht : t.SameEffects t') {steps : List Step}
    (hsteps : ∀ a ∈ steps, ¬ a.AsksHelp t) (hw : w.Abreast past past' w') :
    (∀ (k : Nat) (a : Step), steps[k]? = some a →
        (∀ method params, a.Makes method params → t.SameOutcomes t' method) →
        (play t' steps w').1[k]? = (play t steps w).1[k]?) ∧
      (play t steps w).2.Abreast past past' (play t' steps w').2 := by
  induction steps generalizing w w' with
  | nil => exact ⟨fun _ _ _ _ => rfl, hw⟩
  | cons b rest ih =>
    have hfirst := b.answer_of_sameEffects ht (hsteps b List.mem_cons_self) hw
    have hworld : (b.run t w).Abreast past past' (b.run t' w') := by
      rw [← b.answer_snd, ← b.answer_snd]
      exact hfirst.world
    obtain ⟨hreplies, hend⟩ := ih (fun a ha => hsteps a (List.mem_cons_of_mem b ha)) hworld
    refine ⟨fun k a hk hsame => ?_, hend⟩
    cases k with
    | zero =>
      cases hk
      exact congrArg some (hfirst.answer_eq hsame)
    | succ k => exact hreplies k a hk hsame

/-- Where all handlers come to the same, all replies are the same. -/
theorem play_fst_of_sameOutcomes (ht : t.SameEffects t')
    (hsame : ∀ method, t.SameOutcomes t' method) {steps : List Step}
    (hsteps : ∀ a ∈ steps, ¬ a.AsksHelp t) (hw : w.Abreast past past' w') :
    (play t' steps w').1 = (play t steps w).1 := by
  refine List.ext_getElem? fun k => ?_
  cases hk : steps[k]? with
  | some a => exact (play_of_sameEffects ht hsteps hw).1 k a hk fun method _ _ => hsame method
  | none =>
    have hlength := List.getElem?_eq_none_iff.mp hk
    rw [List.getElem?_eq_none (by rwa [length_play]), List.getElem?_eq_none (by rwa [length_play])]

/-- A step that leaves node and store as they are can be left out of a session: the replies to the
other steps stay, and so does the state at the end but for the log. -/
theorem play_without (t : Table σ) (before : List Step) (a : Step) {later : List Step} (w : World σ)
    (hlater : ∀ b ∈ later, ¬ b.AsksHelp t)
    (hnode : (a.run t (play t before w).2).node = (play t before w).2.node)
    (hstore : (a.run t (play t before w).2).store = (play t before w).2.store) :
    ∃ replies replies', replies.length = before.length ∧
      (play t (before ++ later) w).1 = replies ++ replies' ∧
      (play t (before ++ a :: later) w).1 =
        replies ++ (a.answer t (play t before w).2).1 :: replies' ∧
      (play t (before ++ a :: later) w).2.node = (play t (before ++ later) w).2.node ∧
      (play t (before ++ a :: later) w).2.store = (play t (before ++ later) w).2.store := by
  have hw := World.abreast_calls hnode hstore
  have hend := (play_of_sameEffects (.refl t) hlater hw).2
  have hreplies := play_fst_of_sameOutcomes (.refl t) (.refl t) hlater hw
  rw [play_append, play_append, play]
  exact ⟨_, _, length_play t before w, rfl, by rw [hreplies], hend.node_eq, hend.store_eq⟩

end Session

namespace Table

/-- **An item of a batch** gets the same response if the handler of its call comes to the same,
whatever comes of the others. -/
theorem SameEffects.getElem?_executeBatch (ht : t.SameEffects t') {items : List Json}
    (hitems : ∀ u ∈ items, ∀ method params, Request.Calls u method params → ¬ t.IsHelp method)
    (hw : w.Abreast past past' w') {i : Nat} {v : Json} (hv : items[i]? = some v)
    (hsame : ∀ method params, Request.Calls v method params → t.SameOutcomes t' method) :
    (t'.executeBatch items w').1[i]? = (t.executeBatch items w).1[i]? := by
  have htaken : ∀ u ∈ items.take i, ∀ method params, Request.Calls u method params →
      ¬ t.IsHelp method :=
    fun u hu => hitems u (List.mem_of_mem_take hu)
  have hbefore := (ht.executeBatch htaken hw).world
  rw [executeBatch_snd, executeBatch_snd] at hbefore
  have hitem := ht.executeValue (hitems v (List.mem_of_getElem? hv)) hbefore
  rw [t.getElem?_executeBatch, t'.getElem?_executeBatch, hv, Option.map_some, Option.map_some,
    hitem.answer_eq hsame]

/-- An item that leaves node and store as they are can be left out of a batch: the responses to the
other items stay, and so does the state at the end but for the log. -/
theorem executeBatch_without (t : Table σ) (before : List Json) (v : Json) {later : List Json}
    (w : World σ)
    (hlater : ∀ u ∈ later, ∀ method params, Request.Calls u method params → ¬ t.IsHelp method)
    (hnode : (t.executeValue v (t.afterAll before w)).2.node = (t.afterAll before w).node)
    (hstore : (t.executeValue v (t.afterAll before w)).2.store = (t.afterAll before w).store) :
    ∃ rs rs', rs.length = before.length ∧
      (t.executeBatch (before ++ later) w).1 = rs ++ rs' ∧
      (t.executeBatch (before ++ v :: later) w).1 =
        rs ++ (t.executeValue v (t.afterAll before w)).1 :: rs' ∧
      (t.executeBatch (before ++ v :: later) w).2.node =
        (t.executeBatch (before ++ later) w).2.node ∧
      (t.executeBatch (before ++ v :: later) w).2.store =
        (t.executeBatch (before ++ later) w).2.store := by
  have hrest := (SameEffects.refl t).executeBatch hlater (World.abreast_calls hnode hstore)
  have hreplies := hrest.answer_eq fun _ _ method _ _ => .refl t method
  rw [executeBatch_append, executeBatch_append, executeBatch_cons, executeBatch_snd t before w]
  exact ⟨_, _, t.length_executeBatch before w, rfl, by rw [hreplies], hrest.world.node_eq,
    hrest.world.store_eq⟩

/-! ## Calls in a row under locks -/

/-- The state and the locks after calls were run in turn, each within the scope of its locks. -/
def afterCallsLocked (t : Table σ) : List (String × List Json) → World σ → Locks →
    Option (World σ × Locks)
  | [], w, l => some (w, l)
  | c :: rest, w, l =>
      match t.executeLocked c.1 c.2 w l with
      | none => none
      | some ((_, w), l) => t.afterCallsLocked rest w l

/-- **Calls in a row wait for no lock** if the locks are free at first, whatever the handlers do. -/
theorem afterCallsLocked_of_free (t : Table σ) (calls : List (String × List Json)) (w : World σ)
    {l : Locks} (hl : l.Free true) :
    t.afterCallsLocked calls w l = some (t.afterCalls calls w, l) := by
  have hfree : ∀ hasWallet, l.Free hasWallet := fun _ => ⟨hl.1, fun _ => hl.2 rfl⟩
  induction calls generalizing w with
  | nil => rfl
  | cons c rest ih =>
    rw [afterCallsLocked, t.executeLocked_of_free c.1 c.2 w (hfree _)]
    exact ih _

/-! ## Failing handlers -/

/-- What a handler leaves behind, whatever comes of it. -/
def leftBy (t : Table σ) (i : Nat) (params : List Json) (w : World σ) : World σ :=
  ⟨(t.custom i params false w.node w.store).2.1, (t.custom i params false w.node w.store).2.2,
    w.calls ++ [⟨.custom i, params, false⟩]⟩

/-- A handler that the table brings along comes to the result of its outcome, and the state is what
it leaves behind. -/
theorem execute_custom {method : String} {c : Command} {i : Nat} (h : t.Admits method w c)
    (hi : c.handler = .custom i) (params : List Json) :
    t.execute method params w =
      (result (t.custom i params false w.node w.store).1, t.leftBy i params w) := by
  rw [execute_of_admits t h, hi, run_custom]
  rfl

end Table

namespace Session

/-- **Failures disturb nothing.** Take a call whose handler is one that the table brings along.
However it fails with a text, be it by an error of no particular kind, by explaining its use, by a
breakdown or by a chain of messages, the call comes to the error −1 with this text and no data, and a
breakdown without a text counts as one with `unknown exception`; an error of another kind keeps its
code, message and data. In each case the state is the one that the handler left.

Take another table whose handlers do the same, but may come to something else. At every moment of
every session that asks for no listing the state is the same, and a step, or an item of a batch, gets
the same reply if the handlers of its calls come to the same, or fail with the same text in whatever
way. So if all handlers do, the sessions are the same.

A step that changes nothing, such as a call that fails before it does anything, can be left out of a
session, and an item out of a batch, and the other replies stay. Calls that come in are run under
locks without waiting, and the locks are as free as before. -/
theorem failures_disturb_nothing (t : Table σ) :
    (∀ method w c i params, t.Admits method w c → c.handler = .custom i →
      let outcome := (t.custom i params false w.node w.store).1
      (∀ f : Handler.Failure, outcome = f.outcome → ∃ e : Rpc.Error,
        t.execute method params w = (.error e, t.leftBy i params w) ∧
          e.code.number = -1 ∧ e.message = f.text ∧ e.data = none) ∧
        ∀ e, outcome = .error e →
          t.execute method params w = (.error e, t.leftBy i params w)) ∧
      (Handler.Failure.panic .other).text = "unknown exception" ∧
      (∀ t', t.SameEffects t' → ∀ steps, (∀ a ∈ steps, ¬ a.AsksHelp t) → ∀ w,
        (∀ k, after t' steps w k = after t steps w k) ∧
          (∀ (k : Nat) (a : Step), steps[k]? = some a →
            (∀ method params, a.Makes method params → t.SameOutcomes t' method) →
            (play t' steps w).1[k]? = (play t steps w).1[k]?) ∧
          ((∀ method, t.SameOutcomes t' method) → play t' steps w = play t steps w)) ∧
      (∀ t', t.SameEffects t' → ∀ items w,
        (∀ u ∈ items, ∀ method params, Request.Calls u method params → ¬ t.IsHelp method) →
        ∀ (i : Nat) v, items[i]? = some v →
          (∀ method params, Request.Calls v method params → t.SameOutcomes t' method) →
          (t'.executeBatch items w).1[i]? = (t.executeBatch items w).1[i]?) ∧
      (∀ before a later w, (∀ b ∈ later, ¬ b.AsksHelp t) →
        let w₁ := (play t before w).2
        (a.run t w₁).node = w₁.node → (a.run t w₁).store = w₁.store →
          ∃ replies replies', replies.length = before.length ∧
            (play t (before ++ later) w).1 = replies ++ replies' ∧
            (play t (before ++ a :: later) w).1 =
              replies ++ (a.answer t w₁).1 :: replies' ∧
            (play t (before ++ a :: later) w).2.node = (play t (before ++ later) w).2.node ∧
            (play t (before ++ a :: later) w).2.store = (play t (before ++ later) w).2.store) ∧
      (∀ before v later w,
        (∀ u ∈ later, ∀ method params, Request.Calls u method params → ¬ t.IsHelp method) →
        let w₁ := t.afterAll before w
        (t.executeValue v w₁).2.node = w₁.node → (t.executeValue v w₁).2.store = w₁.store →
          ∃ rs rs', rs.length = before.length ∧
            (t.executeBatch (before ++ later) w).1 = rs ++ rs' ∧
            (t.executeBatch (before ++ v :: later) w).1 =
              rs ++ (t.executeValue v w₁).1 :: rs' ∧
            (t.executeBatch (before ++ v :: later) w).2.node =
              (t.executeBatch (before ++ later) w).2.node ∧
            (t.executeBatch (before ++ v :: later) w).2.store =
              (t.executeBatch (before ++ later) w).2.store) ∧
      ∀ (e : Entry) w (l : Locks), l.Free true →
        ∃ calls, (∀ method params, (method, params) ∈ calls ↔ e.Makes method params) ∧
          t.afterCallsLocked calls w l = some (e.run t w, l) := by
  refine ⟨?_, rfl, ?_, ?_, ?_, ?_, ?_⟩
  · intro method w c i params hc hi outcome
    have hexecute := Table.execute_custom hc hi params
    refine ⟨?_, ?_⟩
    · intro f hf
      refine ⟨Rpc.Error.misc f.text, ?_, rfl, rfl, rfl⟩
      rw [hexecute, show (t.custom i params false w.node w.store).1 = f.outcome from hf,
        f.result_outcome]
    · intro e he
      rw [hexecute, show (t.custom i params false w.node w.store).1 = .error e from he]
      rfl
  · intro t' ht steps hsteps w
    obtain ⟨hreplies, hend⟩ := play_of_sameEffects ht hsteps (.of_eq w)
    refine ⟨fun k => ?_, hreplies, fun hsame => ?_⟩
    · have hfirst : ∀ a ∈ steps.take k, ¬ a.AsksHelp t := fun a ha =>
        hsteps a (List.mem_of_mem_take ha)
      rw [after_eq_play, after_eq_play]
      exact (play_of_sameEffects ht hfirst (.of_eq w)).2.eq
    · exact Prod.ext (play_fst_of_sameOutcomes ht hsame hsteps (.of_eq w)) hend.eq
  · intro t' ht items w hitems i v hv hsame
    exact ht.getElem?_executeBatch hitems (.of_eq w) hv hsame
  · intro before a later w hlater w₁ hnode hstore
    exact play_without t before a w hlater hnode hstore
  · intro before v later w hlater w₁ hnode hstore
    exact t.executeBatch_without before v w hlater hnode hstore
  · intro e w l hl
    obtain ⟨calls, hrun, hcalls⟩ := e.performs t w
    refine ⟨calls, hcalls, ?_⟩
    rw [hrun]
    exact t.afterCallsLocked_of_free calls w hl

/-- A breakdown and an explanation of use, alone and between two calls of a batch. -/
example :
    let t (o : Outcome) : Table Nat :=
      ⟨[("boom", ⟨⟨true, false, false⟩, .custom 0⟩), ("count", ⟨⟨true, false, false⟩, .custom 1⟩)],
        fun i _ _ n k => if i = 0 then (o, n, k) else (.value (.string (decimal k)), n, k + 1)⟩
    let boom : Json := .object [("method", .string "boom")]
    let count : Json := .object [("method", .string "count")]
    let steps : List Step := [.calls (.execute "boom" []), .calls (.batch [count, boom, count])]
    let replies : List Reply := [.outcome (.error ⟨.miscError, "x", none⟩),
      .responses [⟨.string "0", none, .null⟩, ⟨.null, some ⟨-1, "x", none⟩, .null⟩,
        ⟨.string "1", none, .null⟩]]
    (play (t (.panic (some "x"))) steps ⟨.fresh .initial, 0, []⟩).1 = replies ∧
      (play (t (.usage "x")) steps ⟨.fresh .initial, 0, []⟩).1 = replies := by
  exact ⟨rfl, rfl⟩

end Session

end RpcDaemon
