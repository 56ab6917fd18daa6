import RpcDaemon.Proofs.Command.Answer

/-!
# Ways to fail

A handler can fail with a text in several ways: it gives an error of no particular kind, it explains
its use, it breaks down, or it gives a chain of messages. All of them come to the same error, so one
way can stand for another wherever a command is run, and no outcome shows in the state. What was run
before shows in the log only. Main statement: `SameEffects.execute`.
-/

namespace RpcDaemon

/-! ## Failures -/

namespace Handler

/-- What a breakdown carries. -/
inductive Payload where
  /-- A text that stands in the program. -/
  | fixed (text : String)
  /-- A text that was made on the way. -/
  | made (text : String)
  /-- Anything else. -/
  | other
deriving DecidableEq

/-- The text that is carried, if it is one. -/
def Payload.text? : Payload → Option String
  | fixed text => some text
  | made text => some text
  | other => none

/-- A way for a handler to fail without saying which kind of failure it is. -/
inductive Failure where
  /-- It gives an error of no particular kind. -/
  | misc (text : String)
  /-- It explains how it is used. -/
  | usage (text : String)
  /-- It breaks down. -/
  | panic (p : Payload)
  /-- It gives a chain of messages. -/
  | chain (outermost : String) (causes : List String)
deriving DecidableEq

namespace Failure

/-- What comes of running the handler. -/
def outcome : Failure → Outcome
  | misc text => .error (Rpc.Error.misc text)
  | usage text => .usage text
  | panic p => .panic p.text?
  | chain outermost causes => .error (Rpc.Error.ofChain (outermost :: causes))

/-- The text that the handler fails with. -/
def text : Failure → String
  | misc text => text
  | usage text => text
  | panic p => p.text?.getD Table.unknownPanic
  | chain outermost _ => outermost

/-- **Every way to fail comes to the same**: an error of no particular kind with the text. -/
theorem result_outcome (f : Failure) : Table.result f.outcome = .error (Rpc.Error.misc f.text) := by
  cases f <;> rfl

end Failure

end Handler

/-- The outcomes are the same, or two ways to fail with one text. -/
def Outcome.Alike (o o' : Outcome) : Prop :=
  o' = o ∨ ∃ f f' : Handler.Failure, f'.text = f.text ∧ o = f.outcome ∧ o' = f'.outcome

/-- Alike outcomes come to the same. -/
theorem Outcome.Alike.result_eq {o o' : Outcome} (h : o.Alike o') :
    Table.result o' = Table.result o := by
  rcases h with rfl | ⟨f, f', htext, rfl, rfl⟩
  · rfl
  · rw [f.result_outcome, f'.result_outcome, htext]

/-! ## States with different pasts -/

/-- The states are the same, but for what was run before: that is `past` for the one and `past'` for
the other. -/
structure World.Abreast {σ : Type} (past past' : List Invocation) (w w' : World σ) : Prop where
  /-- The nodes are the same. -/
  node_eq : w'.node = w.node
  /-- The handlers' own states are the same. -/
  store_eq : w'.store = w.store
  /-- Since then the same handlers were run. -/
  calls_eq : ∃ new, w.calls = past ++ new ∧ w'.calls = past' ++ new

/-- The states are the same but for what was run before, and so are the answers where `cond` holds. -/
structure SameAnswer {σ α : Type} (cond : Prop) (past past' : List Invocation)
    (p p' : α × World σ) : Prop where
  /-- The answers are the same. -/
  answer_eq : cond → p'.1 = p.1
  /-- The states are the same but for what was run before. -/
  world : p.2.Abreast past past' p'.2

section

variable {σ α β : Type} {cond cond' : Prop} {past past' : List Invocation} {w w' : World σ}
  {p p' : α × World σ}

/-- States that were the same before and ran the same handlers since are the same. -/
theorem World.Abreast.eq (h : w.Abreast past past w') : w' = w := by
  obtain ⟨new, hcalls, hcalls'⟩ := h.calls_eq
  cases w with
  | mk node store calls =>
    cases w' with
    | mk node' store' calls' =>
      cases h.node_eq
      cases h.store_eq
      cases hcalls.trans hcalls'.symm
      rfl

theorem World.Abreast.of_eq (w : World σ) : w.Abreast [] [] w :=
  ⟨rfl, rfl, w.calls, rfl, rfl⟩

/-- States with one node and one state of the handlers differ in their logs only. -/
theorem World.abreast_calls (hnode : w'.node = w.node) (hstore : w'.store = w.store) :
    w.Abreast w.calls w'.calls w' :=
  ⟨hnode, hstore, [], (List.append_nil _).symm, (List.append_nil _).symm⟩

/-- What is made of the same answers is the same. -/
theorem SameAnswer.map (h : SameAnswer cond past past' p p') (f : α → β) :
    SameAnswer cond past past' (f p.1, p.2) (f p'.1, p'.2) :=
  ⟨fun hcond => congrArg f (h.answer_eq hcond), h.world⟩

theorem SameAnswer.weaken (h : SameAnswer cond past past' p p') (hcond : cond' → cond) :
    SameAnswer cond' past past' p p' :=
  ⟨fun h' => h.answer_eq (hcond h'), h.world⟩

/-- An answer that does not depend on the state is the same. -/
theorem SameAnswer.of_const (cond : Prop) (a : α) (hw : w.Abreast past past' w') :
    SameAnswer cond past past' (a, w) (a, w') :=
  ⟨fun _ => rfl, hw⟩

end

namespace Table

variable {σ : Type} {t t' : Table σ} {past past' : List Invocation} {w w' : World σ}

/-! ## Tables whose handlers do the same -/

/-- The tables have the same commands, and their handlers do the same to the node and to their own
state when they are run. What comes of them may differ, and so may what they say of themselves. -/
structure SameEffects (t t' : Table σ) : Prop where
  /-- The commands are the same. -/
  commands : t'.commands = t.commands
  /-- The handlers leave the same behind. -/
  left : ∀ i params n store,
    (t'.custom i params false n store).2 = (t.custom i params false n store).2

/-- The handler of the method comes to the same, or to failures with the same text. -/
def SameOutcomes (t t' : Table σ) (method : String) : Prop :=
  ∀ c i, t.lookup? method = some c → c.handler = .custom i → ∀ params n store,
    (t.custom i params false n store).1.Alike (t'.custom i params false n store).1

/-- The method is that of a command that lists the others. -/
def IsHelp (t : Table σ) (method : String) : Prop :=
  ∃ c, t.lookup? method = some c ∧ c.handler = .builtin .help

theorem SameEffects.refl (t : Table σ) : t.SameEffects t :=
  ⟨rfl, fun _ _ _ _ => rfl⟩

theorem SameOutcomes.refl (t : Table σ) (method : String) : t.SameOutcomes t method :=
  fun _ _ _ _ _ _ _ => Or.inl rfl

theorem SameEffects.lookup? (ht : t.SameEffects t') (method : String) :
    t'.lookup? method = t.lookup? method := by
  unfold Table.lookup?
  rw [ht.commands]

/-- A built-in handler other than the one for listings gives its answer, or explains its use to a call
with too many parameters. -/
theorem run_builtin (t : Table σ) {b : Builtin} (hb : b ≠ .help) (params : List Json)
    (w : World σ) :
    t.run (.builtin b) params w =
      if b.maxParams < params.length then
        (.usage b.usage, { w with calls := w.calls ++ [⟨.builtin b, params, false⟩] })
      else
        ((b.answer w.node).1,
          ⟨(b.answer w.node).2, w.store, w.calls ++ [⟨.builtin b, params, false⟩]⟩) := by
  cases b with
  | help => exact absurd rfl hb
  | _ => rfl

/-- A handler other than the one for listings leaves the same, and comes to the same if it is not one
whose outcome differs. -/
theorem SameEffects.run (ht : t.SameEffects t') {h : HandlerId} (hh : h ≠ .builtin .help)
    (hw : w.Abreast past past' w') (params : List Json) :
    ((∀ i, h = .custom i → (t.custom i params false w.node w.store).1.Alike
        (t'.custom i params false w.node w.store).1) →
      (t.run h params w).1.Alike (t'.run h params w').1) ∧
      (t.run h params w).2.Abreast past past' (t'.run h params w').2 := by
  obtain ⟨new, hcalls, hcalls'⟩ := hw.calls_eq
  have hlog : ∃ new, w.calls ++ [⟨h, params, false⟩] = past ++ new ∧
      w'.calls ++ [⟨h, params, false⟩] = past' ++ new :=
    ⟨new ++ [⟨h, params, false⟩], by rw [hcalls, List.append_assoc],
      by rw [hcalls', List.append_assoc]⟩
  cases h with
  | custom i =>
    have hleft := ht.left i params w.node w.store
    unfold Table.run
    dsimp only
    rw [hw.node_eq, hw.store_eq]
    exact ⟨fun houtcome => houtcome i rfl, congrArg Prod.fst hleft, congrArg Prod.snd hleft, hlog⟩
  | builtin b =>
    have hb : b ≠ .help := fun heq => hh (heq ▸ rfl)
    rw [t.run_builtin hb, t'.run_builtin hb, hw.node_eq]
    split
    · exact ⟨fun _ => Or.inl rfl, rfl, hw.store_eq, hlog⟩
    · exact ⟨fun _ => Or.inl rfl, rfl, hw.store_eq, hlog⟩

/-- **A call** that asks for no listing leaves the same, and comes to the same if its handler does. -/
theorem SameEffects.execute (ht : t.SameEffects t') {method : String} (hm : ¬ t.IsHelp method)
    (hw : w.Abreast past past' w') (params : List Json) :
    SameAnswer (t.SameOutcomes t' method) past past' (t.execute method params w)
      (t'.execute method params w') := by
  unfold Table.execute
  rw [ht.lookup?]
  cases hc : t.lookup? method with
  | none => exact .of_const _ _ hw
  | some c =>
    dsimp only
    have hrefusal : refusal? c w'.node = refusal? c w.node := by rw [hw.node_eq]
    rw [hrefusal]
    cases refusal? c w.node with
    | some e => exact .of_const _ _ hw
    | none =>
      obtain ⟨houtcome, hleft⟩ := ht.run (fun hh => hm ⟨c, hc, hh⟩) hw params
      refine ⟨fun hsame => ?_, hleft⟩
      exact (houtcome fun i hi => hsame c i hc hi params w.node w.store).result_eq

/-! ## Values and batches -/

/-- A well-formed call leaves the same, and gets the same response if its handler comes to the same.
-/
theorem SameEffects.executeRequest (ht : t.SameEffects t') {r : Rpc.Request}
    (hr : ¬ t.IsHelp r.method) (hw : w.Abreast past past' w') :
    SameAnswer (t.SameOutcomes t' r.method) past past' (t.executeRequest r w)
      (t'.executeRequest r w') :=
  (ht.execute hr hw r.params).map fun res => Rpc.Response.ofResult res r.id

/-- A value leaves the same, and gets the same response if the handler of the call that it may be
comes to the same. -/
theorem SameEffects.executeValue (ht : t.SameEffects t') {v : Json}
    (hv : ∀ method params, Rpc.Request.Calls v method params → ¬ t.IsHelp method)
    (hw : w.Abreast past past' w') :
    SameAnswer (∀ method params, Rpc.Request.Calls v method params → t.SameOutcomes t' method)
      past past' (t.executeValue v w) (t'.executeValue v w') := by
  rcases Rpc.Request.refused_or_calls v with ⟨message, hr⟩ | ⟨method, params, hc⟩
  · rw [executeValue_of_refused t w hr, executeValue_of_refused t' w' hr]
    exact .of_const _ _ hw
  · rw [executeValue_of_calls t w hc, executeValue_of_calls t' w' hc]
    have hexecute := ht.execute (hv method params hc) hw params
    exact (hexecute.map fun res => Rpc.Response.ofResult res (Rpc.Request.idOf v)).weaken
      fun hsame => hsame method params hc

/-- **A batch** leaves the same, and gets the same responses if the handlers of its calls come to the
same. -/
theorem SameEffects.executeBatch (ht : t.SameEffects t') {items : List Json}
    (hitems : ∀ v ∈ items, ∀ method params, Rpc.Request.Calls v method params →
      ¬ t.IsHelp method)
    (hw : w.Abreast past past' w') :
    SameAnswer (∀ v ∈ items, ∀ method params, Rpc.Request.Calls v method params →
        t.SameOutcomes t' method)
      past past' (t.executeBatch items w) (t'.executeBatch items w') := by
  induction items generalizing w w' with
  | nil => exact .of_const _ _ hw
  | cons v rest ih =>
    have hfirst := ht.executeValue (hitems v List.mem_cons_self) hw
    have hrest := ih (fun u hu => hitems u (List.mem_cons_of_mem v hu)) hfirst.world
    refine ⟨fun hsame => ?_, hrest.world⟩
    show (t'.executeValue v w').1 :: (t'.executeBatch rest (t'.executeValue v w').2).1 =
      (t.executeValue v w).1 :: (t.executeBatch rest (t.executeValue v w).2).1
    rw [hfirst.answer_eq (hsame v List.mem_cons_self),
      hrest.answer_eq fun u hu => hsame u (List.mem_cons_of_mem v hu)]

end Table

end RpcDaemon
