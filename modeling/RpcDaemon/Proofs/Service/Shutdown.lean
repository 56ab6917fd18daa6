import RpcDaemon.Proofs.Service.Session

/-!
# Shutting down

The node is asked to shut down by the command to stop, or from outside; nothing else asks for it,
and nothing takes it back. Handlers that the table brings along are taken to leave that alone. Main
statement: `shutdown_only_on_request`.
-/

namespace RpcDaemon

open Rpc (Request)

variable {σ : Type}

namespace Table

/-- The handlers leave alone whether the node has been asked to shut down. -/
def KeepsShutdown (custom : Nat → Handler σ) : Prop :=
  ∀ i params describe n store, (custom i params describe n store).2.1.shutdown = n.shutdown

variable {t : Table σ} {custom : Nat → Handler σ}

/-- Nothing but the command to stop asks the node to shut down. -/
theorem Extends.respects_shutdown {allowed : HandlerId → Prop} (ht : t.Extends allowed custom)
    (hcustom : KeepsShutdown custom) : t.Respects fun n n' => n'.shutdown = n.shutdown where
  refl _ := rfl
  trans hab hbc := hbc.trans hab
  custom := by
    rw [ht.custom_eq]
    exact hcustom

/-- **A call asks the node to shut down** if it is one of `stop` that does not explain its use. -/
theorem shutdown_execute_iff (ht : t.Extends (· ≠ .builtin .stop) custom)
    (hcustom : KeepsShutdown custom) (method : String) (params : List Json) (w : World σ) :
    (t.execute method params w).2.node.shutdown = true ↔
      w.node.shutdown = true ∨ (method = "stop" ∧ params.length ≤ 1) := by
  have hR := ht.respects_shutdown hcustom
  by_cases hstop : method = "stop" ∧ params.length ≤ 1
  · obtain ⟨rfl, hparams⟩ := hstop
    have hadmits : t.Admits "stop" w ⟨Builtin.stop.flags, .builtin .stop⟩ :=
      ⟨ht.lookup?_builtin .stop, refusal?_builtin .stop w.node⟩
    rw [execute_of_admits t hadmits]
    dsimp only
    rw [run_of_stops ⟨rfl, hparams⟩]
    simp [Node.requestShutdown, hparams]
  · -- Under any other name there is a built-in command that is another one, or a further command,
    -- which has another handler.
    have hnot : ∀ c, t.lookup? method = some c → ¬ Stops c.handler params := by
      rintro c hc ⟨hhandler, hparams⟩
      rcases ht.lookup?_cases hc with ⟨b, rfl, rfl⟩ | hallowed
      · cases hhandler
        exact hstop ⟨rfl, hparams⟩
      · exact hallowed hhandler
    rw [hR.execute hnot w, or_iff_left hstop]

/-- Calls that are run in turn ask the node to shut down if one of them does. -/
theorem Performs.shutdown_iff {made : String → List Json → Prop} {w w' : World σ}
    (h : t.Performs made w w') (ht : t.Extends (· ≠ .builtin .stop) custom)
    (hcustom : KeepsShutdown custom) :
    w'.node.shutdown = true ↔
      w.node.shutdown = true ∨ ∃ params, made "stop" params ∧ params.length ≤ 1 := by
  obtain ⟨calls, rfl, hcalls⟩ := h
  simp only [← hcalls]
  clear hcalls
  induction calls generalizing w with
  | nil => simp [afterCalls]
  | cons c rest ih =>
    have hrest : t.afterCalls (c :: rest) w = t.afterCalls rest (t.execute c.1 c.2 w).2 := rfl
    rw [hrest, ih, shutdown_execute_iff ht hcustom, or_assoc]
    refine or_congr_right ?_
    obtain ⟨method, params⟩ := c
    -- What is left to show is about the first call alone.
    simp only [List.mem_cons, Prod.mk.injEq, or_and_right, exists_or]
    refine or_congr_left ⟨?_, ?_⟩
    · rintro ⟨rfl, hparams⟩
      exact ⟨params, ⟨rfl, rfl⟩, hparams⟩
    · rintro ⟨ps, ⟨rfl, rfl⟩, hparams⟩
      exact ⟨rfl, hparams⟩

end Table

namespace Session

/-- The step asks the node to shut down. -/
inductive Step.AsksToStop : Step → Prop
  /-- It does so from outside. -/
  | request : AsksToStop .requestShutdown
  /-- A call of `stop` with one parameter at most comes in, of whatever kind the parameter is. -/
  | call {e : Entry} {params : List Json} (hmakes : e.Makes "stop" params)
      (hparams : params.length ≤ 1) : AsksToStop (.calls e)

variable {t : Table σ} {custom : Nat → Handler σ}

/-- **What a step does to the request to shut down**: it makes it, or it leaves it as it is. -/
theorem Step.shutdown_run_iff (ht : t.Extends (· ≠ .builtin .stop) custom)
    (hcustom : Table.KeepsShutdown custom) (a : Step) (w : World σ) :
    (a.run t w).node.shutdown = true ↔ w.node.shutdown = true ∨ a.AsksToStop := by
  cases a with
  | calls e =>
    refine ((e.performs t w).shutdown_iff ht hcustom).trans (or_congr_right ⟨?_, ?_⟩)
    · rintro ⟨params, hmakes, hparams⟩
      exact .call hmakes hparams
    · intro h
      cases h with
      | call hmakes hparams => exact ⟨_, hmakes, hparams⟩
  | help filter =>
    have hsame := (ht.respects_shutdown hcustom).help filter w
    rw [Step.run, hsame, or_iff_left nofun]
  | warn text => exact (or_iff_left nofun).symm
  | network a => exact (or_iff_left nofun).symm
  | requestShutdown => exact iff_of_true rfl (Or.inr .request)

/-- **The node has been asked to shut down exactly if a step did so.** -/
theorem shutdown_after_iff (ht : t.Extends (· ≠ .builtin .stop) custom)
    (hcustom : Table.KeepsShutdown custom) (steps : List Step) (w : World σ) (k : Nat) :
    (after t steps w k).node.shutdown = true ↔
      w.node.shutdown = true ∨ ∃ i < k, ∃ a, steps[i]? = some a ∧ a.AsksToStop := by
  induction k with
  | zero => simp [after]
  | succ k ih =>
    have hsplit : (∃ i < k + 1, ∃ a, steps[i]? = some a ∧ a.AsksToStop) ↔
        (∃ i < k, ∃ a, steps[i]? = some a ∧ a.AsksToStop) ∨
          ∃ a, steps[k]? = some a ∧ a.AsksToStop := by
      simp only [Nat.lt_succ_iff_lt_or_eq, or_and_right, exists_or, exists_eq_left]
    rw [hsplit, ← or_assoc, ← ih]
    cases ha : steps[k]? with
    | none => simp [after_succ_of_none ha]
    | some a =>
      rw [after_succ ha, Step.shutdown_run_iff ht hcustom]
      simp

/-- **The node shuts down on request only, and for good.** It has been asked to after a number of
steps exactly if it had been before them or one of them asked for it: from outside, or by a call of
`stop` with one parameter at most, however the call came in. Once it has been asked it stays so. At
every moment of a session, a listing, a handler that describes itself, `stop` with more parameters,
a value or a body that makes no call, and a connection without an admitted first request leave it as
it is. -/
theorem shutdown_only_on_request (ht : t.Extends (· ≠ .builtin .stop) custom)
    (hcustom : Table.KeepsShutdown custom) (steps : List Step) (w : World σ) :
    (∀ k, (after t steps w k).node.shutdown = true ↔
      w.node.shutdown = true ∨ ∃ i < k, ∃ a, steps[i]? = some a ∧ a.AsksToStop) ∧
    (∀ j k, j ≤ k → (after t steps w j).node.shutdown = true →
      (after t steps w k).node.shutdown = true) ∧
    ∀ k, let now := after t steps w k
      (∀ filter, (t.help filter now).2.node.shutdown = now.node.shutdown) ∧
      (∀ h, (t.describe h now).2.node.shutdown = now.node.shutdown) ∧
      (∀ params, 2 ≤ params.length →
        (t.execute "stop" params now).2.node.shutdown = now.node.shutdown) ∧
      (∀ v message, Request.Refused v message →
        (t.executeValue v now).2.node.shutdown = now.node.shutdown) ∧
      (∀ body, ¬ Body.Accepted body →
        (t.answerBody body now).2.node.shutdown = now.node.shutdown) ∧
      ∀ c : Connection,
        Service.Shut c.credentials c.allowList c.tls c.maxBody c.peer c.inbound →
          ((c.service t).serve c.peer c.inbound now).world.node.shutdown = now.node.shutdown := by
  have hR := ht.respects_shutdown hcustom
  have hafter := shutdown_after_iff ht hcustom steps w
  refine ⟨hafter, ?_, ?_⟩
  · intro j k hjk hj
    rw [hafter] at hj ⊢
    refine hj.imp_right ?_
    rintro ⟨i, hi, hstep⟩
    exact ⟨i, lt_of_lt_of_le hi hjk, hstep⟩
  · intro k now
    refine ⟨fun filter => hR.help filter now, fun h => hR.describe h now, ?_, ?_, ?_, ?_⟩
    · intro params hparams
      refine hR.execute ?_ now
      rintro c - ⟨-, hfew⟩
      omega
    · intro v message hrefused
      rw [t.executeValue_of_refused now hrefused]
    · intro body hbody
      rcases t.answerBody_cases body now with ⟨h, -⟩ | ⟨-, -, -, hsame⟩ | ⟨-, -, -, hsame⟩
      · exact absurd h hbody
      · rw [hsame]
      · rw [hsame]
    · intro c hshut
      obtain ⟨sent, delay, -, -, -, hserve⟩ := Service.serve_of_shut _ _ _ _ hshut
      have hserved : (c.service t).serve c.peer c.inbound now = ⟨sent, delay, now⟩ := hserve t now
      rw [hserved]

/-- A call with too many parameters and a listing do not shut the node down, and a batch does. -/
theorem shutdown_only_on_request_of_batch :
    let custom : Nat → Handler Nat := fun _ _ _ node store => (.value .null, node, store + 1)
    let steps : List Step :=
      [.calls (.execute "stop" [.null, .bool true]), .help "stop",
        .calls (.batch [.object [("method", .string "ping")],
          .object [("method", .string "stop"), ("params", .array [.bool false])]]), .warn "late"]
    ∃ t, (Table.builtins custom).register "ping" ⟨false, true, false⟩ (.custom 0) = .ok t ∧
      (after t steps ⟨.fresh .initial, 0, []⟩ 2).node.shutdown ≠ true ∧
      (after t steps ⟨.fresh .initial, 0, []⟩ 3).node.shutdown = true ∧
      (after t steps ⟨.fresh .initial, 0, []⟩ 4).node.shutdown = true := by
  intro custom steps
  have hregister : (Table.builtins custom).register "ping" ⟨false, true, false⟩ (.custom 0) =
      .ok _ := rfl
  refine ⟨_, hregister, ?_⟩
  obtain ⟨hafter, hforever, -⟩ := shutdown_only_on_request
    (.register .builtins (by decide) hregister) (fun _ _ _ _ _ => rfl) steps
    ⟨.fresh .initial, 0, []⟩
  have hcall : Request.Calls (.object [("method", .string "stop"),
      ("params", .array [.bool false])]) "stop" [.bool false] := ⟨rfl, Or.inl rfl⟩
  have hstopped := (hafter 3).mpr (Or.inr ⟨2, by decide, _, rfl,
    .call ⟨_, List.mem_cons_of_mem _ List.mem_cons_self, hcall⟩ (by decide)⟩)
  refine ⟨?_, hstopped, hforever 3 4 (by decide) hstopped⟩
  intro hearly
  rcases (hafter 2).mp hearly with h | ⟨i, hi, a, ha, hasks⟩
  · cases h
  · obtain rfl | rfl : i = 0 ∨ i = 1 := by omega
    · cases ha
      cases hasks with
      | call hmakes hparams =>
        obtain ⟨-, rfl⟩ := hmakes
        exact absurd hparams (by decide)
    · cases ha
      cases hasks

end Session

end RpcDaemon
