import RpcDaemon.Proofs.Command.Answer
import RpcDaemon.Proofs.Command.Extension

/-!
# What commands do to the node

A command changes the node in one of two ways: its handler is one that the table brings along, or it
is the built-in one that asks the node to shut down. Asking handlers to describe themselves, as a
listing does, never asks for that. So what is known of the handlers that the table brings along is
known of every command. Main statements: `Respects.execute` and `Respects.help`.
-/

namespace RpcDaemon

/-- Only the command to stop does something to the node. -/
theorem Builtin.answer_snd {b : Builtin} (hb : b ≠ .stop) (n : Node) : (b.answer n).2 = n := by
  cases b with
  | stop => exact absurd rfl hb
  | help => rfl
  | getinfo => rfl
  | getblockcount => rfl
  | getbestblockhash => rfl
  | getdifficulty => rfl
  | getconnectioncount => rfl

namespace Table

variable {σ : Type}

/-- The handlers that the table brings along change the node only as `R` allows. Leaving it as it is
and making one change after another has to be allowed. -/
structure Respects (t : Table σ) (R : Node → Node → Prop) : Prop where
  /-- The node may stay as it is. -/
  refl : ∀ n, R n n
  /-- One change may follow another. -/
  trans : ∀ {a b c : Node}, R a b → R b c → R a c
  /-- A handler makes a change that is allowed. -/
  custom : ∀ i params describe n store, R n (t.custom i params describe n store).2.1

variable {t : Table σ} {R : Node → Node → Prop}

/-! ## Descriptions -/

/-- A handler that describes itself is a handler that the table brings along, or leaves the node as
it is. -/
theorem Respects.describe (hR : t.Respects R) (h : HandlerId) (w : World σ) :
    R w.node (t.describe h w).2.node := by
  cases h with
  | builtin b => exact hR.refl w.node
  | custom i => exact hR.custom i [] true w.node w.store

theorem Respects.describeAll (hR : t.Respects R) (wholeText : Bool) (cs : List (String × Command))
    (w : World σ) : R w.node (t.describeAll wholeText cs w).2.node := by
  induction cs generalizing w with
  | nil => exact hR.refl w.node
  | cons c rest ih =>
    have hfirst : R w.node (t.describe c.2.handler w).2.node := hR.describe c.2.handler w
    rw [Table.describeAll]
    split
    · rename_i m w' hd
      rwa [hd] at hfirst
    · rename_i o w' _ hd
      rw [hd] at hfirst
      -- The others are asked on the node that the first one has left.
      have hrest := hR.trans hfirst (ih w')
      split
      · rename_i texts w'' hd'
        rwa [hd'] at hrest
      · rename_i m w'' hd'
        rwa [hd'] at hrest

/-- **A listing** only asks handlers to describe themselves. -/
theorem Respects.help (hR : t.Respects R) (filter : String) (w : World σ) :
    R w.node (t.help filter w).2.node := by
  have h := hR.describeAll (!filter.isEmpty) (t.listed filter w.node.wallet.isSome) w
  rw [Table.help]
  split
  · rename_i texts w' hall
    rwa [hall] at h
  · rename_i m w' hall
    rwa [hall] at h

theorem Respects.runHelp (hR : t.Respects R) (params : List Json) (w : World σ) :
    R w.node (t.runHelp params w).2.node := by
  unfold Table.runHelp
  split
  · exact hR.refl w.node
  · split
    · exact hR.refl w.node
    · have hhelp := fun filter => hR.help filter w
      dsimp only
      split
      · rename_i text w' h
        have hnode := h ▸ hhelp _
        exact hnode
      · rename_i m w' h
        have hnode := h ▸ hhelp _
        exact hnode

/-! ## Runs -/

/-- The handler is the one that asks the node to shut down, and it does not explain its use. -/
def Stops (h : HandlerId) (params : List Json) : Prop :=
  h = .builtin .stop ∧ params.length ≤ 1

/-- The command to stop asks the node to shut down. -/
theorem run_of_stops {h : HandlerId} {params : List Json} (hs : Stops h params) (w : World σ) :
    (t.run h params w).2.node = w.node.requestShutdown := by
  obtain ⟨rfl, hp⟩ := hs
  have hmany : ¬ Builtin.stop.maxParams < params.length := by
    rw [Builtin.maxParams]
    omega
  rw [Table.run, if_neg hmany]
  · rfl
  · intro hne
    cases hne

/-- **Any other run** changes the node as the handlers that the table brings along do. -/
theorem Respects.run (hR : t.Respects R) {h : HandlerId} {params : List Json}
    (hs : ¬ Stops h params) (w : World σ) : R w.node (t.run h params w).2.node := by
  unfold Table.run
  split
  · have hhelp := hR.runHelp params { w with calls := w.calls ++ [⟨.builtin .help, params, false⟩] }
    exact hhelp
  · rename_i b _
    split
    · exact hR.refl w.node
    · rename_i hfew
      have hb : b ≠ .stop := by
        rintro rfl
        rw [Builtin.maxParams] at hfew
        exact hs ⟨rfl, by omega⟩
      show R w.node (b.answer w.node).2
      rw [Builtin.answer_snd hb]
      exact hR.refl w.node
  · exact hR.custom _ params false w.node w.store

/-! ## Commands -/

/-- A command is run, or nothing happens. -/
theorem execute_cases (t : Table σ) (method : String) (params : List Json) (w : World σ) :
    (∃ c, t.lookup? method = some c ∧
        (t.execute method params w).2 = (t.run c.handler params w).2) ∨
      (t.execute method params w).2 = w := by
  by_cases hc : ∃ c, t.Admits method w c
  · obtain ⟨c, hc⟩ := hc
    rw [execute_of_admits t hc]
    exact Or.inl ⟨c, hc.1, rfl⟩
  · obtain ⟨e, he⟩ := execute_of_not_admits t (not_exists.mp hc) params
    rw [he]
    exact Or.inr rfl

/-- Every node lets the built-in commands run. -/
theorem refusal?_builtin (b : Builtin) (n : Node) :
    refusal? ⟨b.flags, .builtin b⟩ n = none := by
  cases b <;> simp [refusal?, Builtin.flags]

/-- **A built-in command** other than the listing gives its own answer, whatever else the table has,
if it gets no more parameters than it takes. -/
theorem Extends.execute_builtin {allowed : HandlerId → Prop} {custom : Nat → Handler σ}
    (ht : t.Extends allowed custom) {b : Builtin} (hb : b ≠ .help) {params : List Json}
    (hparams : params.length ≤ b.maxParams) (w : World σ) :
    (t.execute b.name params w).1 = result (b.answer w.node).1 := by
  rw [execute_of_admits t ⟨ht.lookup?_builtin b, refusal?_builtin b w.node⟩]
  dsimp only
  rw [Table.run, if_neg (Nat.not_lt.mpr hparams)]
  intro heq
  cases heq
  exact hb rfl

/-- **A command** changes the node as the handlers that the table brings along do, unless it is one
that asks the node to shut down. -/
theorem Respects.execute (hR : t.Respects R) {method : String} {params : List Json}
    (hs : ∀ c, t.lookup? method = some c → ¬ Stops c.handler params) (w : World σ) :
    R w.node (t.execute method params w).2.node := by
  rcases t.execute_cases method params w with ⟨c, hc, hrun⟩ | hnone
  · rw [hrun]
    exact hR.run (hs c hc) w
  · rw [hnone]
    exact hR.refl w.node

/-- If asking to shut down is allowed too, then so is what any command does. -/
theorem Respects.execute_of_requestShutdown (hR : t.Respects R)
    (hstop : ∀ n : Node, R n n.requestShutdown) (method : String) (params : List Json)
    (w : World σ) : R w.node (t.execute method params w).2.node := by
  rcases t.execute_cases method params w with ⟨c, -, hrun⟩ | hnone
  · rw [hrun]
    by_cases hs : Stops c.handler params
    · rw [run_of_stops hs]
      exact hstop w.node
    · exact hR.run hs w
  · rw [hnone]
    exact hR.refl w.node

end Table

end RpcDaemon
