import RpcDaemon.Command.Dispatch

/-!
# The log of invocations

Running a handler adds it to the log, and after it those that it asks to describe themselves, which
only the help command does. So every function that runs commands leaves the handlers run before it
at the front of the log, in their order. Main statement: `calls_run`.
-/

namespace RpcDaemon

/-- Each of the invocations only asks a handler to describe itself. -/
def Descriptions (ds : List Invocation) : Prop :=
  ∀ i ∈ ds, i.describe = true

namespace Table

variable {σ : Type} (t : Table σ)

/-! ## Handlers -/

/-- Asking a handler to describe itself adds one invocation. -/
theorem calls_describe (h : HandlerId) (w : World σ) :
    (t.describe h w).2.calls = w.calls ++ [⟨h, [], true⟩] := by
  cases h <;> rfl

/-- A listing adds descriptions to the log. -/
theorem calls_describeAll (wholeText : Bool) (cs : List (String × Command)) (w : World σ) :
    ∃ ds, Descriptions ds ∧ (t.describeAll wholeText cs w).2.calls = w.calls ++ ds := by
  induction cs generalizing w with
  | nil =>
    refine ⟨[], ?_, (List.append_nil w.calls).symm⟩
    intro i hi
    cases hi
  | cons c rest ih =>
    have hfirst : (t.describe c.2.handler w).2.calls = w.calls ++ [⟨c.2.handler, [], true⟩] :=
      t.calls_describe c.2.handler w
    rw [describeAll]
    split
    · rename_i m w' hd
      rw [hd] at hfirst
      refine ⟨[⟨c.2.handler, [], true⟩], ?_, hfirst⟩
      intro i hi
      rw [List.mem_singleton.mp hi]
    · rename_i o w' _ hd
      rw [hd] at hfirst
      obtain ⟨ds, hds, hrest⟩ := ih w'
      have hall : Descriptions (⟨c.2.handler, [], true⟩ :: ds) := by
        intro i hi
        rcases List.mem_cons.mp hi with rfl | hi
        · rfl
        · exact hds i hi
      have hcalls : (t.describeAll wholeText rest w').2.calls =
          w.calls ++ ⟨c.2.handler, [], true⟩ :: ds := by
        rw [hrest, hfirst, List.append_assoc]
        rfl
      split
      · rename_i texts w'' hd'
        rw [hd'] at hcalls
        exact ⟨_, hall, hcalls⟩
      · rename_i m w'' hd'
        rw [hd'] at hcalls
        exact ⟨_, hall, hcalls⟩

/-- The help command adds descriptions to the log. -/
theorem calls_runHelp (params : List Json) (w : World σ) :
    ∃ ds, Descriptions ds ∧ (t.runHelp params w).2.calls = w.calls ++ ds := by
  have hsame : ∃ ds, Descriptions ds ∧ w.calls = w.calls ++ ds := by
    refine ⟨[], ?_, (List.append_nil w.calls).symm⟩
    intro i hi
    cases hi
  have hhelp : ∀ filter, ∃ ds, Descriptions ds ∧ (t.help filter w).2.calls = w.calls ++ ds := by
    intro filter
    have h := t.calls_describeAll (!filter.isEmpty) (t.listed filter w.node.wallet.isSome) w
    rw [help]
    split
    · rename_i texts w' hall
      rw [hall] at h
      exact h
    · rename_i m w' hall
      rw [hall] at h
      exact h
  unfold runHelp
  split
  · exact hsame
  · split
    · exact hsame
    · dsimp only
      split
      · rename_i text w' h
        have := h ▸ hhelp _
        exact this
      · rename_i m w' h
        have := h ▸ hhelp _
        exact this

/-- **Running a handler adds it to the log once**, and after it the handlers that it asks to describe
themselves; only the help command asks any. -/
theorem calls_run (h : HandlerId) (params : List Json) (w : World σ) :
    ∃ ds, Descriptions ds ∧ (h ≠ .builtin .help → ds = []) ∧
      (t.run h params w).2.calls = w.calls ++ ⟨h, params, false⟩ :: ds := by
  have hnone : Descriptions [] := by
    intro i hi
    cases hi
  unfold run
  split
  · -- The help command is logged before it asks the others.
    obtain ⟨ds, hds, hcalls⟩ :=
      t.calls_runHelp params { w with calls := w.calls ++ [⟨_, params, false⟩] }
    refine ⟨ds, hds, fun hne => absurd rfl hne, ?_⟩
    rw [hcalls, List.append_assoc]
    rfl
  · split
    · exact ⟨[], hnone, fun _ => rfl, rfl⟩
    · exact ⟨[], hnone, fun _ => rfl, rfl⟩
  · exact ⟨[], hnone, fun _ => rfl, rfl⟩

/-! ## Calls and batches -/

/-- Running a command adds to the log. -/
theorem calls_prefix_execute (method : String) (params : List Json) (w : World σ) :
    w.calls <+: (t.execute method params w).2.calls := by
  unfold execute
  split
  · exact List.prefix_refl _
  · rename_i c _
    split
    · exact List.prefix_refl _
    · obtain ⟨ds, -, -, hcalls⟩ := t.calls_run c.handler params w
      exact ⟨_, hcalls.symm⟩

/-- Answering what should be a call adds to the log. -/
theorem calls_prefix_executeValue (v : Json) (w : World σ) :
    w.calls <+: (t.executeValue v w).2.calls := by
  unfold executeValue
  split
  · rename_i r _
    exact t.calls_prefix_execute r.method r.params w
  · exact List.prefix_refl _

/-- Answering a batch adds to the log. -/
theorem calls_prefix_executeBatch (vs : List Json) (w : World σ) :
    w.calls <+: (t.executeBatch vs w).2.calls := by
  induction vs generalizing w with
  | nil => exact List.prefix_refl _
  | cons v vs ih => exact (t.calls_prefix_executeValue v w).trans (ih _)

end Table

end RpcDaemon
