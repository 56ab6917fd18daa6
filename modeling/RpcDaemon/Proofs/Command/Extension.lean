import RpcDaemon.Command.Builtin
import RpcDaemon.Proofs.Json.Members

/-!
# Tables with further commands

A table may have commands besides the built-in ones. They are registered one after the other, each
under a name that is free, so the built-in commands stay what they are. Main statements:
`Extends.lookup?_builtin` and `Extends.lookup?_cases`.
-/

namespace RpcDaemon

namespace Table

variable {σ : Type} {allowed : HandlerId → Prop} {custom : Nat → Handler σ} {t t' : Table σ}

/-! ## Registration -/

/-- A name is registered if it was free; it is found then, and all else is as before. -/
theorem register_eq_ok {name : String} {flags : Flags} {h : HandlerId}
    (hr : t.register name flags h = .ok t') :
    t.lookup? name = none ∧ t'.lookup? name = some ⟨flags, h⟩ ∧
      (∀ k, name ≠ k → t'.lookup? k = t.lookup? k) ∧ t'.custom = t.custom := by
  unfold register at hr
  cases hname : t.lookup? name with
  | some c =>
    rw [hname] at hr
    cases hr
  | none =>
    rw [hname] at hr
    cases hr
    exact ⟨rfl, Members.get?_insert_self _ _ _, fun k hk => Members.get?_insert_of_ne hk _ _, rfl⟩

/-- **A table that extends the built-in commands** by others, whose handlers are `allowed`,
registered one after the other. -/
inductive Extends (allowed : HandlerId → Prop) (custom : Nat → Handler σ) : Table σ → Prop
  /-- There are no others. -/
  | builtins : Extends allowed custom (.builtins custom)
  /-- One more is registered. -/
  | register {t t' : Table σ} {name : String} {flags : Flags} {h : HandlerId}
      (ht : Extends allowed custom t) (hallowed : allowed h)
      (hr : t.register name flags h = .ok t') : Extends allowed custom t'

/-- The handlers that a table brings along are not touched by registration. -/
theorem Extends.custom_eq (ht : Extends allowed custom t) : t.custom = custom := by
  induction ht with
  | builtins => rfl
  | register ht hallowed hr ih => rw [(register_eq_ok hr).2.2.2, ih]

/-- A built-in command is found under its name. -/
theorem lookup?_builtins (b : Builtin) :
    (builtins custom).lookup? b.name = some ⟨b.flags, .builtin b⟩ := by
  cases b <;> rfl

/-- **The built-in commands stay what they are.** -/
theorem Extends.lookup?_builtin (ht : Extends allowed custom t) (b : Builtin) :
    t.lookup? b.name = some ⟨b.flags, .builtin b⟩ := by
  induction ht with
  | builtins => exact lookup?_builtins b
  | @register t t' name flags h ht hallowed hr ih =>
    obtain ⟨hfree, -, hother, -⟩ := register_eq_ok hr
    -- The name was free, so it is not that of the built-in command, which is taken.
    have hne : name ≠ b.name := by
      rintro rfl
      rw [hfree] at ih
      cases ih
    rw [hother _ hne, ih]

/-- **A command of the table is a built-in one under its own name, or has an allowed handler.** -/
theorem Extends.lookup?_cases (ht : Extends allowed custom t) {k : String} {c : Command}
    (hc : t.lookup? k = some c) :
    (∃ b : Builtin, k = b.name ∧ c = ⟨b.flags, .builtin b⟩) ∨ allowed c.handler := by
  induction ht with
  | builtins =>
    obtain ⟨b, -, hb⟩ := List.mem_map.mp (Members.mem_of_get?_ofList hc)
    cases hb
    exact Or.inl ⟨b, rfl, rfl⟩
  | @register t t' name flags h ht hallowed hr ih =>
    obtain ⟨-, hself, hother, -⟩ := register_eq_ok hr
    by_cases hk : name = k
    · subst hk
      rw [hself] at hc
      cases hc
      exact Or.inr hallowed
    · rw [hother k hk] at hc
      exact ih hc

end Table

end RpcDaemon
