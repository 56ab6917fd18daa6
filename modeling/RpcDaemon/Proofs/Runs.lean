/-!
# Runs

A run is a list of steps. The state after the first `k` of them is what folding over that beginning
gives, and what is said of a moment or of the time between two moments is carried one step further.
-/

namespace RpcDaemon

variable {α β : Type} {l : List α} {k : Nat}

/-- One element more is one step more. -/
theorem foldl_take_succ {f : β → α → β} {a : α} (h : l[k]? = some a) (b : β) :
    (l.take (k + 1)).foldl f b = f ((l.take k).foldl f b) a := by
  rw [List.take_add_one, h, Option.toList_some, List.foldl_append]
  rfl

/-- Past the end of a list there is no step more. -/
theorem take_succ_of_none (h : l[k]? = none) : l.take (k + 1) = l.take k := by
  rw [List.take_add_one, h, Option.toList_none, List.append_nil]

/-- What holds between two moments holds one moment longer if it holds at the last one. -/
theorem forall_between_succ_iff {P : Nat → Prop} {i : Nat} (h : i < k) :
    (∀ j, i < j → j < k + 1 → P j) ↔ (∀ j, i < j → j < k → P j) ∧ P k := by
  constructor
  · intro hp
    exact ⟨fun j hij hjk => hp j hij (Nat.lt_succ_of_lt hjk), hp k h (Nat.lt_succ_self k)⟩
  · rintro ⟨hp, hk⟩ j hij hjk
    rcases Nat.lt_succ_iff_lt_or_eq.mp hjk with hlt | rfl
    · exact hp j hij hlt
    · exact hk

/-- Between a moment and the next one there is none. -/
theorem forall_between_self {P : Nat → Prop} (k : Nat) : ∀ j, k < j → j < k + 1 → P j := by
  intro j hkj hjk
  omega

end RpcDaemon
