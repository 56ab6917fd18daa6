import RpcDaemon.Proofs.Runs
import RpcDaemon.Timer.Table

/-!
# Laws of the timer table

The table keeps one generation for each name, in the order of the names, and never one above the
last that was given. `Timers.Sound` says so; every operation keeps it, and each operation is
described by what it does to membership in the table.
-/

namespace RpcDaemon

namespace Timer

namespace Timers

/-! ## Putting an entry -/

/-- What stands in a sorted table after an entry was put into it: the entry, and those of the other
names. -/
theorem mem_put_iff {name : String} {g : Nat} {l : List (String × Nat)}
    (hs : l.Pairwise fun a b => a.1 < b.1) (e : String × Nat) :
    e ∈ put name g l ↔ e = (name, g) ∨ (e ∈ l ∧ e.1 ≠ name) := by
  induction l with
  | nil => simp [put]
  | cons a l ih =>
    obtain ⟨k, x⟩ := a
    obtain ⟨hfirst, hrest⟩ := List.pairwise_cons.mp hs
    rw [put]
    by_cases hk : k = name
    · -- The old entry of the name goes, and no other has the name.
      subst hk
      have hne : e ∈ l → e.1 ≠ k := fun he heq => String.lt_irrefl k (heq ▸ hfirst e he)
      rw [if_pos rfl, List.mem_cons, List.mem_cons]
      constructor
      · rintro (h | h)
        · exact Or.inl h
        · exact Or.inr ⟨Or.inr h, hne h⟩
      · rintro (h | ⟨rfl | h, hn⟩)
        · exact Or.inl h
        · exact absurd rfl hn
        · exact Or.inr h
    · rw [if_neg hk]
      by_cases hlt : name < k
      · have hne : e ∈ (k, x) :: l → e.1 ≠ name := by
          intro he heq
          rcases List.mem_cons.mp he with rfl | he
          · exact hk heq
          · exact String.lt_asymm hlt (heq ▸ hfirst e he)
        rw [if_pos hlt, List.mem_cons]
        constructor
        · rintro (h | h)
          · exact Or.inl h
          · exact Or.inr ⟨h, hne h⟩
        · rintro (h | ⟨h, -⟩)
          · exact Or.inl h
          · exact Or.inr h
      · rw [if_neg hlt, List.mem_cons, List.mem_cons, ih hrest]
        constructor
        · rintro (rfl | h | ⟨h, hn⟩)
          · exact Or.inr ⟨Or.inl rfl, hk⟩
          · exact Or.inl h
          · exact Or.inr ⟨Or.inr h, hn⟩
        · rintro (h | ⟨h | h, hn⟩)
          · exact Or.inr (Or.inl h)
          · exact Or.inl h
          · exact Or.inr (Or.inr ⟨h, hn⟩)

/-- Putting an entry keeps the order of the names. -/
theorem sorted_put (name : String) (g : Nat) {l : List (String × Nat)}
    (hs : l.Pairwise fun a b => a.1 < b.1) :
    (put name g l).Pairwise fun a b => a.1 < b.1 := by
  induction l with
  | nil => simp [put]
  | cons a l ih =>
    obtain ⟨k, x⟩ := a
    obtain ⟨hfirst, hrest⟩ := List.pairwise_cons.mp hs
    rw [put]
    by_cases hk : k = name
    · subst hk
      rw [if_pos rfl]
      exact List.pairwise_cons.mpr ⟨hfirst, hrest⟩
    · rw [if_neg hk]
      by_cases hlt : name < k
      · rw [if_pos hlt]
        refine List.pairwise_cons.mpr ⟨?_, hs⟩
        intro e he
        rcases List.mem_cons.mp he with rfl | he
        · exact hlt
        · exact String.lt_trans hlt (hfirst e he)
      · rw [if_neg hlt]
        refine List.pairwise_cons.mpr ⟨?_, ih hrest⟩
        intro e he
        rcases (mem_put_iff hrest e).mp he with rfl | ⟨he, -⟩
        · -- The names are comparable, and two of the three cases are ruled out.
          by_cases hkn : k < name
          · exact hkn
          · exact absurd (String.le_antisymm (String.not_lt.mp hlt) (String.not_lt.mp hkn)) hk
        · exact hfirst e he

/-- What is found under a name in a sorted table is what stands there. -/
theorem lookup_eq_some_iff_mem {l : List (String × Nat)} (hs : l.Pairwise fun a b => a.1 < b.1)
    (name : String) (g : Nat) : l.lookup name = some g ↔ (name, g) ∈ l := by
  induction l with
  | nil => simp
  | cons a l ih =>
    obtain ⟨k, x⟩ := a
    obtain ⟨hfirst, hrest⟩ := List.pairwise_cons.mp hs
    by_cases hk : name = k
    · subst hk
      rw [List.lookup_cons_self, List.mem_cons]
      constructor
      · intro hx
        exact Or.inl (by rw [Option.some.inj hx])
      · rintro (hx | hx)
        · rw [(Prod.mk.inj hx).2]
        · exact absurd (hfirst _ hx) (String.lt_irrefl name)
    · rw [List.lookup_cons, beq_false_of_ne hk, List.mem_cons]
      refine (ih hrest).trans ⟨Or.inr, ?_⟩
      rintro (hx | hx)
      · exact absurd (Prod.mk.inj hx).1 hk
      · exact hx

/-! ## The invariant -/

/-- What holds of a table after any run of operations. -/
structure Sound (t : Timers) : Prop where
  /-- The names stand in strictly rising order. -/
  sorted : t.pending.Pairwise fun a b => a.1 < b.1
  /-- No generation is above the last that was given. -/
  bounded : ∀ e ∈ t.pending, e.2 ≤ t.generation
  /-- Nothing is left after the table was shut down. -/
  shut : t.shutDown = true → t.pending = []

/-- The empty table. -/
theorem sound_empty : Sound empty where
  sorted := List.Pairwise.nil
  bounded := by
    intro e he
    cases he
  shut := fun _ => rfl

variable {t : Timers}

/-- The names that are given out are sorted. -/
theorem Sound.sorted_names (h : t.Sound) : t.names.Pairwise (· < ·) :=
  List.pairwise_map.mpr h.sorted

/-- The names that are given out are those of the entries. -/
theorem mem_names_iff (t : Timers) (name : String) :
    name ∈ t.names ↔ ∃ g, (name, g) ∈ t.pending := by
  unfold names
  rw [List.mem_map]
  constructor
  · rintro ⟨e, he, rfl⟩
    exact ⟨e.2, he⟩
  · rintro ⟨g, hg⟩
    exact ⟨(name, g), hg, rfl⟩

/-- The generation that is found under a name is the one that stands there. -/
theorem Sound.current?_eq_some_iff (h : t.Sound) (name : String) (g : Nat) :
    t.current? name = some g ↔ (name, g) ∈ t.pending :=
  lookup_eq_some_iff_mem h.sorted name g

/-- One name has one generation. -/
theorem Sound.generation_unique (h : t.Sound) {name : String} {g g' : Nat}
    (hg : (name, g) ∈ t.pending) (hg' : (name, g') ∈ t.pending) : g = g' := by
  have h₁ := (h.current?_eq_some_iff name g).mpr hg
  have h₂ := (h.current?_eq_some_iff name g').mpr hg'
  exact Option.some.inj (h₁.symm.trans h₂)

/-! ## The operations -/

/-- A table that was shut down accepts nothing. -/
theorem schedule_of_shut (h : t.shutDown = true) (name : String) :
    t.schedule name = (none, t) := by
  rw [schedule, if_pos h]

/-- A table that is open accepts every timer and gives it the next generation. -/
theorem schedule_of_open (h : t.shutDown = false) (name : String) :
    t.schedule name = (some (t.generation + 1),
      ⟨t.generation + 1, put name (t.generation + 1) t.pending, t.shutDown⟩) := by
  rw [schedule, if_neg (by simp [h])]

/-- Accepting a timer keeps the invariant. -/
theorem Sound.put (h : t.Sound) (ho : t.shutDown = false) (name : String) :
    Sound ⟨t.generation + 1, put name (t.generation + 1) t.pending, t.shutDown⟩ where
  sorted := sorted_put name _ h.sorted
  bounded := by
    intro e he
    rcases (mem_put_iff h.sorted e).mp he with rfl | ⟨he, -⟩
    · exact Nat.le_refl _
    · exact Nat.le_succ_of_le (h.bounded e he)
  shut := by
    intro hs
    rw [ho] at hs
    cases hs

/-- A timer that is current runs and leaves the table. -/
theorem Sound.wake_of_mem (h : t.Sound) {name : String} {g : Nat} (hm : (name, g) ∈ t.pending) :
    t.wake name g = (true, { t with pending := t.pending.filter fun e => e.1 != name }) := by
  rw [wake, if_pos ((h.current?_eq_some_iff name g).mpr hm)]

/-- A timer that is not current does nothing. -/
theorem Sound.wake_of_not_mem (h : t.Sound) {name : String} {g : Nat}
    (hm : (name, g) ∉ t.pending) : t.wake name g = (false, t) := by
  rw [wake, if_neg fun hc => hm ((h.current?_eq_some_iff name g).mp hc)]

/-- Taking entries away keeps the invariant. -/
theorem Sound.filter (h : t.Sound) (p : String × Nat → Bool) :
    Sound { t with pending := t.pending.filter p } where
  sorted := h.sorted.filter p
  bounded := fun e he => h.bounded e (List.mem_filter.mp he).1
  shut := by
    intro hs
    show t.pending.filter p = []
    rw [h.shut hs, List.filter_nil]

/-- Shutting the table down keeps the invariant. -/
theorem sound_shutdown (t : Timers) : t.shutdown.Sound where
  sorted := List.Pairwise.nil
  bounded := by
    intro e he
    cases he
  shut := fun _ => rfl

end Timers

end Timer

end RpcDaemon
