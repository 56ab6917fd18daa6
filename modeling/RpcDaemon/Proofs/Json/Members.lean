import Mathlib.Data.List.Induction
import RpcDaemon.Json.Basic

/-!
# Members by their names

Members that are put in one by one stand in the order of their names, and each is found under its
name; the last one of a name stays. Main statements: `Members.sorted_ofList` and
`Members.mem_ofList`.
-/

namespace RpcDaemon

namespace Members

variable {α : Type} {name k : String} {v : α} {m : String × α} {ms : List (String × α)}

/-! ## Putting in one member -/

/-- A member that is put in is found. -/
theorem get?_insert_self (name : String) (v : α) (ms : List (String × α)) :
    get? name (insert name v ms) = some v := by
  induction ms with
  | nil => exact if_pos rfl
  | cons m ms ih =>
    obtain ⟨k, x⟩ := m
    rw [insert]
    split
    · exact if_pos rfl
    · rename_i hk
      split
      · exact if_pos rfl
      · rw [get?, if_neg hk, ih]

/-- Members of other names are found as before. -/
theorem get?_insert_of_ne (h : name ≠ k) (v : α) (ms : List (String × α)) :
    get? k (insert name v ms) = get? k ms := by
  induction ms with
  | nil => exact if_neg h
  | cons m ms ih =>
    obtain ⟨k', x⟩ := m
    rw [insert]
    split
    · rename_i hk
      rw [get?, get?, if_neg h, if_neg (hk ▸ h)]
    · split
      · rw [get?, if_neg h]
      · rw [get?, get?, ih]

/-- A member after one is put in is that one or was there before. -/
theorem mem_of_mem_insert (h : m ∈ insert name v ms) : m = (name, v) ∨ m ∈ ms := by
  induction ms with
  | nil => exact Or.inl (List.mem_singleton.mp h)
  | cons p ms ih =>
    obtain ⟨k, x⟩ := p
    rw [insert] at h
    split at h
    · exact (List.mem_cons.mp h).imp id (List.mem_cons_of_mem _)
    · split at h
      · exact List.mem_cons.mp h
      · rcases List.mem_cons.mp h with h | h
        · exact Or.inr (h ▸ List.mem_cons_self)
        · exact (ih h).imp id (List.mem_cons_of_mem _)

/-- The names stay in order when a member is put in. -/
theorem sorted_insert (name : String) (v : α) (h : Sorted ms) : Sorted (insert name v ms) := by
  induction ms with
  | nil => exact List.pairwise_singleton _ _
  | cons p ms ih =>
    obtain ⟨k, x⟩ := p
    obtain ⟨hfirst, hrest⟩ := List.pairwise_cons.mp h
    rw [insert]
    split
    · rename_i hk
      exact List.pairwise_cons.mpr ⟨fun m hm => hk ▸ hfirst m hm, hrest⟩
    · rename_i hk
      split
      · rename_i hlt
        refine List.pairwise_cons.mpr ⟨fun m hm => ?_, h⟩
        rcases List.mem_cons.mp hm with rfl | hm
        · exact hlt
        · exact String.lt_trans hlt (hfirst m hm)
      · rename_i hlt
        refine List.pairwise_cons.mpr ⟨fun m hm => ?_, ih hrest⟩
        rcases mem_of_mem_insert hm with rfl | hm
        · -- The name is neither that of the first member nor before it.
          refine Decidable.byContradiction fun hge => ?_
          exact hk (String.le_antisymm (String.not_lt.mp hlt) (String.not_lt.mp hge))
        · exact hfirst m hm

/-- A member of a sorted list is found under its name. -/
theorem get?_eq_some_iff_mem (h : Sorted ms) : get? k ms = some v ↔ (k, v) ∈ ms := by
  induction ms with
  | nil => exact iff_of_false (fun h => by cases h) List.not_mem_nil
  | cons p ms ih =>
    obtain ⟨k', x⟩ := p
    obtain ⟨hfirst, hrest⟩ := List.pairwise_cons.mp h
    rw [get?, List.mem_cons, ← ih hrest, Prod.mk.injEq]
    by_cases hk : k' = k
    · -- No other member has the name of the first one.
      have hnone : get? k ms ≠ some v := fun hfound =>
        String.lt_irrefl k (hk ▸ hfirst _ ((ih hrest).mp hfound))
      rw [if_pos hk, Option.some.injEq]
      exact ⟨fun hv => Or.inl ⟨hk.symm, hv.symm⟩, fun h => (h.resolve_right hnone).2.symm⟩
    · rw [if_neg hk]
      exact ⟨Or.inr, fun h => h.resolve_left fun heq => hk heq.1.symm⟩

/-! ## Putting in several members -/

/-- Members that were put in stand in order. -/
theorem sorted_ofList (ms : List (String × α)) : Sorted (ofList ms) := by
  induction ms using List.reverseRecOn with
  | nil => exact List.Pairwise.nil
  | append_singleton ms m ih =>
    unfold ofList at ih ⊢
    rw [List.foldl_append]
    exact sorted_insert m.1 m.2 ih

/-- What is found after several members were put in is one of them. -/
theorem mem_of_get?_ofList (h : get? k (ofList ms) = some v) :
    (k, v) ∈ ms := by
  induction ms using List.reverseRecOn with
  | nil => cases h
  | append_singleton ms m ih =>
    unfold ofList at h ih
    rw [List.foldl_append, List.foldl_cons, List.foldl_nil] at h
    -- The member that is put in last is the one that is found, if it has the name.
    by_cases hm : m.1 = k
    · subst hm
      rw [get?_insert_self] at h
      rw [← Option.some.inj h]
      exact List.mem_append_right ms List.mem_cons_self
    · rw [get?_insert_of_ne hm] at h
      exact List.mem_append_left _ (ih h)

/-- Of members with names of their own every one is found after all were put in. -/
theorem get?_ofList_of_mem (hnodup : (ms.map Prod.fst).Nodup) (hm : (k, v) ∈ ms) :
    get? k (ofList ms) = some v := by
  induction ms using List.reverseRecOn with
  | nil => cases hm
  | append_singleton ms m ih =>
    rw [List.map_append, List.map_singleton, List.nodup_append] at hnodup
    obtain ⟨hfirst, -, hne⟩ := hnodup
    unfold ofList at ih ⊢
    rw [List.foldl_append, List.foldl_cons, List.foldl_nil]
    rcases List.mem_append.mp hm with hm | hm
    · have hk : m.1 ≠ k := (hne k (List.mem_map_of_mem hm) m.1 List.mem_cons_self).symm
      rw [get?_insert_of_ne hk]
      exact ih hfirst hm
    · cases List.mem_singleton.mp hm
      exact get?_insert_self k v _

/-- Nothing is there that was not put in. -/
theorem mem_of_mem_ofList (h : m ∈ ofList ms) : m ∈ ms :=
  mem_of_get?_ofList ((get?_eq_some_iff_mem (sorted_ofList ms)).mpr h)

/-- Of members with names of their own every one is there after all were put in. -/
theorem mem_ofList (hnodup : (ms.map Prod.fst).Nodup) (hm : m ∈ ms) : m ∈ ofList ms :=
  (get?_eq_some_iff_mem (sorted_ofList ms)).mp (get?_ofList_of_mem hnodup hm)

end Members

end RpcDaemon
