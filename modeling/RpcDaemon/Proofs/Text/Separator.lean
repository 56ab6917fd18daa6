import RpcDaemon.Text.Blank

/-!
# Separators

A list with a separator in it falls apart at the first one in one way only, and a text falls into
pieces at all of them.
-/

namespace RpcDaemon

/-! ## Lists with a separator -/

section Separator

variable {α : Type} {sep : α} {a a' b b' : List α}

/-- What stands before the first separator and what stands behind it. -/
theorem append_cons_inj_of_notMem (ha : sep ∉ a) (ha' : sep ∉ a') :
    a ++ sep :: b = a' ++ sep :: b' ↔ a = a' ∧ b = b' := by
  induction a generalizing a' with
  | nil =>
    cases a' with
    | nil => simp
    | cons c a' =>
      have hc : sep ≠ c := fun heq => ha' (heq ▸ List.mem_cons_self)
      simp [hc]
  | cons c a ih =>
    have hc : c ≠ sep := fun heq => ha (heq ▸ List.mem_cons_self)
    cases a' with
    | nil => simp [hc]
    | cons c' a' =>
      have hrest := ih (fun hm => ha (List.mem_cons_of_mem c hm))
        (fun hm => ha' (List.mem_cons_of_mem c' hm))
      simp only [List.cons_append, List.cons.injEq, hrest, and_assoc]

/-- What stands before a place that is known by its number and what stands behind it. -/
theorem append_cons_inj_of_length (h : a.length = a'.length) :
    a ++ sep :: b = a' ++ sep :: b' ↔ a = a' ∧ b = b' := by
  constructor
  · intro heq
    obtain ⟨ha, hb⟩ := List.append_inj heq h
    exact ⟨ha, (List.cons.inj hb).2⟩
  · rintro ⟨rfl, rfl⟩
    rfl

/-- A list with a separator starts like another if they agree before the first one. -/
theorem append_cons_prefix_iff_of_notMem (ha : sep ∉ a) (ha' : sep ∉ a') :
    a ++ sep :: b <+: a' ++ sep :: b' ↔ a = a' ∧ b <+: b' := by
  constructor
  · rintro ⟨rest, h⟩
    rw [List.append_assoc, List.cons_append, append_cons_inj_of_notMem ha ha'] at h
    exact ⟨h.1, rest, h.2⟩
  · rintro ⟨rfl, rest, rfl⟩
    exact ⟨rest, by rw [List.append_assoc, List.cons_append]⟩

end Separator

namespace Chars

/-- There is at least one piece. -/
theorem splitOn_ne_nil (sep : Char) (cs : List Char) : splitOn sep cs ≠ [] := by
  cases cs with
  | nil => exact List.cons_ne_nil _ _
  | cons c cs =>
    rw [splitOn]
    split
    · exact List.cons_ne_nil _ _
    · split <;> exact List.cons_ne_nil _ _

/-- The pieces are those of `List.splitOn`. -/
theorem splitOn_eq (sep : Char) (cs : List Char) : splitOn sep cs = cs.splitOn sep := by
  induction cs with
  | nil => rfl
  | cons c cs ih =>
    rw [List.splitOn_cons_eq_if_modifyHead, splitOn, ← ih]
    obtain ⟨piece, pieces, hpieces⟩ := List.exists_cons_of_ne_nil (splitOn_ne_nil sep cs)
    rw [hpieces]
    by_cases hc : c = sep
    · rw [if_pos hc, if_pos (beq_iff_eq.mpr hc)]
    · rw [if_neg hc, if_neg (mt beq_iff_eq.mp hc)]
      rfl

/-- **A separator splits a text.** -/
theorem splitOn_append_cons (sep : Char) (a b : List Char) :
    splitOn sep (a ++ sep :: b) = splitOn sep a ++ splitOn sep b := by
  induction a with
  | nil => simp [splitOn]
  | cons c a ih =>
    obtain ⟨piece, pieces, hpieces⟩ := List.exists_cons_of_ne_nil (splitOn_ne_nil sep a)
    rw [List.cons_append, splitOn, splitOn, ih, hpieces]
    split <;> rfl

/-- A text without separator is one piece. -/
theorem splitOn_of_notMem {sep : Char} {cs : List Char} (h : sep ∉ cs) :
    splitOn sep cs = [cs] := by
  induction cs with
  | nil => rfl
  | cons c cs ih =>
    have hc : c ≠ sep := fun heq => h (heq ▸ List.mem_cons_self)
    rw [splitOn, if_neg hc, ih fun hm => h (List.mem_cons_of_mem c hm)]

/-- No piece of a text holds the separator. -/
theorem notMem_of_mem_splitOn {sep : Char} {cs piece : List Char} (h : piece ∈ splitOn sep cs) :
    sep ∉ piece := by
  induction cs generalizing piece with
  | nil =>
    rw [List.mem_singleton.mp h]
    exact List.not_mem_nil
  | cons c cs ih =>
    rw [splitOn] at h
    split at h
    · rcases List.mem_cons.mp h with rfl | h
      · exact List.not_mem_nil
      · exact ih h
    · rename_i hc
      have hcons : ∀ first, sep ∉ first → sep ∉ c :: first := by
        intro first hfirst hmem
        rcases List.mem_cons.mp hmem with heq | hmem
        · exact hc heq.symm
        · exact hfirst hmem
      split at h
      · rw [List.mem_singleton.mp h]
        exact hcons [] List.not_mem_nil
      · rename_i first pieces hsplit
        rcases List.mem_cons.mp h with rfl | h
        · exact hcons first (ih (hsplit ▸ List.mem_cons_self))
        · exact ih (hsplit ▸ List.mem_cons_of_mem first h)

end Chars

end RpcDaemon
