import RpcDaemon.Service.Listening

/-!
# Where a machine listens

A port has one place for each version of addresses. The place of version 6 is asked for first; that of
version 4 is asked for too at loopback addresses, and where the first one is refused or may not serve
both versions. What is asked for and granted is listened at. Main statements: `mem_bind_iff` and
`bind_ne_nil_iff`.
-/

namespace RpcDaemon

namespace Machine

variable {m : Machine} {port : UInt16} {loopback : Bool} {e : Net.Endpoint}

/-- The machine grants the place of a port, of one version or the other. -/
def Grants (m : Machine) (port : UInt16) (loopback : Bool) : Prop :=
  (m.listen? (.six port loopback) loopback).isSome ∨ (m.listen? (.four port loopback) false).isSome

/-- **The places that are asked for and granted.** -/
inductive Listens (m : Machine) (port : UInt16) (loopback : Bool) : Net.Endpoint → Prop
  /-- That of version 6 is always asked for. -/
  | six (hgranted : (m.listen? (.six port loopback) loopback).isSome) :
      m.Listens port loopback (.six port loopback)
  /-- That of version 4 is asked for at loopback addresses, and also where version 6 is refused or the
  choice about its socket could not be made. -/
  | four (hasked : loopback = true ∨ m.listen? (.six port loopback) loopback ≠ some false)
      (hgranted : (m.listen? (.four port loopback) false).isSome) :
      m.Listens port loopback (.four port loopback)

/-- All of them are places of the port. -/
theorem Listens.port_eq (h : m.Listens port loopback e) : e.port = port := by
  cases h with
  | six => rfl
  | four => rfl

theorem mem_bindFour_iff : e ∈ m.bindFour port loopback ↔
    e = .four port loopback ∧ (m.listen? (.four port loopback) false).isSome := by
  unfold bindFour
  split
  · rename_i hgranted
    rw [List.mem_singleton, and_iff_left hgranted]
  · rename_i hrefused
    exact ⟨fun he => absurd he List.not_mem_nil, fun he => absurd he.2 hrefused⟩

/-- **A machine listens at the places that it is asked for and grants**, and nowhere else. -/
theorem mem_bind_iff : e ∈ m.bind port loopback ↔ m.Listens port loopback e := by
  unfold bind
  constructor
  · intro he
    split at he
    · rename_i unchosen hsix
      rcases List.mem_cons.mp he with rfl | he
      · exact .six (Option.isSome_of_eq_some hsix)
      · split at he
        · rename_i hasked
          obtain ⟨rfl, hgranted⟩ := mem_bindFour_iff.mp he
          refine .four ?_ hgranted
          rw [hsix]
          simpa using hasked
        · cases he
    · rename_i hsix
      obtain ⟨rfl, hgranted⟩ := mem_bindFour_iff.mp he
      have hrefused : m.listen? (.six port loopback) loopback ≠ some false := by simp [hsix]
      exact .four (Or.inr hrefused) hgranted
  · intro h
    cases h with
    | six hgranted =>
      obtain ⟨unchosen, hsix⟩ := Option.isSome_iff_exists.mp hgranted
      rw [hsix]
      exact List.mem_cons_self
    | four hasked hgranted =>
      have hfour := mem_bindFour_iff.mpr ⟨rfl, hgranted⟩
      cases hsix : m.listen? (.six port loopback) loopback with
      | none => exact hfour
      | some unchosen =>
        rw [hsix] at hasked
        dsimp only
        rw [if_pos (by simpa using hasked)]
        exact List.mem_cons_of_mem _ hfour

/-- **It listens somewhere exactly if it grants a place of the port.** -/
theorem bind_ne_nil_iff : m.bind port loopback ≠ [] ↔ m.Grants port loopback := by
  constructor
  · intro hne
    obtain ⟨e, he⟩ := List.exists_mem_of_ne_nil _ hne
    cases mem_bind_iff.mp he with
    | six hgranted => exact Or.inl hgranted
    | four _ hgranted => exact Or.inr hgranted
  · intro hgrants
    by_cases hsix : (m.listen? (.six port loopback) loopback).isSome
    · exact List.ne_nil_of_mem (mem_bind_iff.mpr (.six hsix))
    · -- Version 4 is asked for, since version 6 is refused.
      have hasked : m.listen? (.six port loopback) loopback ≠ some false := by
        intro heq
        exact hsix (Option.isSome_of_eq_some heq)
      exact List.ne_nil_of_mem (mem_bind_iff.mpr (.four (Or.inr hasked) (hgrants.resolve_left hsix)))

end Machine

end RpcDaemon
