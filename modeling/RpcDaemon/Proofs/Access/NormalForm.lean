import RpcDaemon.Proofs.Access.Patterns

/-!
# Addresses in normal form

A version 4 address stands within version 6 in two places: as a mapped address `::ffff:a.b.c.d`, and
as a compatible address `::a.b.c.d`, where the two smallest are left out because they are `::` and
`::1`. The normal form leads back from both places and leaves all else as it is, and the client
filter sees the normal form only. Main statement: `normalize_undoes_embeddings`.
-/

namespace RpcDaemon

namespace Net

/-! ## Groups of two octets -/

/-- Two octets as one group. -/
def group (high low : UInt8) : UInt16 :=
  UInt16.ofNat (high.toNat * 256 + low.toNat)

theorem toNat_group (high low : UInt8) : (group high low).toNat = high.toNat * 256 + low.toNat := by
  have hh := high.toNat_lt
  have hl := low.toNat_lt
  rw [group, UInt16.toNat_ofNat']
  omega

/-- The first octet of a group. -/
theorem high_group (high low : UInt8) : UInt8.ofNat ((group high low).toNat / 256) = high := by
  have hl := low.toNat_lt
  rw [toNat_group, show (high.toNat * 256 + low.toNat) / 256 = high.toNat by omega,
    UInt8.ofNat_toNat]

/-- The second octet of a group. -/
theorem low_group (high low : UInt8) : UInt8.ofNat ((group high low).toNat % 256) = low := by
  have hl := low.toNat_lt
  rw [toNat_group, show (high.toNat * 256 + low.toNat) % 256 = low.toNat by omega,
    UInt8.ofNat_toNat]

/-! ## The two places of a version 4 address -/

namespace V4

/-- The mapped address `::ffff:a.b.c.d`. -/
def mapped (q : V4) : V6 :=
  ⟨0, 0, 0, 0, 0, 0xFFFF, group q.a q.b, group q.c q.d⟩

/-- The address `::a.b.c.d`. -/
def compatible (q : V4) : V6 :=
  ⟨0, 0, 0, 0, 0, 0, group q.a q.b, group q.c q.d⟩

/-- The addresses 0.0.0.0 and 0.0.0.1, in whose second places `::` and `::1` stand. -/
def IsReserved (q : V4) : Prop :=
  q = ⟨0, 0, 0, 0⟩ ∨ q = ⟨0, 0, 0, 1⟩

instance (q : V4) : Decidable q.IsReserved :=
  inferInstanceAs (Decidable (q = ⟨0, 0, 0, 0⟩ ∨ q = ⟨0, 0, 0, 1⟩))

theorem tail_mapped (q : V4) : q.mapped.tail = q := by
  simp only [mapped, V6.tail, high_group, low_group]

theorem tail_compatible (q : V4) : q.compatible.tail = q := by
  simp only [compatible, V6.tail, high_group, low_group]

/-- The reserved addresses are the least two. -/
theorem isReserved_iff (q : V4) : q.IsReserved ↔ group q.a q.b = 0 ∧ group q.c q.d ≤ 1 := by
  obtain ⟨a, b, c, d⟩ := q
  simp only [IsReserved, mk.injEq, UInt16.le_iff_toNat_le, ← UInt16.toNat_inj, toNat_group,
    ← UInt8.toNat_inj, UInt8.toNat_zero, UInt8.toNat_one, UInt16.toNat_zero, UInt16.toNat_one]
  omega

end V4

namespace V6

/-- **The mapped address of `q`** is the only one that ends with the octets of `q`. -/
theorem isMapped_tail_iff (ip : V6) (q : V4) :
    ip.isMapped = true ∧ ip.tail = q ↔ ip = q.mapped := by
  constructor
  · rintro ⟨hmapped, htail⟩
    obtain ⟨h6, h7⟩ := tail_injective (htail.trans q.tail_mapped.symm)
    refine ((isMapped_iff ip).mp hmapped).trans ?_
    rw [h6, h7]
    rfl
  · rintro rfl
    exact ⟨rfl, q.tail_mapped⟩

/-- The addresses `::a.b.c.d` are taken as compatible unless they are `::` or `::1`. -/
theorem isCompatible_compatible_iff (q : V4) :
    q.compatible.isCompatible = true ↔ ¬ q.IsReserved := by
  have hlast : q.compatible.isCompatible = !(group q.a q.b == 0 && group q.c q.d ≤ 1) := rfl
  rw [hlast, q.isReserved_iff, Bool.not_eq_true', ← Bool.not_eq_true, Bool.and_eq_true, beq_iff_eq,
    decide_eq_true_iff]

/-- **The compatible address of `q`** is the only one that ends with the octets of `q`. -/
theorem isCompatible_tail_iff (ip : V6) (q : V4) :
    ip.isCompatible = true ∧ ip.tail = q ↔ ip = q.compatible ∧ ¬ q.IsReserved := by
  constructor
  · rintro ⟨hcompatible, htail⟩
    obtain ⟨h6, h7⟩ := tail_injective (htail.trans q.tail_compatible.symm)
    have hip : ip = q.compatible := by
      refine (eq_of_isCompatible hcompatible).trans ?_
      rw [h6, h7]
      rfl
    exact ⟨hip, (isCompatible_compatible_iff q).mp (hip ▸ hcompatible)⟩
  · rintro ⟨rfl, hreserved⟩
    exact ⟨(isCompatible_compatible_iff q).mpr hreserved, q.tail_compatible⟩

end V6

/-! ## The normal form -/

namespace Address

/-- The address stands for the version 4 address `q`: it is `q`, or in one of the places of `q`. -/
def StandsFor (x : Address) (q : V4) : Prop :=
  x = .v4 q ∨ x = .v6 q.mapped ∨ x = .v6 q.compatible ∧ ¬ q.IsReserved

/-- **The normal form is `q` for the addresses that stand for `q`** and for no others. -/
theorem normalize_eq_v4_iff (x : Address) (q : V4) : x.normalize = .v4 q ↔ x.StandsFor q := by
  constructor
  · intro h
    cases x with
    | v4 ip => exact Or.inl h
    | v6 ip =>
      rw [normalize] at h
      split at h
      · rename_i hplace
        have htail : ip.tail = q := v4.inj h
        rw [Bool.or_eq_true] at hplace
        rcases hplace with hm | hc
        · exact Or.inr (Or.inl (congrArg v6 ((V6.isMapped_tail_iff ip q).mp ⟨hm, htail⟩)))
        · obtain ⟨hip, hreserved⟩ := (V6.isCompatible_tail_iff ip q).mp ⟨hc, htail⟩
          exact Or.inr (Or.inr ⟨congrArg v6 hip, hreserved⟩)
      · cases h
  · rintro (rfl | rfl | ⟨rfl, hreserved⟩)
    · rfl
    · obtain ⟨hm, htail⟩ := (V6.isMapped_tail_iff q.mapped q).mpr rfl
      rw [normalize, hm, htail]
      rfl
    · obtain ⟨hc, htail⟩ := (V6.isCompatible_tail_iff q.compatible q).mpr ⟨rfl, hreserved⟩
      rw [normalize, hc, htail, Bool.or_true]
      rfl

/-- A normal form of version 6 is the address itself. -/
theorem eq_of_normalize_eq_v6 {x : Address} {ip : V6} (h : x.normalize = .v6 ip) : x = .v6 ip := by
  cases x with
  | v4 q => cases h
  | v6 ip' =>
    rw [normalize] at h
    split at h
    · cases h
    · exact h

/-- **An address that stands for no version 4 address is left as it is.** -/
theorem normalize_of_not_standsFor {x : Address} (h : ∀ q, ¬ x.StandsFor q) : x.normalize = x := by
  cases hx : x.normalize with
  | v4 q => exact absurd ((normalize_eq_v4_iff x q).mp hx) (h q)
  | v6 ip => exact (eq_of_normalize_eq_v6 hx).symm

/-- The normal form is in normal form. -/
theorem normalize_normalize (x : Address) : x.normalize.normalize = x.normalize := by
  cases hx : x.normalize with
  | v4 q => rfl
  | v6 ip => exact eq_of_normalize_eq_v6 hx ▸ hx

/-- A normal form is in neither place of a version 4 address. -/
theorem normalize_ne_place (x : Address) (q : V4) :
    x.normalize ≠ .v6 q.mapped ∧ (x.normalize = .v6 q.compatible → q.IsReserved) := by
  have hnot : ∀ ip : V6, x.normalize = .v6 ip → ¬ (Address.v6 ip).StandsFor q := by
    intro ip h hstands
    have hv4 := (normalize_eq_v4_iff (.v6 ip) q).mpr hstands
    rw [← h, normalize_normalize, h] at hv4
    cases hv4
  refine ⟨fun h => hnot _ h (Or.inr (Or.inl rfl)), fun h => ?_⟩
  exact Decidable.not_not.mp fun hreserved => hnot _ h (Or.inr (Or.inr ⟨rfl, hreserved⟩))

end Address

end Net

/-- The filter judges an address by its normal form. -/
theorem AllowList.allows_normalize (l : AllowList) (x : Net.Address) :
    l.allows x.normalize = l.allows x := by
  rw [allows, allows, x.normalize_normalize]

/-- Addresses with one normal form are judged alike. -/
theorem AllowList.allows_congr (l : AllowList) {x y : Net.Address}
    (h : x.normalize = y.normalize) : l.allows x = l.allows y := by
  rw [← l.allows_normalize x, ← l.allows_normalize y, h]

namespace Net

namespace Address

/-- **The normal form leads back from both places of a version 4 address**, and from nowhere else.
It is `q` exactly for `q` itself, for the mapped address of `q`, and for the compatible one unless
that is `::` or `::1`; every other address is left as it is. So a normal form is in normal form, and
it is no mapped address, and no compatible one but `::` and `::1`. Every client filter gives the
same answer for addresses with one normal form, so an address of version 4 stands no better and no
worse in either of its places. -/
theorem normalize_undoes_embeddings (x : Address) :
    (∀ q : V4, x.normalize = .v4 q ↔
      x = .v4 q ∨ x = .v6 q.mapped ∨ x = .v6 q.compatible ∧ q ≠ ⟨0, 0, 0, 0⟩ ∧ q ≠ ⟨0, 0, 0, 1⟩) ∧
    (x.normalize = x ↔ ∀ q : V4, x ≠ .v6 q.mapped ∧
      (x = .v6 q.compatible → q = ⟨0, 0, 0, 0⟩ ∨ q = ⟨0, 0, 0, 1⟩)) ∧
    x.normalize.normalize = x.normalize ∧
    (∀ q : V4, x.normalize ≠ .v6 q.mapped) ∧
    (∀ q : V4, x.normalize = .v6 q.compatible →
      x.normalize = .v6 ⟨0, 0, 0, 0, 0, 0, 0, 0⟩ ∨ x.normalize = .v6 ⟨0, 0, 0, 0, 0, 0, 0, 1⟩) ∧
    (∀ (l : AllowList) (y : Address), x.normalize = y.normalize → l.allows x = l.allows y) ∧
    ∀ (l : AllowList) (q : V4), l.allows (.v6 q.mapped) = l.allows (.v4 q) ∧
      (q ≠ ⟨0, 0, 0, 0⟩ → q ≠ ⟨0, 0, 0, 1⟩ →
        l.allows (.v6 q.compatible) = l.allows (.v4 q)) := by
  refine ⟨?_, ⟨?_, ?_⟩, x.normalize_normalize, fun q => (x.normalize_ne_place q).1, ?_,
    fun l y h => l.allows_congr h, ?_⟩
  · intro q
    rw [x.normalize_eq_v4_iff q, StandsFor, V4.IsReserved, not_or]
  · intro h q
    have hplace := x.normalize_ne_place q
    rw [h] at hplace
    exact hplace
  · intro h
    cases x with
    | v4 q => rfl
    | v6 ip =>
      refine normalize_of_not_standsFor ?_
      rintro q (hself | hmapped | ⟨hcompatible, hreserved⟩)
      · cases hself
      · exact (h q).1 hmapped
      · exact hreserved ((h q).2 hcompatible)
  · intro q h
    rw [h]
    rcases (x.normalize_ne_place q).2 h with rfl | rfl
    · exact Or.inl rfl
    · exact Or.inr rfl
  · intro l q
    refine ⟨l.allows_congr ?_, fun hzero hone => l.allows_congr ?_⟩
    · exact (normalize_eq_v4_iff _ q).mpr (Or.inr (Or.inl rfl))
    · exact (normalize_eq_v4_iff _ q).mpr (Or.inr (Or.inr ⟨rfl, not_or.mpr ⟨hzero, hone⟩⟩))

/-- The least address that is compatible, and one that is reserved. -/
example :
    (Address.v6 ⟨0, 0, 0, 0, 0, 0, 0, 2⟩).normalize = .v4 ⟨0, 0, 0, 2⟩ ∧
      (Address.v6 ⟨0, 0, 0, 0, 0, 0, 0, 1⟩).normalize = .v6 ⟨0, 0, 0, 0, 0, 0, 0, 1⟩ ∧
      (Address.v6 ⟨0, 0, 0, 0, 0, 0xFFFF, 0, 1⟩).normalize = .v4 ⟨0, 0, 0, 1⟩ := by
  decide

end Address

end Net

end RpcDaemon
