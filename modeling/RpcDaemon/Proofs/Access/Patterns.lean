import RpcDaemon.Proofs.Access.AllowList
import RpcDaemon.Proofs.Net.Text

/-!
# Addresses and subnets as patterns

The text of an address is a pattern that covers no other address. A few octets with a star behind
them cover the version 4 addresses that start with these octets, and no text of version 6, which has
no points unless it is that of a mapped address. Main statement: `allows_literal_and_subnet`.
-/

namespace RpcDaemon

open Net (Address V4 V6 dotted)

/-! ## Normal forms -/

/-- An address that stays one of version 6 is not a mapped one. -/
theorem Net.Address.isMapped_of_normalize {x : Address} {ip : V6} (h : x.normalize = .v6 ip) :
    ip.isMapped = false := by
  cases x with
  | v4 q => cases h
  | v6 q =>
    rw [normalize] at h
    split at h
    · cases h
    · rename_i hplain
      cases h
      rw [Bool.or_eq_true, not_or, Bool.not_eq_true] at hplain
      exact hplain.1

/-- Compatible addresses are told by their last two groups. -/
theorem Net.V6.eq_of_isCompatible {ip : V6} (h : ip.isCompatible = true) :
    ip = ⟨0, 0, 0, 0, 0, 0, ip.g6, ip.g7⟩ := by
  obtain ⟨g0, g1, g2, g3, g4, g5, g6, g7⟩ := ip
  simp only [isCompatible, Bool.and_eq_true, beq_iff_eq] at h
  obtain ⟨⟨⟨⟨⟨⟨rfl, rfl⟩, rfl⟩, rfl⟩, rfl⟩, rfl⟩, -⟩ := h
  rfl

/-! ## Subnets -/

/-- A subnet of version 4: one to three octets at the front of an address. -/
structure Subnet where
  /-- The octets. -/
  octets : List UInt8
  /-- There is at least one. -/
  ne_nil : octets ≠ []
  /-- There are at most three. -/
  length_le : octets.length ≤ 3

namespace Subnet

/-- The pattern of a subnet: the octets, each with a point behind it, and a star. -/
def pattern (s : Subnet) : String :=
  String.ofList (dotted s.octets ++ ['*'])

/-- The address starts with the octets. -/
def Contains (s : Subnet) (ip : V4) : Prop :=
  s.octets <+: [ip.a, ip.b, ip.c, ip.d]

/-- The fourth octet does not matter. -/
theorem contains_iff (s : Subnet) (ip : V4) : s.Contains ip ↔ s.octets <+: [ip.a, ip.b, ip.c] := by
  have hfirst : [ip.a, ip.b, ip.c] <+: [ip.a, ip.b, ip.c, ip.d] := ⟨[ip.d], rfl⟩
  exact ⟨fun h => List.prefix_of_prefix_length_le h hfirst s.length_le, fun h => h.trans hfirst⟩

/-- Octets with points have nothing that is special in a pattern. -/
theorem literal_dotted (octets : List UInt8) : Glob.Literal (Utf8.encode (dotted octets)) := by
  have hchar : ∀ c ∈ dotted octets, Net.IsTextual c := by
    intro c h
    obtain ⟨o, -, h⟩ := List.mem_flatMap.mp h
    rcases List.mem_append.mp h with h | h
    · exact Net.isTextual_of_mem_decimal h
    · exact List.mem_singleton.mp h ▸ by decide
  constructor
  · intro h
    exact absurd (hchar _ (Utf8.mem_of_mem_encode (by decide) h)) (by decide)
  · intro h
    exact absurd (hchar _ (Utf8.mem_of_mem_encode (by decide) h)) (by decide)

/-- The pattern covers the addresses whose text starts with the octets. -/
theorem covers_pattern_iff (s : Subnet) (ip : Address) :
    Glob.Covers (Utf8.ofString s.pattern) (Utf8.ofString ip.text) ↔
      dotted s.octets <+: ip.chars := by
  have hpattern : Utf8.ofString s.pattern = Utf8.encode (dotted s.octets) ++ [Glob.star] := by
    rw [Utf8.ofString, pattern, String.toList_ofList, Utf8.encode_append]
    rfl
  rw [hpattern, Glob.covers_literal_star_iff (literal_dotted s.octets), ip.ofString_text,
    Utf8.encode_prefix_iff]

/-- **Among addresses in normal form** the text of one of version 4 starts with the octets if the
address does, and no text of version 6 does. -/
theorem dotted_prefix_chars_iff (s : Subnet) {x ip : Address} (hnormal : x.normalize = ip) :
    dotted s.octets <+: ip.chars ↔ ∃ q, ip = .v4 q ∧ s.Contains q := by
  cases ip with
  | v4 q =>
    have hq : dotted s.octets <+: q.chars ↔ s.Contains q := by
      rw [V4.chars_eq_dotted, Net.dotted_prefix_iff (Numeral.notMem_ofNat (by decide) _),
        contains_iff]
    simp only [Address.v4.injEq, exists_eq_left']
    exact hq
  | v6 q =>
    -- The octets have a point behind them, and the text of such an address has none.
    refine iff_of_false (fun h => ?_) (by simp)
    obtain ⟨o, octets, hoctets⟩ := List.exists_cons_of_ne_nil s.ne_nil
    have hpoint : '.' ∈ q.chars := by
      refine h.subset ?_
      rw [hoctets, Net.dotted_cons]
      exact List.mem_append_right _ List.mem_cons_self
    rw [V6.point_mem_chars_iff, Net.Address.isMapped_of_normalize hnormal] at hpoint
    cases hpoint

end Subnet

/-! ## Lists with one pattern -/

namespace AllowList

/-- A list with one pattern lets in the machine itself and whom the pattern covers. -/
theorem allows_single_iff (p : String) (x : Address) :
    (AllowList.mk [p]).allows x = true ↔
      x.normalize.Loopback ∨ Glob.Covers (Utf8.ofString p) (Utf8.ofString x.normalize.text) := by
  rw [allows, Bool.or_eq_true, Net.Address.isLoopback_iff]
  simp only [List.any_cons, List.any_nil, Bool.or_false]
  rw [Glob.covers, Glob.matchBytes_iff x.normalize.star_notMem_text]

/-- **An address as a pattern** lets in itself and the machine itself. -/
theorem allows_address_iff (a b : Address) :
    (AllowList.mk [a.normalize.text]).allows b = true ↔
      b.normalize.Loopback ∨ b.normalize = a.normalize := by
  rw [allows_single_iff, Glob.covers_literal_iff a.normalize.literal_text]
  refine or_congr_right ⟨fun h => ?_, fun h => by rw [h]⟩
  rw [Net.Address.ofString_text, Net.Address.ofString_text] at h
  exact Net.Address.chars_injective (Utf8.encode_injective h)

/-- **A subnet as a pattern** lets in its addresses and the machine itself. -/
theorem allows_subnet_iff (s : Subnet) (x : Address) :
    (AllowList.mk [s.pattern]).allows x = true ↔
      x.normalize.Loopback ∨ ∃ ip, x.normalize = .v4 ip ∧ s.Contains ip := by
  rw [allows_single_iff, s.covers_pattern_iff, s.dotted_prefix_chars_iff rfl]

/-- **Addresses and subnets as patterns let in what they say.** The text of an address in normal
form lets in the machine itself and the addresses that have this normal form. The text of one to
three octets, each with a point behind it, and of a star lets in the machine itself and the
addresses whose normal form is one of version 4 that starts with these octets; of version 6 it lets
in none but those that may stand for one of version 4. -/
theorem allows_literal_and_subnet :
    (∀ a b : Address, (AllowList.mk [a.normalize.text]).allows b = true ↔
      b.normalize.Loopback ∨ b.normalize = a.normalize) ∧
    (∀ (s : Subnet) (x : Address), (AllowList.mk [s.pattern]).allows x = true ↔
      x.normalize.Loopback ∨ ∃ ip, x.normalize = .v4 ip ∧ s.Contains ip) ∧
    ∀ (s : Subnet) (ip : V6), (AllowList.mk [s.pattern]).allows (.v6 ip) = true →
      ∃ high low, ip = ⟨0, 0, 0, 0, 0, 0xFFFF, high, low⟩ ∨ ip = ⟨0, 0, 0, 0, 0, 0, high, low⟩ := by
  refine ⟨allows_address_iff, allows_subnet_iff, ?_⟩
  intro s ip hallows
  by_cases hmapped : ip.isMapped = true
  · exact ⟨_, _, Or.inl ((Net.V6.isMapped_iff ip).mp hmapped)⟩
  · by_cases hcompatible : ip.isCompatible = true
    · exact ⟨_, _, Or.inr (Net.V6.eq_of_isCompatible hcompatible)⟩
    · have hnormal : (Address.v6 ip).normalize = .v6 ip := by
        simp [Address.normalize, hmapped, hcompatible]
      rw [allows_subnet_iff, hnormal] at hallows
      -- An address that stays one of version 6 is let in as the machine itself only.
      rcases hallows with (⟨b, c, d, hv4⟩ | hv6) | ⟨q, hq, -⟩
      · cases hv4
      · cases hv6
        exact ⟨0, 1, Or.inr rfl⟩
      · cases hq

/-- Two octets with a star: an address within them, one that is mapped, and one outside. -/
example :
    let l : AllowList := ⟨[Subnet.pattern ⟨[10, 1], by decide, by decide⟩]⟩
    l.allows (.v4 ⟨10, 1, 200, 3⟩) = true ∧
      l.allows (.v6 ⟨0, 0, 0, 0, 0, 0xFFFF, 0x0A01, 0x0203⟩) = true ∧
      l.allows (.v4 ⟨10, 11, 2, 3⟩) = false := by
  decide

end AllowList

end RpcDaemon
