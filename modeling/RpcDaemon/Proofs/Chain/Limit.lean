import RpcDaemon.Proofs.Chain.Compact

/-!
# Shifted limits

The limit of the proof of work is the greatest number of 256 bits, shifted right. It is put together
from bytes: zeros, one byte that is shifted itself, and bytes that stay as they are. Main statement:
`shifted_law`.
-/

namespace RpcDaemon

namespace Chain

/-- A number of ones shifted right has as many ones less. -/
theorem two_pow_sub_one_div (a b : Nat) : (2 ^ a - 1) / 2 ^ b = 2 ^ (a - b) - 1 := by
  have hpos : 0 < 2 ^ b := Nat.two_pow_pos b
  rcases Nat.le_total b a with hle | hle
  · have hpow : 2 ^ a = 2 ^ b * 2 ^ (a - b) := by
      rw [← pow_add, Nat.add_sub_cancel' hle]
    have hone : 0 < 2 ^ (a - b) := Nat.two_pow_pos _
    have hsplit : 2 ^ a - 1 = (2 ^ b - 1) + 2 ^ b * (2 ^ (a - b) - 1) := by
      rw [hpow, Nat.mul_sub_one]
      have := Nat.le_mul_of_pos_right (2 ^ b) hone
      omega
    rw [hsplit, Nat.add_mul_div_left _ _ hpos, Nat.div_eq_of_lt (by omega), Nat.zero_add]
  · have hpow : 2 ^ a ≤ 2 ^ b := Nat.pow_le_pow_right (by decide) hle
    rw [Nat.sub_eq_zero_of_le hle, Nat.div_eq_of_lt (by omega)]
    rfl

namespace Target

open RpcDaemon.Chain.Compact

/-! ## The bytes of a limit -/

/-- The byte between the zeros and the ones. -/
def middle (shift : UInt32) : UInt8 :=
  UInt8.ofNat (255 / 2 ^ (shift.toNat % 8))

theorem toNat_middle (shift : UInt32) : (middle shift).toNat = 255 / 2 ^ (shift.toNat % 8) := by
  have hle : 255 / 2 ^ (shift.toNat % 8) ≤ 255 := Nat.div_le_self _ _
  rw [middle, UInt8.toNat_ofNat']
  exact Nat.mod_eq_of_lt (Nat.lt_of_le_of_lt hle (by decide))

theorem getElem_shifted (shift : UInt32) (i : Nat) (hi : i < 32) :
    (shifted shift)[i] =
      if i < shift.toNat / 8 then 0 else if i = shift.toNat / 8 then middle shift else 255 :=
  Vector.getElem_ofFn hi

theorem shifted_of_le {shift : UInt32} (h : 256 ≤ shift.toNat) :
    shifted shift = Vector.replicate 32 0 := by
  refine Vector.ext fun i hi => ?_
  rw [getElem_shifted, if_pos (by omega), Vector.getElem_replicate]

/-- Zeros, one byte, and ones. -/
theorem toList_shifted {shift : UInt32} (h : shift.toNat / 8 < 32) :
    (shifted shift).toList =
      List.replicate (shift.toNat / 8) 0 ++
        middle shift :: List.replicate (31 - shift.toNat / 8) 255 := by
  refine List.ext_getElem ?_ fun i hi _ => ?_
  · rw [Vector.length_toList, List.length_append, List.length_cons, List.length_replicate,
      List.length_replicate]
    omega
  · rw [Vector.getElem_toList, getElem_shifted]
    rcases Nat.lt_or_ge i (shift.toNat / 8) with hlt | hge
    · rw [if_pos hlt, List.getElem_append_left (by rwa [List.length_replicate]),
        List.getElem_replicate]
    · rw [if_neg (Nat.not_lt.mpr hge),
        List.getElem_append_right (by rwa [List.length_replicate]), List.getElem_cons]
      by_cases heq : i = shift.toNat / 8
      · rw [if_pos heq, dif_pos (by rw [List.length_replicate]; omega)]
      · rw [if_neg heq, dif_neg (by rw [List.length_replicate]; omega), List.getElem_replicate]

/-- **The limit is the greatest number of 256 bits, divided.** -/
theorem toNat_shifted (shift : UInt32) :
    (shifted shift).toNat = (2 ^ 256 - 1) / 2 ^ shift.toNat := by
  rw [two_pow_sub_one_div]
  rcases Nat.lt_or_ge shift.toNat 256 with hlt | hge
  · have hones := bigEndian_replicate_max (31 - shift.toNat / 8)
    have hmiddle : (middle shift).toNat + 1 = 2 ^ (8 - shift.toNat % 8) := by
      rw [toNat_middle, show 255 = 2 ^ 8 - 1 from rfl, two_pow_sub_one_div]
      exact Nat.sub_add_cancel (Nat.two_pow_pos _)
    have hpow : 2 ^ (256 - shift.toNat) =
        2 ^ (8 - shift.toNat % 8) * 256 ^ (31 - shift.toNat / 8) := by
      rw [show 256 = 2 ^ 8 from rfl, ← pow_mul, ← pow_add]
      congr 1
      omega
    rw [toNat_eq, toList_shifted (by omega), bigEndian_replicate_zero_append, bigEndian_cons,
      List.length_replicate, hpow, ← hmiddle, ← hones, Nat.succ_mul]
    omega
  · rw [shifted_of_le hge, Nat.sub_eq_zero_of_le hge]
    rfl

/-! ## Every step in its range -/

/-- A byte shifted right, by less than its width. -/
def shiftRight? (b : UInt8) (n : UInt32) : Option UInt8 :=
  if n.toNat < 8 then some (b >>> n.toUInt8) else none

/-- A target with one byte put in its place, if there is such a place. -/
def set? (t : Target) (i : Nat) (b : UInt8) : Option Target :=
  if h : i < 32 then some (t.set i b h) else none

/-- **The limit step by step**: ones, the first of them cleared, and then the one byte in between.
There is no result if a shift or a place is out of its range. -/
def shifted? (shift : UInt32) : Option Target := do
  let whole := (shift / 8).toNat
  let cleared : Target :=
    (Vector.replicate 32 255).mapIdx fun i b => if i < min whole 32 then 0 else b
  if whole < 32 then
    set? cleared whole (← shiftRight? 255 (shift % 8))
  else return cleared

/-- The byte in between is shifted by less than its width. -/
theorem shiftRight?_eq (shift : UInt32) : shiftRight? 255 (shift % 8) = some (middle shift) := by
  have hmod : (shift % 8).toNat = shift.toNat % 8 := UInt32.toNat_mod shift 8
  have hlt : shift.toNat % 8 < 8 := Nat.mod_lt _ (by decide)
  have hshift : (shift % 8).toUInt8.toNat % 8 = shift.toNat % 8 := by
    rw [UInt32.toNat_toUInt8, hmod]
    omega
  rw [shiftRight?, hmod, if_pos hlt, Option.some.injEq, ← UInt8.toNat_inj, toNat_middle,
    UInt8.toNat_shiftRight, hshift]
  exact Nat.shiftRight_eq_div_pow _ _

/-- **No shift and no place is out of its range.** -/
theorem shifted?_eq (shift : UInt32) : shifted? shift = some (shifted shift) := by
  have hwhole : (shift / 8).toNat = shift.toNat / 8 := UInt32.toNat_div shift 8
  rw [shifted?, hwhole, shiftRight?_eq]
  by_cases h : shift.toNat / 8 < 32
  · rw [if_pos h, Option.bind_eq_bind, Option.bind_some, set?, dif_pos h, Option.some.injEq]
    refine Vector.ext fun i hi => ?_
    rw [Vector.getElem_set, getElem_shifted, Vector.getElem_mapIdx, Vector.getElem_replicate]
    rcases Nat.lt_trichotomy i (shift.toNat / 8) with hlt | heq | hgt
    · rw [if_neg (by omega), if_pos (by omega), if_pos hlt]
    · rw [if_pos heq.symm, if_neg (by omega), if_pos heq]
    · rw [if_neg (by omega), if_neg (by omega), if_neg (by omega), if_neg (by omega)]
  · rw [if_neg h]
    refine congrArg some (Vector.ext fun i hi => ?_)
    rw [getElem_shifted, Vector.getElem_mapIdx, if_pos (by omega), if_pos (by omega)]

/-- **The limit shifted by any number of bits.** No shift and no place is out of its range, and the
number is the greatest one of 256 bits divided by the power of two. So it is made of ones for a
shift by nothing, is zero from 256 bits on, and grows with no shift. Below 256 bits its compact form
stands for no more than the limit and for more than half of it. -/
theorem shifted_law (shift : UInt32) :
    shifted? shift = some (shifted shift) ∧
      (shifted shift).toNat = (2 ^ 256 - 1) / 2 ^ shift.toNat ∧
      shifted 0 = Vector.replicate 32 255 ∧
      (256 ≤ shift.toNat → shifted shift = Vector.replicate 32 0) ∧
      (∀ further : UInt32, shift ≤ further →
        (shifted further).toNat ≤ (shifted shift).toNat) ∧
      (shift.toNat < 256 →
        decoded (shifted shift).compact ≤ (shifted shift).toNat ∧
          (shifted shift).toNat < 2 * decoded (shifted shift).compact) := by
  have hcut := (shifted shift).truncates_compact
  refine ⟨shifted?_eq shift, toNat_shifted shift, ?_, shifted_of_le, ?_, ?_⟩
  · refine Vector.ext fun i hi => ?_
    rw [getElem_shifted, Vector.getElem_replicate, UInt32.toNat_zero, Nat.zero_div,
      if_neg (Nat.not_lt_zero i)]
    exact ite_eq_right_iff.mpr fun _ => rfl
  · intro further hle
    rw [toNat_shifted, toNat_shifted]
    exact Nat.div_le_div_left
      (Nat.pow_le_pow_right (by decide) (UInt32.le_iff_toNat_le.mp hle)) (Nat.two_pow_pos _)
  · intro hlt
    have hpos : 0 < (shifted shift).toNat := by
      rw [toNat_shifted, two_pow_sub_one_div]
      exact Nat.sub_pos_of_lt (Nat.one_lt_two_pow (by omega))
    exact ⟨hcut.decoded_le, hcut.lt_two_mul_decoded hpos⟩

/-- The ceiling of the main network. -/
example : (shifted 20).compact = 0x1e0fffff := by decide

end Target

end Chain

end RpcDaemon
