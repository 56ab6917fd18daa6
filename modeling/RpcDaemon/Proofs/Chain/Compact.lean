import Mathlib.Data.Nat.Bitwise
import RpcDaemon.Proofs.Chain.Target

/-!
# The compact form of a target

The compact form keeps the leading bytes of a target and how many bytes there are, `Truncates`. From
the number that is left the target is known up to the bytes that were cut off, and the order of the
targets is kept. Main statement: `compact_law`.
-/

namespace RpcDaemon

namespace Chain

/-! ## Leading bytes of a number -/

/-- **A number cut down to its leading bytes**: `m` is what is left of `v` without the last `e - 3`
of its bytes, or with `3 - e` bytes of zeros behind it. The number of bytes is such that the sign of
the mantissa is clear and no smaller one would do. -/
structure Truncates (v m e : Nat) : Prop where
  /-- The bytes that are left. -/
  eq : m = v * 256 ^ 3 / 256 ^ e
  /-- The sign stays clear. -/
  lt : m < 2 ^ 23
  /-- Nothing that there was room for is cut off. -/
  le : 0 < v → 2 ^ 15 ≤ m
  /-- Zero has no bytes. -/
  zero : v = 0 → e = 0

namespace Truncates

variable {v m e w n f : Nat}

/-- Cutting off makes nothing larger. -/
theorem mul_le (h : Truncates v m e) : m * 256 ^ e ≤ v * 256 ^ 3 := by
  rw [h.eq]
  exact Nat.div_mul_le_self _ _

/-- Less than one unit of the mantissa is cut off. -/
theorem lt_mul (h : Truncates v m e) : v * 256 ^ 3 < (m + 1) * 256 ^ e := by
  rw [h.eq, Nat.mul_comm (_ + 1)]
  exact Nat.lt_mul_div_succ _ (Nat.pow_pos (by decide))

/-- **Larger numbers have larger compact forms**: more bytes, or as many and a larger mantissa. -/
theorem packed_le (h : Truncates v m e) (h' : Truncates w n f) (hle : v ≤ w) :
    e * 2 ^ 24 + m ≤ f * 2 ^ 24 + n := by
  have hm := h.lt
  have hn := h'.lt
  rcases Nat.lt_trichotomy e f with hlt | rfl | hgt
  · omega
  · have hmn : m ≤ n := by
      rw [h.eq, h'.eq]
      exact Nat.div_le_div_right (Nat.mul_le_mul_right _ hle)
    omega
  · -- With fewer bytes the larger number would not reach the mantissa of the smaller one.
    have hv : 0 < v := Nat.pos_of_ne_zero fun hzero => by
      have := h.zero hzero
      omega
    have hstep : 256 ^ (f + 1) ≤ 256 ^ e := Nat.pow_le_pow_right (by decide) hgt
    have hcontra : v * 256 ^ 3 < v * 256 ^ 3 := calc
      v * 256 ^ 3 ≤ w * 256 ^ 3 := Nat.mul_le_mul_right _ hle
      _ < (n + 1) * 256 ^ f := h'.lt_mul
      _ ≤ 2 ^ 23 * 256 ^ f := Nat.mul_le_mul_right _ hn
      _ = 2 ^ 15 * 256 ^ (f + 1) := by ring
      _ ≤ m * 256 ^ e := Nat.mul_le_mul (h.le hv) hstep
      _ ≤ v * 256 ^ 3 := h.mul_le
    exact absurd hcontra (Nat.lt_irrefl _)

/-- A number is cut down in one way. -/
theorem unique (h : Truncates v m e) (h' : Truncates v n f) : m = n ∧ e = f := by
  have hle := h.packed_le h' (Nat.le_refl v)
  have hge := h'.packed_le h (Nat.le_refl v)
  have hm := h.lt
  have hn := h'.lt
  omega

/-- What a mantissa stands for comes out even: either there are three bytes at least, or nothing
was cut off. -/
theorem div_mul (h : Truncates v m e) : m * 256 ^ e / 256 ^ 3 * 256 ^ 3 = m * 256 ^ e := by
  refine Nat.div_mul_cancel ?_
  rcases Nat.le_total 3 e with he | he
  · exact Nat.dvd_mul_left_of_dvd (Nat.pow_dvd_pow 256 he) m
  · have hdvd : 256 ^ e ∣ v * 256 ^ 3 := Nat.dvd_mul_left_of_dvd (Nat.pow_dvd_pow 256 he) v
    rw [h.eq, Nat.div_mul_cancel hdvd]
    exact Nat.dvd_mul_left _ _

/-- What is left is cut down no further. -/
theorem of_decoded (h : Truncates v m e) : Truncates (m * 256 ^ e / 256 ^ 3) m e where
  eq := by
    rw [h.div_mul, Nat.mul_div_cancel _ (Nat.pow_pos (by decide))]
  lt := h.lt
  le := by
    intro hpos
    refine h.le (Nat.pos_of_ne_zero fun hzero => ?_)
    have hm : m = 0 := by rw [h.eq, hzero, Nat.zero_mul, Nat.zero_div]
    rw [hm, Nat.zero_mul, Nat.zero_div] at hpos
    exact Nat.lt_irrefl 0 hpos
  zero := by
    intro hzero
    have hmul := h.div_mul
    rw [hzero, Nat.zero_mul] at hmul
    refine h.zero (Nat.eq_zero_of_not_pos fun hv => ?_)
    have hm : 0 < m * 256 ^ e :=
      Nat.mul_pos (Nat.lt_of_lt_of_le (by decide) (h.le hv)) (Nat.pow_pos (by decide))
    omega

/-- What is left is at most the number. -/
theorem decoded_le (h : Truncates v m e) : m * 256 ^ e / 256 ^ 3 ≤ v := by
  refine Nat.le_of_mul_le_mul_right (c := 256 ^ 3) ?_ (by decide)
  rw [h.div_mul]
  exact h.mul_le

/-- What is left is more than half of the number. -/
theorem lt_two_mul_decoded (h : Truncates v m e) (hv : 0 < v) :
    v < 2 * (m * 256 ^ e / 256 ^ 3) := by
  refine Nat.lt_of_mul_lt_mul_right (a := 256 ^ 3) ?_
  have hm := h.le hv
  calc v * 256 ^ 3 < (m + 1) * 256 ^ e := h.lt_mul
    _ ≤ 2 * m * 256 ^ e := Nat.mul_le_mul_right _ (by omega)
    _ = 2 * (m * 256 ^ e / 256 ^ 3) * 256 ^ 3 := by rw [Nat.mul_assoc 2 (_ / _), h.div_mul]; ring

end Truncates

/-! ## The parts of a compact number -/

/-- Two words are put side by side if there is room for both. -/
theorem toNat_shiftLeft_or {high low n : UInt32} (hn : n.toNat < 32)
    (hlow : low.toNat < 2 ^ n.toNat) (hfits : high.toNat * 2 ^ n.toNat < 2 ^ 32) :
    ((high <<< n) ||| low).toNat = high.toNat * 2 ^ n.toNat + low.toNat := by
  have hshift : (high <<< n).toNat = high.toNat <<< n.toNat := by
    rw [UInt32.toNat_shiftLeft, Nat.mod_eq_of_lt hn]
    refine Nat.mod_eq_of_lt ?_
    rwa [Nat.shiftLeft_eq]
  rw [UInt32.toNat_or, hshift, ← Nat.shiftLeft_add_eq_or_of_lt hlow, Nat.shiftLeft_eq]

namespace Compact

/-- The low 24 bits of a compact number. -/
def mantissa (bits : UInt32) : Nat :=
  (bits &&& 0x00FFFFFF).toNat

/-- The top byte of a compact number. -/
def exponent (bits : UInt32) : Nat :=
  (bits >>> 24).toNat

/-- The number that a compact number stands for, without what is behind the point. -/
def decoded (bits : UInt32) : Nat :=
  mantissa bits * 256 ^ exponent bits / 256 ^ 3

theorem mantissa_eq (bits : UInt32) : mantissa bits = bits.toNat % 2 ^ 24 := by
  rw [mantissa, UInt32.toNat_and]
  exact Nat.and_two_pow_sub_one_eq_mod bits.toNat 24

theorem exponent_eq (bits : UInt32) : exponent bits = bits.toNat / 2 ^ 24 := by
  rw [exponent, UInt32.toNat_shiftRight]
  exact Nat.shiftRight_eq_div_pow bits.toNat 24

theorem toNat_eq (bits : UInt32) : bits.toNat = exponent bits * 2 ^ 24 + mantissa bits := by
  rw [mantissa_eq, exponent_eq]
  omega

/-- The sign of a mantissa is its highest bit. -/
theorem and_sign_eq_zero_iff (bits : UInt32) :
    bits &&& 0x00800000 = 0 ↔ mantissa bits < 2 ^ 23 := by
  have hbit : (bits &&& 0x00800000).toNat = (bits.toNat.testBit 23).toNat * 2 ^ 23 := by
    rw [UInt32.toNat_and]
    exact Nat.and_two_pow bits.toNat 23
  rw [← UInt32.toNat_inj, hbit, mantissa_eq, Nat.testBit_eq_decide_div_mod_eq]
  by_cases h : bits.toNat / 2 ^ 23 % 2 = 1
  · rw [decide_eq_true h]
    exact iff_of_false (by decide) (by omega)
  · rw [decide_eq_false h]
    exact iff_of_true rfl (by omega)

section Packed

variable {m size : UInt32}

/-- There is room for a size above a mantissa. -/
theorem size_fits (hsize : size.toNat < 256) :
    size.toNat * 2 ^ (24 : UInt32).toNat < 2 ^ 32 := by
  rw [show (24 : UInt32).toNat = 24 from rfl]
  omega

/-- The size stands in front of the mantissa. -/
theorem toNat_packed (hm : m.toNat < 2 ^ 24) (hsize : size.toNat < 256) :
    (m ||| (size <<< 24)).toNat = size.toNat * 2 ^ 24 + m.toNat := by
  rw [UInt32.or_comm]
  exact toNat_shiftLeft_or (by decide) hm (size_fits hsize)

theorem mantissa_packed (hm : m.toNat < 2 ^ 24) (hsize : size.toNat < 256) :
    mantissa (m ||| (size <<< 24)) = m.toNat := by
  rw [mantissa_eq, toNat_packed hm hsize]
  omega

theorem exponent_packed (hm : m.toNat < 2 ^ 24) (hsize : size.toNat < 256) :
    exponent (m ||| (size <<< 24)) = size.toNat := by
  rw [exponent_eq, toNat_packed hm hsize]
  omega

end Packed

end Compact

/-! ## Words that may overflow -/

namespace Checked

/-- A difference; one below zero is none. -/
def sub? (a b : Nat) : Option Nat :=
  if b ≤ a then some (a - b) else none

/-- A number as a word, if it is one. -/
def word? (n : Nat) : Option UInt32 :=
  if n < 2 ^ 32 then some (UInt32.ofNat n) else none

/-- A sum of words, if it is a word. -/
def add? (a b : UInt32) : Option UInt32 :=
  if a.toNat + b.toNat < 2 ^ 32 then some (a + b) else none

/-- A word shifted left by less than its width, if no bit is lost. -/
def shiftLeft? (a n : UInt32) : Option UInt32 :=
  if n.toNat < 32 ∧ a.toNat * 2 ^ n.toNat < 2 ^ 32 then some (a <<< n) else none

theorem sub?_eq {a b : Nat} (h : b ≤ a) : sub? a b = some (a - b) :=
  if_pos h

theorem word?_eq {n : Nat} (h : n < 2 ^ 32) : word? n = some (UInt32.ofNat n) :=
  if_pos h

theorem add?_eq {a b : UInt32} (h : a.toNat + b.toNat < 2 ^ 32) : add? a b = some (a + b) :=
  if_pos h

theorem shiftLeft?_eq {a n : UInt32} (hn : n.toNat < 32) (h : a.toNat * 2 ^ n.toNat < 2 ^ 32) :
    shiftLeft? a n = some (a <<< n) :=
  if_pos ⟨hn, h⟩

end Checked

/-! ## The encoder -/

namespace Target

open RpcDaemon.Chain.Compact

/-- A mantissa is shifted left by a byte and takes up the next one. -/
def takeUp? (m : UInt32) (b : UInt8) : Option UInt32 := do
  return (← Checked.shiftLeft? m 8) ||| b.toUInt32

/-- **The compact form step by step.** The mantissa takes up three bytes, or zeros where there are
fewer, and the size is added to it. There is no result if a step leaves its range. -/
def compact? (t : Target) : Option UInt32 :=
  match t.toList.findIdx? fun b => b != 0 with
  | none => some 0
  | some first => do
      let size ← Checked.word? (← Checked.sub? 32 first)
      let mantissa ← [0, 1, 2].foldlM (fun m k => takeUp? m (t.toList.getD (first + k) 0)) 0
      if mantissa &&& 0x00800000 != 0 then
        return (mantissa >>> 8) ||| (← Checked.shiftLeft? (← Checked.add? size 1) 24)
      else
        return mantissa ||| (← Checked.shiftLeft? size 24)

/-- Three bytes leave room for one more. -/
theorem byte_fits {m : UInt32} (hm : m.toNat < 2 ^ 24) :
    m.toNat * 2 ^ (8 : UInt32).toNat < 2 ^ 32 := by
  rw [show (8 : UInt32).toNat = 8 from rfl]
  omega

/-- A byte is put behind a mantissa that leaves room for it. -/
theorem toNat_shiftLeft_byte {m : UInt32} (hm : m.toNat < 2 ^ 24) (b : UInt8) :
    ((m <<< 8) ||| b.toUInt32).toNat = m.toNat * 256 + b.toNat := by
  have hbyte : b.toUInt32.toNat < 2 ^ (8 : UInt32).toNat := by
    rw [UInt8.toNat_toUInt32]
    exact b.toNat_lt
  rw [toNat_shiftLeft_or (by decide) hbyte (byte_fits hm), UInt8.toNat_toUInt32]
  rfl

/-- The leading bytes are taken up one after the other. -/
theorem leading_eq (bytes : List UInt8) :
    leading bytes = (((bytes.getD 0 0).toUInt32 <<< 8 ||| (bytes.getD 1 0).toUInt32) <<< 8)
      ||| (bytes.getD 2 0).toUInt32 := by
  rw [leading, UInt32.shiftLeft_or, show (16 : UInt32) = 8 + 8 from rfl,
    UInt32.shiftLeft_add (by decide) (by decide) (by decide)]

theorem toNat_leading (bytes : List UInt8) :
    (leading bytes).toNat =
      ((bytes.getD 0 0).toNat * 256 + (bytes.getD 1 0).toNat) * 256 + (bytes.getD 2 0).toNat := by
  have h0 : (bytes.getD 0 0).toNat < 256 := UInt8.toNat_lt _
  have h1 : (bytes.getD 1 0).toNat < 256 := UInt8.toNat_lt _
  have hfirst : (bytes.getD 0 0).toUInt32.toNat < 2 ^ 24 := by
    rw [UInt8.toNat_toUInt32]
    omega
  have hsecond := toNat_shiftLeft_byte hfirst (bytes.getD 1 0)
  rw [UInt8.toNat_toUInt32] at hsecond
  rw [leading_eq, toNat_shiftLeft_byte (by omega), hsecond]

theorem toNat_leading_lt (bytes : List UInt8) : (leading bytes).toNat < 2 ^ 24 := by
  have h0 : (bytes.getD 0 0).toNat < 256 := UInt8.toNat_lt _
  have h1 : (bytes.getD 1 0).toNat < 256 := UInt8.toNat_lt _
  have h2 : (bytes.getD 2 0).toNat < 256 := UInt8.toNat_lt _
  rw [toNat_leading]
  omega

/-- The three leading bytes of a number. -/
theorem toNat_leading_eq_div (bytes : List UInt8) :
    (leading bytes).toNat = bigEndian bytes * 256 ^ 3 / 256 ^ bytes.length := by
  rw [toNat_leading]
  rcases bytes with _ | ⟨a, _ | ⟨b, _ | ⟨c, bytes⟩⟩⟩
  · rfl
  · simp only [bigEndian_cons, bigEndian_nil, List.length_cons, List.length_nil,
      List.getD_cons_zero, List.getD_cons_succ, List.getD_nil, UInt8.toNat_zero]
    omega
  · simp only [bigEndian_cons, bigEndian_nil, List.length_cons, List.length_nil,
      List.getD_cons_zero, List.getD_cons_succ, List.getD_nil, UInt8.toNat_zero]
    omega
  · -- Here all bytes but the three are cut off.
    have hrest := bigEndian_lt bytes
    have hsplit : bigEndian (a :: b :: c :: bytes) =
        bigEndian bytes + 256 ^ bytes.length * ((a.toNat * 256 + b.toNat) * 256 + c.toNat) := by
      simp only [bigEndian_cons, List.length_cons]
      ring
    rw [show (a :: b :: c :: bytes).length = bytes.length + 3 from rfl, pow_add,
      Nat.mul_div_mul_right _ _ (by decide), hsplit,
      Nat.add_mul_div_left _ _ (Nat.pow_pos (by decide)), Nat.div_eq_of_lt hrest, Nat.zero_add]
    rfl

theorem toNat_size (t : Target) :
    (UInt32.ofNat t.significant.length).toNat = t.significant.length := by
  have hlength := t.length_significant_le
  rw [UInt32.toNat_ofNat']
  omega

theorem toNat_size_succ (t : Target) :
    (UInt32.ofNat t.significant.length + 1).toNat = t.significant.length + 1 := by
  have hlength := t.length_significant_le
  rw [UInt32.toNat_add, toNat_size, UInt32.toNat_one]
  omega

/-- **What the encoder does**: zero stays zero; of any other number the three leading bytes become
the mantissa, and one byte less where they would set the sign. -/
theorem compact_cases (t : Target) :
    (t.toNat = 0 ∧ t.significant = [] ∧ t.compact = 0) ∨
      (0 < t.toNat ∧ 2 ^ 16 ≤ (leading t.significant).toNat ∧
        ((leading t.significant &&& 0x00800000 = 0 ∧
            t.compact = leading t.significant |||
              (UInt32.ofNat t.significant.length <<< 24)) ∨
          (leading t.significant &&& 0x00800000 ≠ 0 ∧
            t.compact = (leading t.significant >>> 8) |||
              ((UInt32.ofNat t.significant.length + 1) <<< 24)))) := by
  rcases t.significant_cases with ⟨hnil, hzero⟩ | ⟨b, bytes, hcons, hb, hpos⟩
  · refine Or.inl ⟨hzero, hnil, ?_⟩
    rw [compact, hnil]
    rfl
  · have hbyte : 0 < b.toNat := Nat.pos_of_ne_zero fun h => hb (UInt8.toNat_inj.mp h)
    have hlarge : 2 ^ 16 ≤ (leading t.significant).toNat := by
      rw [toNat_leading, hcons, List.getD_cons_zero]
      omega
    have hfull : ¬t.significant.isEmpty = true := by
      rw [hcons]
      exact Bool.false_ne_true
    refine Or.inr ⟨hpos, hlarge, ?_⟩
    rw [compact]
    dsimp only
    rw [if_neg hfull]
    by_cases hsign : leading t.significant &&& 0x00800000 = 0
    · exact Or.inl ⟨hsign, if_neg (by simpa using hsign)⟩
    · exact Or.inr ⟨hsign, if_pos (by simpa using hsign)⟩

/-- **The compact form is the number cut down to its leading bytes.** -/
theorem truncates_compact (t : Target) :
    Truncates t.toNat (mantissa t.compact) (exponent t.compact) := by
  have hdiv := toNat_leading_eq_div t.significant
  rw [t.bigEndian_significant] at hdiv
  have hlt := toNat_leading_lt t.significant
  have hlength := t.length_significant_le
  have hsize := t.toNat_size
  have hnext := t.toNat_size_succ
  have hmantissa : mantissa (leading t.significant) = (leading t.significant).toNat := by
    rw [mantissa_eq, Nat.mod_eq_of_lt hlt]
  rcases t.compact_cases with ⟨hzero, -, hcompact⟩ | ⟨hpos, hlarge, hrest⟩
  · rw [hzero, hcompact]
    exact ⟨rfl, by decide, fun h => absurd h (Nat.lt_irrefl 0), fun _ => rfl⟩
  · rcases hrest with ⟨hsign, hcompact⟩ | ⟨hsign, hcompact⟩
    · have hclear : (leading t.significant).toNat < 2 ^ 23 := by
        rwa [and_sign_eq_zero_iff, hmantissa] at hsign
      rw [hcompact, mantissa_packed hlt (by omega), exponent_packed hlt (by omega), hsize]
      exact ⟨hdiv, hclear, fun _ => by omega, fun h => absurd h (Nat.ne_of_gt hpos)⟩
    · have hset : 2 ^ 23 ≤ (leading t.significant).toNat := by
        rw [Ne, and_sign_eq_zero_iff, hmantissa] at hsign
        omega
      have hshift : (leading t.significant >>> 8).toNat = (leading t.significant).toNat / 256 := by
        rw [UInt32.toNat_shiftRight]
        exact Nat.shiftRight_eq_div_pow _ 8
      rw [hcompact, mantissa_packed (by omega) (by omega), exponent_packed (by omega) (by omega),
        hnext, hshift]
      refine ⟨?_, by omega, fun _ => by omega, fun h => absurd h (Nat.ne_of_gt hpos)⟩
      rw [hdiv, Nat.div_div_eq_div_mul, pow_succ 256 t.significant.length]

/-! ## No step leaves its range -/

theorem significant_eq_drop (t : Target) :
    t.significant = t.toList.drop (t.toList.findIdx fun b => b != 0) :=
  List.dropWhile_eq_drop_findIdx_not

theorem getD_significant (t : Target) (k : Nat) :
    t.toList.getD (t.toList.findIdx (fun b => b != 0) + k) 0 = t.significant.getD k 0 := by
  rw [significant_eq_drop, List.getD_eq_getElem?_getD, List.getD_eq_getElem?_getD,
    List.getElem?_drop]

theorem takeUp?_eq {m : UInt32} (hm : m.toNat < 2 ^ 24) (b : UInt8) :
    takeUp? m b = some ((m <<< 8) ||| b.toUInt32) := by
  rw [takeUp?, Checked.shiftLeft?_eq (by decide) (byte_fits hm)]
  rfl

/-- Taking up the three leading bytes loses no bit. -/
theorem foldlM_takeUp? (bytes : List UInt8) :
    [0, 1, 2].foldlM (fun m k => takeUp? m (bytes.getD k 0)) 0 = some (leading bytes) := by
  have h0 : (bytes.getD 0 0).toNat < 256 := UInt8.toNat_lt _
  have h1 : (bytes.getD 1 0).toNat < 256 := UInt8.toNat_lt _
  have hzero : ((0 : UInt32) <<< 8) ||| (bytes.getD 0 0).toUInt32 =
      (bytes.getD 0 0).toUInt32 := by
    rw [UInt32.zero_shiftLeft, UInt32.zero_or]
  have hfirst : (bytes.getD 0 0).toUInt32.toNat < 2 ^ 24 := by
    rw [UInt8.toNat_toUInt32]
    omega
  have hsecond :
      (((bytes.getD 0 0).toUInt32 <<< 8) ||| (bytes.getD 1 0).toUInt32).toNat < 2 ^ 24 := by
    rw [toNat_shiftLeft_byte hfirst, UInt8.toNat_toUInt32]
    omega
  simp only [List.foldlM_cons, List.foldlM_nil, Option.bind_eq_bind]
  rw [takeUp?_eq (by decide), hzero, Option.bind_some, takeUp?_eq hfirst, Option.bind_some,
    takeUp?_eq hsecond, Option.bind_some, leading_eq]
  rfl

/-- A size fits in the top byte. -/
theorem shiftLeft?_size {size : UInt32} (h : size.toNat < 256) :
    Checked.shiftLeft? size 24 = some (size <<< 24) :=
  Checked.shiftLeft?_eq (by decide) (size_fits h)

/-- **Every step of the encoder stays in its range.** -/
theorem compact?_eq (t : Target) : t.compact? = some t.compact := by
  have hall : t.toList.length = 32 := Vector.length_toList
  have hcount : t.significant.length = 32 - t.toList.findIdx fun b => b != 0 := by
    rw [significant_eq_drop, List.length_drop, hall]
  have hlength := t.length_significant_le
  have hsize := t.toNat_size
  have hnext := t.toNat_size_succ
  rcases t.compact_cases with ⟨-, hnil, hcompact⟩ | ⟨hpos, -, hrest⟩
  · have hnone : t.toList.findIdx? (fun b => b != 0) = none := by
      have hle : t.toList.findIdx (fun b => b != 0) ≤ t.toList.length := List.findIdx_le_length
      rw [hnil, List.length_nil] at hcount
      rw [List.findIdx?_eq_none_iff_findIdx_eq]
      omega
    rw [compact?, hnone, hcompact]
  · have hfirst : t.toList.findIdx (fun b => b != 0) < 32 := by
      have := length_significant_pos hpos
      omega
    have hsome : t.toList.findIdx? (fun b => b != 0) =
        some (t.toList.findIdx fun b => b != 0) :=
      List.findIdx?_eq_some_iff_findIdx_eq.mpr ⟨by omega, rfl⟩
    rw [compact?, hsome]
    simp only [getD_significant, foldlM_takeUp?, Option.bind_eq_bind, Option.bind_some]
    rw [Checked.sub?_eq (Nat.le_of_lt hfirst), Option.bind_some, ← hcount,
      Checked.word?_eq (by omega), Option.bind_some]
    rcases hrest with ⟨hsign, hcompact⟩ | ⟨hsign, hcompact⟩
    · rw [if_neg (by simpa using hsign), shiftLeft?_size (by omega), hcompact]
      rfl
    · have hsum : (UInt32.ofNat t.significant.length).toNat + (1 : UInt32).toNat < 2 ^ 32 := by
        rw [hsize, UInt32.toNat_one]
        omega
      rw [if_pos (by simpa using hsign), Checked.add?_eq hsum, Option.bind_some,
        shiftLeft?_size (by omega), hcompact]
      rfl

/-- **The compact form of a target** `v`. No step of the encoder overflows; the sign is clear, and
the mantissa of a number that is not zero has no superfluous byte. Mantissa and exponent give `v`
cut off after the leading bytes, never rounded up. So larger targets have no smaller compact forms,
and the number that a compact form stands for has this compact form again. -/
theorem compact_law (v : Target) :
    v.compact? = some v.compact ∧ v.compact &&& 0x00800000 = 0 ∧
      (v.toNat = 0 → v.compact = 0) ∧ (0 < v.toNat → 0x8000 ≤ mantissa v.compact) ∧
      mantissa v.compact * 256 ^ exponent v.compact ≤ v.toNat * 256 ^ 3 ∧
      v.toNat * 256 ^ 3 < (mantissa v.compact + 1) * 256 ^ exponent v.compact ∧
      (∀ w : Target, v.toNat ≤ w.toNat → v.compact ≤ w.compact) ∧
      (ofNat (decoded v.compact)).toNat = decoded v.compact ∧
      (ofNat (decoded v.compact)).compact = v.compact := by
  have h := v.truncates_compact
  have hdecoded : (ofNat (decoded v.compact)).toNat = decoded v.compact :=
    toNat_ofNat (Nat.lt_of_le_of_lt h.decoded_le v.toNat_lt)
  refine ⟨v.compact?_eq, (and_sign_eq_zero_iff _).mpr h.lt, ?_, h.le, h.mul_le, h.lt_mul, ?_,
    hdecoded, ?_⟩
  · intro hzero
    rcases v.compact_cases with ⟨-, -, hcompact⟩ | ⟨hpos, -⟩
    · exact hcompact
    · exact absurd hzero (Nat.ne_of_gt hpos)
  · intro w hle
    rw [UInt32.le_iff_toNat_le, Compact.toNat_eq, Compact.toNat_eq w.compact]
    exact h.packed_le w.truncates_compact hle
  · have hagain := (ofNat (decoded v.compact)).truncates_compact
    rw [hdecoded] at hagain
    obtain ⟨hm, he⟩ := hagain.unique h.of_decoded
    rw [← UInt32.toNat_inj, Compact.toNat_eq, hm, he, ← Compact.toNat_eq]

/-- A leading byte that would set the sign makes room for a zero. -/
example : (ofNat 0x80010203).compact = 0x05008001 := by decide

end Target

end Chain

end RpcDaemon
