import Mathlib.Data.List.Induction
import Mathlib.Tactic.Ring
import RpcDaemon.Chain.Target

/-!
# Targets as numbers

The bytes of a target are the digits of its number to the base 256, the highest first. Every number
below `256 ^ 32` is the number of a target, and the bytes from the first one that is not zero on say
how large it is.
-/

namespace RpcDaemon

namespace Chain

/-! ## Digits to the base 256 -/

/-- The number with the given digits, the highest first. -/
def bigEndian (bytes : List UInt8) : Nat :=
  bytes.foldl (fun n b => n * 256 + b.toNat) 0

@[simp] theorem bigEndian_nil : bigEndian [] = 0 := rfl

theorem bigEndian_concat (bytes : List UInt8) (b : UInt8) :
    bigEndian (bytes ++ [b]) = bigEndian bytes * 256 + b.toNat := by
  rw [bigEndian, List.foldl_append, List.foldl_cons, List.foldl_nil, bigEndian]

/-- The first digits count for as much more as there are digits behind them. -/
theorem bigEndian_append (front back : List UInt8) :
    bigEndian (front ++ back) = bigEndian front * 256 ^ back.length + bigEndian back := by
  induction back using List.reverseRecOn with
  | nil => simp
  | append_singleton back b ih =>
    rw [← List.append_assoc, bigEndian_concat, ih, bigEndian_concat, List.length_append,
      List.length_singleton, pow_succ]
    ring

theorem bigEndian_singleton (b : UInt8) : bigEndian [b] = b.toNat := by
  rw [← List.nil_append [b], bigEndian_concat, bigEndian_nil, Nat.zero_mul, Nat.zero_add]

theorem bigEndian_cons (b : UInt8) (bytes : List UInt8) :
    bigEndian (b :: bytes) = b.toNat * 256 ^ bytes.length + bigEndian bytes := by
  rw [← List.singleton_append, bigEndian_append, bigEndian_singleton]

/-- A number is smaller than the first one that needs a digit more. -/
theorem bigEndian_lt (bytes : List UInt8) : bigEndian bytes < 256 ^ bytes.length := by
  induction bytes using List.reverseRecOn with
  | nil => exact Nat.one_pos
  | append_singleton bytes b ih =>
    have hb : b.toNat < 256 := b.toNat_lt
    rw [bigEndian_concat, List.length_append, List.length_singleton, pow_succ]
    omega

/-- The greatest digits make up the greatest number. -/
theorem bigEndian_replicate_max (n : Nat) :
    bigEndian (List.replicate n 255) + 1 = 256 ^ n := by
  induction n with
  | zero => rfl
  | succ n ih =>
    have hmax : (255 : UInt8).toNat = 255 := rfl
    rw [List.replicate_succ', bigEndian_concat, hmax, pow_succ]
    omega

/-- Zeros in front change nothing. -/
theorem bigEndian_replicate_zero_append (n : Nat) (bytes : List UInt8) :
    bigEndian (List.replicate n 0 ++ bytes) = bigEndian bytes := by
  induction n with
  | zero => rfl
  | succ n ih =>
    rw [List.replicate_succ, List.cons_append, bigEndian_cons, ih, UInt8.toNat_zero, Nat.zero_mul,
      Nat.zero_add]

theorem bigEndian_dropWhile_zero (bytes : List UInt8) :
    bigEndian (bytes.dropWhile fun b => b == 0) = bigEndian bytes := by
  induction bytes with
  | nil => rfl
  | cons b bytes ih =>
    by_cases hb : b = 0
    · rw [List.dropWhile_cons_of_pos (by simpa using hb), ih, bigEndian_cons, hb,
        UInt8.toNat_zero, Nat.zero_mul, Nat.zero_add]
    · rw [List.dropWhile_cons_of_neg (by simpa using hb)]

/-- The last `k` digits of a number. -/
def digits : Nat → Nat → List UInt8
  | 0, _ => []
  | k + 1, n => digits k (n / 256) ++ [UInt8.ofNat n]

@[simp] theorem length_digits (k n : Nat) : (digits k n).length = k := by
  induction k generalizing n with
  | zero => rfl
  | succ k ih => rw [digits, List.length_append, ih, List.length_singleton]

/-- Nothing is lost of a number that has no more digits. -/
theorem bigEndian_digits {k n : Nat} (h : n < 256 ^ k) : bigEndian (digits k n) = n := by
  induction k generalizing n with
  | zero => exact (Nat.lt_one_iff.mp h).symm
  | succ k ih =>
    have hhigh : n / 256 < 256 ^ k := Nat.div_lt_of_lt_mul (by rwa [← pow_succ'])
    rw [digits, bigEndian_concat, ih hhigh, UInt8.toNat_ofNat']
    omega

/-! ## Targets -/

namespace Target

theorem toNat_eq (t : Target) : t.toNat = bigEndian t.toList := rfl

/-- A target has 256 bits. -/
theorem toNat_lt (t : Target) : t.toNat < 256 ^ 32 := by
  have h := bigEndian_lt t.toList
  rwa [Vector.length_toList] at h

/-- The target with the given number. -/
def ofNat (n : Nat) : Target :=
  ⟨(digits 32 n).toArray, by simp⟩

/-- Every number of 256 bits is the number of a target. -/
theorem toNat_ofNat {n : Nat} (h : n < 256 ^ 32) : (ofNat n).toNat = n :=
  bigEndian_digits h

theorem bigEndian_significant (t : Target) : bigEndian t.significant = t.toNat :=
  bigEndian_dropWhile_zero t.toList

theorem length_significant_le (t : Target) : t.significant.length ≤ 32 := by
  have h := (List.dropWhile_sublist (l := t.toList) fun b => b == 0).length_le
  rwa [Vector.length_toList] at h

/-- The first of the significant bytes is not zero. -/
theorem significant_cases (t : Target) :
    (t.significant = [] ∧ t.toNat = 0) ∨
      ∃ b bytes, t.significant = b :: bytes ∧ b ≠ 0 ∧ 0 < t.toNat := by
  cases hbytes : t.significant with
  | nil =>
    have hzero := t.bigEndian_significant
    rw [hbytes] at hzero
    exact Or.inl ⟨rfl, hzero.symm⟩
  | cons b bytes =>
    have hb : b ≠ 0 := by
      have hhead := List.head?_dropWhile_not (fun b => b == 0) t.toList
      rw [show t.toList.dropWhile (fun b => b == 0) = b :: bytes from hbytes] at hhead
      simpa using hhead
    have hpos : 0 < b.toNat := Nat.pos_of_ne_zero fun h => hb (UInt8.toNat_inj.mp h)
    have hvalue := t.bigEndian_significant
    rw [hbytes, bigEndian_cons] at hvalue
    have hpow : 0 < b.toNat * 256 ^ bytes.length := Nat.mul_pos hpos (Nat.pow_pos (by decide))
    exact Or.inr ⟨b, bytes, rfl, hb, by omega⟩

theorem length_significant_pos {t : Target} (h : 0 < t.toNat) : 0 < t.significant.length := by
  rcases t.significant_cases with ⟨-, hzero⟩ | ⟨b, bytes, hcons, -⟩
  · exact absurd hzero (Nat.ne_of_gt h)
  · rw [hcons]
    exact Nat.succ_pos _

end Target

end Chain

end RpcDaemon
