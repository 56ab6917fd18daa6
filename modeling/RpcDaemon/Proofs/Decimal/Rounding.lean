import Mathlib.Algebra.Order.Field.Basic
import Mathlib.Algebra.Order.Field.Power
import Mathlib.Algebra.Order.Ring.Rat
import Mathlib.Tactic.Linarith
import Mathlib.Tactic.Positivity
import Mathlib.Tactic.Ring
import RpcDaemon.Decimal.Binary64

/-!
# Rounding to the nearest number

The sizes of the finite floating point numbers are the points of a grid, in the order of their bits.
The distance of two neighbours is the same within a scale and doubles from one scale to the next, so
the number nearest to a quotient is found by rounding to an integer at the scale of the quotient.
Main statement: `rounds_roundRatio`.
-/

namespace RpcDaemon

/-- The number with a minus sign, if it is asked for. -/
def signed (negative : Bool) (q : ℚ) : ℚ :=
  if negative then -q else q

theorem abs_signed (negative : Bool) (q : ℚ) : |signed negative q| = |q| := by
  cases negative
  · rfl
  · exact abs_neg q

theorem signed_zero (negative : Bool) : signed negative 0 = 0 := by
  cases negative
  · rfl
  · exact neg_zero

theorem signed_sub (negative : Bool) (p q : ℚ) :
    signed negative p - signed negative q = signed negative (p - q) := by
  cases negative
  · rfl
  · exact neg_sub_neg p q |>.trans (neg_sub p q).symm

/-- Numbers of different signs are as far apart as their sizes together. -/
theorem abs_neg_signed_sub (negative : Bool) {p q : ℚ} (hp : 0 ≤ p) (hq : 0 ≤ q) :
    |-signed negative p - signed negative q| = p + q := by
  have hsum : -signed negative p - signed negative q = signed negative (-(p + q)) := by
    cases negative
    · exact (neg_add' p q).symm
    · simp [signed]
  rw [hsum, abs_signed, abs_neg, abs_of_nonneg (add_nonneg hp hq)]

namespace Binary64

/-- The rational number that a finite number stands for. -/
def toRat (x : Binary64) : ℚ :=
  signed x.negative (x.ratio.1 / x.ratio.2)

/-- **The floating point number for `q`**: a finite one as near to `q` as any other, and of two that
are equally near the even one. -/
structure Rounds (q : ℚ) (x : Binary64) : Prop where
  /-- It is finite. -/
  finite : x.isFinite = true
  /-- No finite number is nearer. -/
  nearest : ∀ y : Binary64, y.isFinite = true → |x.toRat - q| ≤ |y.toRat - q|
  /-- If another number is as near, this one is even. -/
  even : ∀ y : Binary64, y.isFinite = true → |y.toRat - q| = |x.toRat - q| →
    y.toRat ≠ x.toRat → Even x.significand

/-! ## The grid of sizes -/

/-- The size of the number with these bits, counted in least positive numbers. -/
def grid (m : Nat) : Nat :=
  (if m < unit then m else m % unit + unit) * 2 ^ (m / unit - 1)

/-- Every number has a scale, at which its significand has 53 bits, or fewer at the least one. -/
theorem exists_scale (m : Nat) :
    ∃ s r, m = s * unit + r ∧ (s = 0 ∨ unit ≤ r) ∧ r < 2 * unit ∧ m / unit - 1 = s := by
  refine ⟨m / unit - 1, m - (m / unit - 1) * unit, ?_, ?_, ?_, rfl⟩
  all_goals
    unfold unit
    omega

/-- A significand with one bit more is that of the next scale. -/
theorem grid_scaled {s r : Nat} (hlow : s = 0 ∨ unit ≤ r) (hhigh : r ≤ 2 * unit) :
    grid (s * unit + r) = r * 2 ^ s := by
  unfold grid
  unfold unit at *
  rcases Nat.lt_or_ge r 4503599627370496 with hlt | hge
  · obtain rfl : s = 0 := by omega
    rw [if_pos (by omega)]
    congr 1
    · omega
    · congr 1
      omega
  · rw [if_neg (by omega)]
    rcases Nat.lt_or_eq_of_le hhigh with hlt | rfl
    · congr 1
      · omega
      · congr 1
        omega
    · -- One bit too many: the last one is zero, and the rest is the least significand above.
      have hquot :
          (s * 4503599627370496 + 2 * 4503599627370496) / 4503599627370496 - 1 = s + 1 := by
        omega
      have hrest : (s * 4503599627370496 + 2 * 4503599627370496) % 4503599627370496 = 0 := by
        omega
      rw [hquot, hrest, pow_succ]
      ring

/-- The next number is one unit of the significand larger. -/
theorem grid_succ (m : Nat) : grid (m + 1) = grid m + 2 ^ (m / unit - 1) := by
  obtain ⟨s, r, rfl, hlow, hlt, hs⟩ := exists_scale m
  rw [hs, Nat.add_assoc, grid_scaled (by omega) hlt, grid_scaled hlow hlt.le, Nat.succ_mul]

theorem grid_strictMono : StrictMono grid := by
  apply strictMono_nat_of_lt_succ
  intro m
  rw [grid_succ]
  exact Nat.lt_add_of_pos_right (Nat.two_pow_pos _)

/-! ## Nearest integers -/

/-- **A quotient is rounded to the nearest integer**: by a half at most, and by a half to an even
one only. -/
theorem roundQuotient_spec (num : Nat) {den : Nat} (hden : 0 < den) :
    |(roundQuotient num den : ℚ) - num / den| ≤ 1 / 2 ∧
      (|(roundQuotient num den : ℚ) - num / den| = 1 / 2 → Even (roundQuotient num den)) := by
  have hpos : (0 : ℚ) < den := Nat.cast_pos.mpr hden
  obtain ⟨f, hf⟩ : ∃ f : ℚ, f = (num % den : Nat) / den := ⟨_, rfl⟩
  have hsplit : (num : ℚ) / den = (num / den : Nat) + f := by
    rw [hf, div_eq_iff hpos.ne', add_mul, div_mul_cancel₀ _ hpos.ne', ← Nat.cast_mul,
      ← Nat.cast_add, Nat.div_add_mod']
  have htwice : ((2 * (num % den) : Nat) : ℚ) = 2 * f * den := by
    rw [hf, mul_assoc, div_mul_cancel₀ _ hpos.ne', Nat.cast_mul, Nat.cast_ofNat]
  rw [hsplit, roundQuotient]
  rcases Nat.lt_trichotomy (2 * (num % den)) den with hlt | heq | hgt
  · have hsmall : 2 * f < 1 := by
      rw [← mul_lt_mul_iff_left₀ hpos, ← htwice, one_mul]
      exact Nat.cast_lt.mpr hlt
    have hnonneg : 0 ≤ f := hf ▸ div_nonneg (Nat.cast_nonneg _) hpos.le
    rw [if_pos hlt, sub_add_cancel_left, abs_neg, abs_of_nonneg hnonneg]
    exact ⟨by linarith, fun h => by linarith⟩
  · have hhalf : f = 1 / 2 := by
      have hone : 2 * f = 1 := mul_right_cancel₀ hpos.ne' (by rw [← htwice, one_mul, heq])
      linarith
    rw [if_neg (by omega), if_neg (by omega), hhalf]
    split
    · rename_i heven
      rw [sub_add_cancel_left, abs_neg, abs_of_nonneg (by norm_num)]
      exact ⟨le_refl _, fun _ => Nat.even_iff.mpr heven⟩
    · rename_i hodd
      rw [Nat.cast_succ, add_sub_add_left_eq_sub, abs_of_nonneg (by norm_num)]
      exact ⟨by norm_num, fun _ => Nat.even_iff.mpr (by omega)⟩
  · have hlarge : 1 < 2 * f := by
      rw [← mul_lt_mul_iff_left₀ hpos, ← htwice, one_mul]
      exact Nat.cast_lt.mpr hgt
    have hone : f < 1 := by
      rw [hf, div_lt_one hpos]
      exact Nat.cast_lt.mpr (Nat.mod_lt _ hden)
    rw [if_neg (by omega), if_pos hgt, Nat.cast_succ, add_sub_add_left_eq_sub,
      abs_of_nonneg (by linarith)]
    exact ⟨by linarith, fun h => by linarith⟩

/-! ## The scale of a quotient -/

/-- **The scale of a quotient** is the least one, or that at which it has 53 bits before the
point. -/
theorem scaleOf_spec {num den : Nat} (hnum : 0 < num) (hden : 0 < den) :
    num * 2 ^ 1074 < 2 * unit * (den * 2 ^ scaleOf num den) ∧
      (scaleOf num den = 0 ∨ unit * (den * 2 ^ scaleOf num den) ≤ num * 2 ^ 1074) := by
  have hdenLow := Nat.log2_self_le hden.ne'
  have hdenHigh := Nat.lt_log2_self (n := den)
  have hunit : unit = 2 ^ 52 := rfl
  rw [scaleOf]
  -- It does not matter which power the least positive number is.
  generalize 1074 = least
  have hlow : 2 ^ (num.log2 + least) ≤ num * 2 ^ least := by
    rw [pow_add]
    exact Nat.mul_le_mul_right _ (Nat.log2_self_le hnum.ne')
  have hhigh : num * 2 ^ least < 2 ^ (num.log2 + least + 1) := by
    rw [Nat.add_right_comm, pow_add]
    exact Nat.mul_lt_mul_of_pos_right Nat.lt_log2_self (Nat.two_pow_pos _)
  rw [Nat.pow_eq, Nat.pow_eq]
  generalize num * 2 ^ least = n at *
  generalize num.log2 + least = up at *
  generalize den.log2 = b at *
  obtain ⟨s, hs⟩ : ∃ s, s = up - (b + 52) := ⟨_, rfl⟩
  rw [← hs]
  have hpos : 0 < den * 2 ^ s := Nat.mul_pos hden (Nat.two_pow_pos s)
  split
  · rename_i hlt
    rw [Nat.div_lt_iff_lt_mul hpos] at hlt
    rcases Nat.eq_zero_or_eq_sub_one_add_one (n := s) with rfl | hsucc
    · refine ⟨Nat.lt_of_lt_of_le hlt ?_, Or.inl rfl⟩
      exact Nat.mul_le_mul_right _ (by omega)
    · generalize s - 1 = t at *
      subst hsucc
      refine ⟨?_, Or.inr ?_⟩
      · calc n < unit * (den * 2 ^ (t + 1)) := hlt
          _ = 2 * unit * (den * 2 ^ t) := by ring
      · calc unit * (den * 2 ^ t) ≤ unit * (2 ^ (b + 1) * 2 ^ t) :=
              Nat.mul_le_mul_left _ (Nat.mul_le_mul_right _ hdenHigh.le)
          _ = 2 ^ (b + 52 + (t + 1)) := by rw [hunit]; ring
          _ ≤ 2 ^ up := Nat.pow_le_pow_right (by decide) (by omega)
          _ ≤ n := hlow
  · rename_i hge
    rw [Nat.not_lt, Nat.le_div_iff_mul_le hpos] at hge
    refine ⟨?_, Or.inr hge⟩
    calc n < 2 ^ (up + 1) := hhigh
      _ ≤ 2 ^ (b + 52 + s + 1) := Nat.pow_le_pow_right (by decide) (by omega)
      _ = 2 * unit * (2 ^ b * 2 ^ s) := by rw [hunit]; ring
      _ ≤ 2 * unit * (den * 2 ^ s) := Nat.mul_le_mul_left _ (Nat.mul_le_mul_right _ hdenLow)

/-- A quotient within the range of the finite numbers has one of their scales. -/
theorem scaleOf_lt {num den : Nat} (hnum : 0 < num) (hden : 0 < den)
    (hlt : num < den * 2 ^ 1023) : scaleOf num den < 2045 := by
  rcases (scaleOf_spec hnum hden).2 with hzero | hle
  · omega
  · have hpow : 2 ^ (52 + scaleOf num den) < 2 ^ (1023 + 1074) := by
      apply Nat.lt_of_mul_lt_mul_left (a := den)
      calc den * 2 ^ (52 + scaleOf num den) = unit * (den * 2 ^ scaleOf num den) := by
            rw [pow_add, show unit = 2 ^ 52 from rfl]
            ring
        _ ≤ num * 2 ^ 1074 := hle
        _ < den * 2 ^ 1023 * 2 ^ 1074 := (Nat.mul_lt_mul_right (pow_pos two_pos _)).mpr hlt
        _ = den * 2 ^ (1023 + 1074) := by rw [pow_add, Nat.mul_assoc]
    have := (Nat.pow_lt_pow_iff_right (by decide)).mp hpow
    omega

/-! ## The nearest size -/

/-- The size `a`, counted in least positive numbers, has the scale `s`, and the significand `r` is
the nearest one there. -/
structure RoundedAt (a : ℚ) (s r : Nat) : Prop where
  /-- The scale is not too large, -/
  low : s = 0 ∨ unit * 2 ^ s ≤ a
  /-- nor too small. -/
  high : a < 2 * unit * 2 ^ s
  /-- The significand is off by a half at most, -/
  near : |r * 2 ^ s - a| ≤ 2 ^ s / 2
  /-- and by a half only if it is even. -/
  even : |r * 2 ^ s - a| = 2 ^ s / 2 → Even r

namespace RoundedAt

variable {a : ℚ} {s r : Nat}

theorem unit_le (h : RoundedAt a s r) : s = 0 ∨ unit ≤ r := by
  refine h.low.imp_right fun hlow => ?_
  have hp : (0 : ℚ) < 2 ^ s := by positivity
  have hnear := (abs_le.mp h.near).1
  have hlt : (unit : ℚ) < r + 1 := by
    rw [← mul_lt_mul_iff_left₀ hp]
    linarith
  exact Nat.lt_succ_iff.mp (by exact_mod_cast hlt)

theorem le_two_mul_unit (h : RoundedAt a s r) : r ≤ 2 * unit := by
  have hp : (0 : ℚ) < 2 ^ s := by positivity
  have hnear := (abs_le.mp h.near).2
  have hhigh := h.high
  have hlt : (r : ℚ) < 2 * unit + 1 := by
    rw [← mul_lt_mul_iff_left₀ hp]
    linarith
  exact Nat.lt_succ_iff.mp (by exact_mod_cast hlt)

theorem grid_eq (h : RoundedAt a s r) : grid (s * unit + r) = r * 2 ^ s :=
  grid_scaled h.unit_le h.le_two_mul_unit

/-- A larger number is larger by one unit of the significand at least. -/
theorem le_grid (h : RoundedAt a s r) {m : Nat} (hm : s * unit + r < m) :
    (r + 1) * 2 ^ s ≤ grid m := by
  have hscale : s ≤ (s * unit + r) / unit - 1 := by
    have hlow := h.unit_le
    unfold unit at *
    omega
  calc (r + 1) * 2 ^ s = grid (s * unit + r) + 2 ^ s := by rw [h.grid_eq, Nat.succ_mul]
    _ ≤ grid (s * unit + r + 1) := by
      rw [grid_succ]
      exact Nat.add_le_add_left (Nat.pow_le_pow_right (by decide) hscale) _
    _ ≤ grid m := grid_strictMono.monotone hm

/-- So is a smaller one smaller, unless the significand is the least of its scale. -/
theorem grid_le (h : RoundedAt a s r) {m : Nat} (hm : m < s * unit + r)
    (hr : s = 0 ∨ unit < r) : grid m + 2 ^ s ≤ r * 2 ^ s := by
  obtain ⟨k, rfl⟩ : ∃ k, r = k + 1 := by
    apply Nat.exists_eq_add_one.mpr
    rcases hr with rfl | hr
    · omega
    · exact Nat.zero_lt_of_lt hr
  have hk : grid (s * unit + k) = k * 2 ^ s :=
    grid_scaled (by omega) (Nat.le_of_succ_le h.le_two_mul_unit)
  rw [Nat.succ_mul, ← hk]
  exact Nat.add_le_add_right (grid_strictMono.monotone (Nat.le_of_lt_succ hm)) _

/-- Any other number is off by half a unit of the significand at least, or by more than this one. -/
theorem far (h : RoundedAt a s r) {m : Nat} (hm : m ≠ s * unit + r) :
    2 ^ s / 2 ≤ |(grid m : ℚ) - a| ∨ |(r * 2 ^ s : ℚ) - a| < |(grid m : ℚ) - a| := by
  rcases Nat.lt_or_gt_of_ne hm with hlt | hgt
  · by_cases hr : s = 0 ∨ unit < r
    · have hle : (grid m : ℚ) + 2 ^ s ≤ r * 2 ^ s := by exact_mod_cast h.grid_le hlt hr
      have hnear := (abs_le.mp h.near).2
      exact Or.inl (le_abs.mpr (Or.inr (by linarith)))
    · -- The number below the least significand of a scale is nearer, but `a` does not lie below.
      have hleast : s ≠ 0 ∧ r = unit := by
        have := h.unit_le
        omega
      have ha : (r * 2 ^ s : ℚ) ≤ a := by
        rw [hleast.2]
        exact h.low.resolve_left hleast.1
      have hless : (grid m : ℚ) < r * 2 ^ s := by
        have := grid_strictMono hlt
        rw [h.grid_eq] at this
        exact_mod_cast this
      apply Or.inr
      rw [abs_of_nonpos (by linarith), abs_of_nonpos (by linarith)]
      linarith
  · have hle : ((r : ℚ) + 1) * 2 ^ s ≤ grid m := by exact_mod_cast h.le_grid hgt
    have hnear := (abs_le.mp h.near).1
    exact Or.inl (le_abs.mpr (Or.inl (by linarith)))

/-- **No size is nearer**, and if another one is as near, the significand is even. -/
theorem nearest (h : RoundedAt a s r) (m : Nat) :
    |(grid (s * unit + r) : ℚ) - a| ≤ |(grid m : ℚ) - a| ∧
      (|(grid m : ℚ) - a| = |(grid (s * unit + r) : ℚ) - a| →
        grid m ≠ grid (s * unit + r) → Even r) := by
  have hgrid : (grid (s * unit + r) : ℚ) = r * 2 ^ s := by exact_mod_cast h.grid_eq
  rw [hgrid]
  by_cases hm : m = s * unit + r
  · rw [hm, hgrid]
    exact ⟨le_refl _, fun _ hne => absurd rfl hne⟩
  · rcases h.far hm with hhalf | hlt
    · exact ⟨h.near.trans hhalf, fun heq _ => h.even (le_antisymm h.near (heq ▸ hhalf))⟩
    · exact ⟨hlt.le, fun heq _ => absurd heq hlt.ne'⟩

end RoundedAt

/-- **A quotient is rounded at its scale.** -/
theorem roundedAt_scaleOf {num den : Nat} (hnum : 0 < num) (hden : 0 < den) :
    RoundedAt ((num * 2 ^ 1074 : Nat) / den) (scaleOf num den)
      (roundQuotient (num * 2 ^ 1074) (den * 2 ^ scaleOf num den)) := by
  obtain ⟨hhigh, hlow⟩ := scaleOf_spec hnum hden
  generalize scaleOf num den = s at *
  generalize num * 2 ^ 1074 = n at *
  have hpos : (0 : ℚ) < den := Nat.cast_pos.mpr hden
  have hp : (0 : ℚ) < 2 ^ s := by positivity
  obtain ⟨hnear, heven⟩ := roundQuotient_spec n (Nat.mul_pos hden (Nat.two_pow_pos s))
  generalize roundQuotient n (den * 2 ^ s) = r at *
  have hscaled : |(r * 2 ^ s : ℚ) - n / den| = |(r : ℚ) - n / (den * 2 ^ s : Nat)| * 2 ^ s := by
    rw [← abs_of_pos hp, ← abs_mul, abs_of_pos hp, sub_mul, Nat.cast_mul, Nat.cast_pow,
      Nat.cast_ofNat, ← div_div, div_mul_cancel₀ _ hp.ne']
  refine ⟨hlow.imp_right fun hlow => ?_, ?_, ?_, fun heq => heven ?_⟩
  · rw [le_div_iff₀ hpos, mul_assoc, mul_comm _ (den : ℚ)]
    exact_mod_cast hlow
  · rw [div_lt_iff₀ hpos, mul_assoc, mul_comm _ (den : ℚ)]
    exact_mod_cast hhigh
  · rw [hscaled]
    linarith [mul_le_mul_of_nonneg_right hnear hp.le]
  · rw [hscaled] at heq
    exact mul_right_cancel₀ hp.ne' (by linarith)

/-! ## Sizes with a sign -/

theorem magnitude_ofMagnitude (negative : Bool) {m : Nat} (h : m < infinityBits) :
    (ofMagnitude negative m).magnitude = m := by
  unfold magnitude ofMagnitude
  unfold infinityBits unit at h
  rw [UInt64.toNat_ofNat']
  cases negative
  · rw [if_neg Bool.false_ne_true]
    omega
  · rw [if_pos rfl]
    omega

theorem negative_ofMagnitude (negative : Bool) {m : Nat} (h : m < infinityBits) :
    (ofMagnitude negative m).negative = negative := by
  unfold Binary64.negative ofMagnitude
  unfold infinityBits unit at h
  rw [UInt64.toNat_ofNat']
  cases negative
  · rw [if_neg Bool.false_ne_true, decide_eq_false_iff_not]
    omega
  · rw [if_pos rfl, decide_eq_true_iff]
    omega

theorem even_significand_iff (x : Binary64) : Even x.significand ↔ Even x.magnitude := by
  unfold significand unit
  rw [Nat.even_iff, Nat.even_iff]
  split <;> omega

/-- A finite number stands for its size with its sign. -/
theorem toRat_eq (x : Binary64) : x.toRat = signed x.negative (grid x.magnitude / 2 ^ 1074) := by
  have hgrid : x.significand * Nat.pow 2 x.scale = grid x.magnitude := rfl
  unfold toRat ratio
  generalize 1074 = least
  rw [hgrid, Nat.pow_eq, Nat.cast_pow, Nat.cast_ofNat]

theorem abs_toRat (x : Binary64) : |x.toRat| = grid x.magnitude / 2 ^ 1074 := by
  rw [toRat_eq, abs_signed]
  generalize 1074 = least
  exact abs_of_nonneg (by positivity)

section Signs

variable (negative : Bool) {a : ℚ} {m : Nat}

/-- Numbers of one sign are as far apart as their sizes. -/
theorem abs_ofMagnitude_sub (a : ℚ) (hm : m < infinityBits) :
    |(ofMagnitude negative m).toRat - signed negative a| = |(grid m : ℚ) / 2 ^ 1074 - a| := by
  rw [toRat_eq, negative_ofMagnitude negative hm, magnitude_ofMagnitude negative hm, signed_sub,
    abs_signed]

/-- Numbers of any signs are at least as far apart as their sizes. -/
theorem le_abs_toRat_sub (y : Binary64) (ha : 0 ≤ a) :
    |(grid y.magnitude : ℚ) / 2 ^ 1074 - a| ≤ |y.toRat - signed negative a| := by
  have h := abs_abs_sub_abs_le_abs_sub y.toRat (signed negative a)
  rwa [abs_toRat, abs_signed, abs_of_nonneg ha] at h

/-- **The number with the nearest size is the nearest number.** -/
theorem rounds_ofMagnitude (ha : 0 ≤ a) (hm : m < infinityBits)
    (hnear : ∀ k, |(grid m : ℚ) / 2 ^ 1074 - a| ≤ |(grid k : ℚ) / 2 ^ 1074 - a| ∧
      (|(grid k : ℚ) / 2 ^ 1074 - a| = |(grid m : ℚ) / 2 ^ 1074 - a| →
        grid k ≠ grid m → Even m)) :
    Rounds (signed negative a) (ofMagnitude negative m) := by
  have hmagnitude := magnitude_ofMagnitude negative hm
  have hown := abs_ofMagnitude_sub negative a hm
  refine ⟨?_, fun y _ => ?_, fun y _ heq hne => ?_⟩
  · rw [isFinite, hmagnitude, decide_eq_true_iff]
    exact hm
  · rw [hown]
    exact (hnear _).1.trans (le_abs_toRat_sub negative y ha)
  · rw [even_significand_iff, hmagnitude]
    rw [hown] at heq
    have hsame := le_antisymm ((le_abs_toRat_sub negative y ha).trans heq.le) (hnear y.magnitude).1
    refine (hnear y.magnitude).2 hsame fun hsize => ?_
    -- A number of the same size has the other sign, so that it is further away, or both are zero.
    have habs : |y.toRat| = |(ofMagnitude negative m).toRat| := by
      rw [abs_toRat, abs_toRat, hsize, hmagnitude]
    have hneg := (abs_eq_abs.mp habs).resolve_left hne
    have hx := toRat_eq (ofMagnitude negative m)
    rw [negative_ofMagnitude negative hm, hmagnitude] at hx
    have hzero := (hnear 0).1
    generalize 1074 = least at *
    rw [hneg, hx, abs_neg_signed_sub negative (by positivity) ha] at heq
    rw [← heq, show grid 0 = 0 from rfl, Nat.cast_zero, zero_div, zero_sub, abs_neg,
      abs_of_nonneg ha, add_le_iff_nonpos_left] at hzero
    have hnone : (grid m : ℚ) / 2 ^ least = 0 := le_antisymm hzero (by positivity)
    apply hne
    rw [hneg, hx, hnone, signed_zero, neg_zero]

end Signs

/-! ## Rounding a quotient -/

section Quotient

variable {num den : Nat}

/-- **The bits of a rounded quotient are those of the nearest size.** -/
theorem nearest_grid (hnum : 0 < num) (hden : 0 < den) {m : Nat}
    (hm : m = scaleOf num den * unit +
      roundQuotient (num * 2 ^ 1074) (den * 2 ^ scaleOf num den)) (k : Nat) :
    |(grid m : ℚ) / 2 ^ 1074 - num / den| ≤ |(grid k : ℚ) / 2 ^ 1074 - num / den| ∧
      (|(grid k : ℚ) / 2 ^ 1074 - num / den| = |(grid m : ℚ) / 2 ^ 1074 - num / den| →
        grid k ≠ grid m → Even m) := by
  obtain ⟨hle, heven⟩ := (roundedAt_scaleOf hnum hden).nearest k
  rw [← hm] at hle heven
  generalize 1074 = least at *
  have hp : (0 : ℚ) < 2 ^ least := by positivity
  have hdist : ∀ k, |(grid k : ℚ) / 2 ^ least - num / den| =
      |(grid k : ℚ) - (num * 2 ^ least : Nat) / den| / 2 ^ least := by
    intro k
    rw [← abs_of_pos hp, ← abs_div, abs_of_pos hp, sub_div, Nat.cast_mul, Nat.cast_pow,
      Nat.cast_ofNat, mul_div_right_comm, mul_div_cancel_right₀ _ hp.ne']
  rw [hdist, hdist, div_le_div_iff_of_pos_right hp, div_left_inj' hp.ne']
  refine ⟨hle, fun hsame hne => ?_⟩
  have hunit : Even unit := ⟨2 ^ 51, rfl⟩
  rw [hm]
  exact (hunit.mul_left _).add (heven hsame hne)

/-- A quotient within the range of the finite numbers does not become an infinity. -/
theorem roundRatio_eq (negative : Bool) (hnum : 0 < num) (hden : 0 < den)
    (hlt : num < den * 2 ^ 1023) :
    ∃ m < infinityBits, roundRatio negative num den = ofMagnitude negative m ∧
      m = scaleOf num den * unit +
        roundQuotient (num * 2 ^ 1074) (den * 2 ^ scaleOf num den) := by
  have hscale := scaleOf_lt hnum hden hlt
  have hbits := (roundedAt_scaleOf hnum hden).le_two_mul_unit
  refine ⟨_, ?_, ?_, rfl⟩
  · unfold infinityBits unit at *
    omega
  · rw [roundRatio, if_neg hnum.ne']
    dsimp only
    generalize 1074 = least at *
    rw [Nat.pow_eq, Nat.pow_eq, if_neg]
    unfold infinityBits unit at *
    omega

/-- **Rounding gives the nearest number**, with the sign asked for. -/
theorem rounds_roundRatio (negative : Bool) (hden : 0 < den) (hlt : num < den * 2 ^ 1023) :
    Rounds (signed negative (num / den)) (roundRatio negative num den) ∧
      (roundRatio negative num den).negative = negative := by
  rcases Nat.eq_zero_or_pos num with rfl | hnum
  · have hzero : roundRatio negative 0 den = ofMagnitude negative 0 := if_pos rfl
    rw [hzero, Nat.cast_zero, zero_div]
    refine ⟨rounds_ofMagnitude negative (le_refl 0) (by decide) fun k => ⟨?_, fun _ _ => Even.zero⟩,
      negative_ofMagnitude negative (by decide)⟩
    rw [show grid 0 = 0 from rfl, Nat.cast_zero, zero_div, sub_zero, abs_zero]
    exact abs_nonneg _
  · obtain ⟨m, hm, heq, hplace⟩ := roundRatio_eq negative hnum hden hlt
    have ha : (0 : ℚ) ≤ num / den := div_nonneg (Nat.cast_nonneg _) (Nat.cast_nonneg _)
    rw [heq]
    exact ⟨rounds_ofMagnitude negative ha hm (nearest_grid hnum hden hplace),
      negative_ofMagnitude negative hm⟩

end Quotient

end Binary64

end RpcDaemon
