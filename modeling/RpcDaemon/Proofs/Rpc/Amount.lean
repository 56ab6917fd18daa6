import RpcDaemon.Proofs.Decimal.FixedPoint
import RpcDaemon.Rpc.Amount

/-!
# Amounts in coins

The text of an amount is the exact number of coins, with eight digits behind the point, and the
number of a reply is the floating point number nearest to it. Main statement: `exact_in_coins`.
-/

namespace RpcDaemon

namespace Amount

/-! ## In words of 64 bits -/

/-- The size of an amount as a word. The least amount has no opposite among the amounts: it stays
what it is, and without a sign it is its own size. -/
def size (amount : Int64) : UInt64 :=
  amount.abs.toUInt64

/-- The text of an amount, with all numbers in words. -/
def wordChars (amount : Int64) : List Char :=
  (if amount < 0 then ['-'] else []) ++ Numeral.ofNat (size amount / UInt64.ofNat coin).toNat ++
    '.' :: Numeral.padded 8 (size amount % UInt64.ofNat coin).toNat

/-- **The size of an amount does not wrap around.** -/
theorem toNat_size (amount : Int64) : (size amount).toNat = amount.toInt.natAbs := by
  have hsize : (size amount).toNat = amount.toBitVec.abs.toNat := rfl
  have hint : amount.toInt = amount.toBitVec.toInt := rfl
  have hlt := amount.toBitVec.isLt
  rw [hsize, hint, BitVec.toNat_abs, BitVec.toInt_eq_msb_cond]
  split
  · omega
  · rw [Int.natAbs_natCast]

/-- So words are enough for its text. -/
theorem wordChars_eq (amount : Int64) : wordChars amount = chars amount := by
  have hsign : amount < 0 ↔ amount.toInt < 0 := Int64.lt_iff_toInt_lt
  have hcoin : (UInt64.ofNat coin).toNat = coin := rfl
  rw [wordChars, chars, UInt64.toNat_div, UInt64.toNat_mod, toNat_size, hcoin]
  simp only [hsign]

/-! ## The digits -/

section Digits

variable (amount : Int64)

/-- The digits before the point. -/
def whole : List Digit :=
  Numeral.digits (amount.toInt.natAbs / coin)

/-- The digits behind the point. -/
def units : List Digit :=
  let rest := Numeral.digits (amount.toInt.natAbs % coin)
  List.replicate (8 - rest.length) Digit.zero ++ rest

theorem chars_eq :
    chars amount = (if decide (amount.toInt < 0) then ['-'] else []) ++
      (whole amount).map Digit.toChar ++ '.' :: (units amount).map Digit.toChar := by
  rw [chars, Numeral.padded_eq]
  simp only [decide_eq_true_eq]
  rfl

theorem length_units : (units amount).length = 8 := by
  have hlt : amount.toInt.natAbs % coin < Nat.pow 10 8 := Nat.mod_lt _ (by decide)
  have hlength := Numeral.length_padded (by decide) hlt
  rwa [Numeral.padded_eq, List.length_map] at hlength

/-- The digits on both sides of the point make up the size. -/
theorem whole_add_units :
    (Digit.value (whole amount) + Digit.fraction (units amount) : ℚ) =
      amount.toInt.natAbs / 10 ^ 8 := by
  have hunits : Digit.value (units amount) = amount.toInt.natAbs % coin := by
    rw [units, Digit.value_zeros_append, Numeral.value_digits]
  have hsplit : (amount.toInt.natAbs : ℚ) =
      (amount.toInt.natAbs / coin : Nat) * 10 ^ 8 + (amount.toInt.natAbs % coin : Nat) := by
    exact_mod_cast (Nat.div_add_mod' amount.toInt.natAbs coin).symm
  rw [Digit.fraction_eq, length_units, hunits, whole, Numeral.value_digits, hsplit]
  field_simp

/-- An amount in coins is its size with its sign. -/
theorem coins_eq_signed :
    (amount.toInt : ℚ) / 10 ^ 8 =
      signed (decide (amount.toInt < 0)) (amount.toInt.natAbs / 10 ^ 8) := by
  rw [Nat.cast_natAbs, signed]
  by_cases hneg : amount.toInt < 0
  · rw [if_pos (decide_eq_true hneg), abs_of_neg hneg, Int.cast_neg, neg_div, neg_neg]
  · rw [if_neg (by rwa [decide_eq_true_iff]), abs_of_nonneg (Int.not_lt.mp hneg)]

/-- **The text of an amount is the amount in coins**, with eight digits behind the point. -/
theorem fixedPoint_chars :
    FixedPoint 8 (decide (amount.toInt < 0)) (amount.toInt / 10 ^ 8) (chars amount) := by
  rw [chars_eq, coins_eq_signed, ← whole_add_units]
  exact .intro (Numeral.digits_ne_nil _) Numeral.digits_of_head?_zero (length_units amount)

end Digits

/-! ## Amounts in replies -/

/-- Every amount is far within the range of the floating point numbers. -/
theorem abs_coins_lt (amount : Int64) : |(amount.toInt : ℚ) / 10 ^ 8| < 2 ^ 1023 := by
  have hsize : |amount.toInt| ≤ 2 ^ 63 := abs_le.mpr ⟨amount.le_toInt, amount.toInt_lt.le⟩
  calc |(amount.toInt : ℚ) / 10 ^ 8| = |(amount.toInt : ℚ)| / 10 ^ 8 := by
        rw [abs_div, abs_of_pos (show (0 : ℚ) < 10 ^ 8 by positivity)]
    _ ≤ |(amount.toInt : ℚ)| := div_le_self (abs_nonneg _) (by norm_num)
    _ ≤ 2 ^ 63 := by exact_mod_cast hsize
    _ < 2 ^ 1023 := pow_lt_pow_right₀ one_lt_two (by decide)

/-- **An amount is shown exactly.** Its text has a minus sign if it is negative, no superfluous
zero, and eight digits behind the point, and stands for the amount divided by the units of a coin;
words of 64 bits hold all numbers on the way, also for the least amount. So different amounts have
different texts. A text is read as the floating point number nearest to the amount in coins, which
is finite, and the reply shows that number. -/
theorem exact_in_coins (amount : Int64) :
    FixedPoint 8 (decide (amount.toInt < 0)) (amount.toInt / 10 ^ 8) (chars amount) ∧
      (size amount).toNat = amount.toInt.natAbs ∧ wordChars amount = chars amount ∧
      (∀ other, chars amount = chars other ↔ amount = other) ∧
      ∃ x, Binary64.ofText? (chars amount) = some x ∧
        Binary64.Rounds (amount.toInt / 10 ^ 8) x ∧ x.negative = decide (amount.toInt < 0) ∧
        toJson amount = .number (.float x) := by
  have htext := fixedPoint_chars amount
  refine ⟨htext, toNat_size amount, wordChars_eq amount,
    fun other => ⟨fun heq => ?_, congrArg chars⟩, ?_⟩
  · have hother := fixedPoint_chars other
    rw [← heq] at hother
    have hcoins := htext.unique hother
    rw [div_left_inj' (by positivity)] at hcoins
    exact Int64.toInt_inj.mp (by exact_mod_cast hcoins)
  · obtain ⟨x, hread, hrounds, hsign⟩ := Binary64.ofText?_of_fixedPoint htext (abs_coins_lt amount)
    refine ⟨x, hread, hrounds, hsign, ?_⟩
    rw [toJson, hread]
    exact if_pos hrounds.finite

/-- The least amount, which has no opposite. -/
example : chars Int64.minValue = "-92233720368.54775808".toList := by decide

end Amount

end RpcDaemon
