import Mathlib.Tactic.FieldSimp
import Mathlib.Tactic.Ring
import RpcDaemon.Decimal.Reading
import RpcDaemon.Proofs.Decimal.Rounding
import RpcDaemon.Proofs.Text.Numeral

/-!
# Numbers with a point

A text with a point stands for one rational number: the digits before the point write its whole
part, and each digit behind the point counts a tenth of the one before it. Main statements:
`FixedPoint.unique`, and `ofText?_of_fixedPoint`, that such a text is read as the nearest floating
point number.
-/

namespace RpcDaemon

namespace Digit

/-! ## Digits behind a point -/

/-- The number that digits behind a point stand for. -/
def fraction : List Digit → ℚ
  | [] => 0
  | d :: ds => (d.val + fraction ds) / 10

theorem valueFrom_eq (n : Nat) (ds : List Digit) :
    valueFrom n ds = n * 10 ^ ds.length + value ds := by
  induction ds generalizing n with
  | nil => rw [List.length_nil, pow_zero, Nat.mul_one]; rfl
  | cons d ds ih =>
    have hstep : ∀ k, valueFrom k (d :: ds) = valueFrom (k * 10 + d.val) ds := fun _ => rfl
    rw [value, hstep, hstep, ih, ih, List.length_cons]
    ring

/-- Each digit that follows makes a digit count ten times as much. -/
theorem value_cons (d : Digit) (ds : List Digit) :
    value (d :: ds) = d.val * 10 ^ ds.length + value ds := by
  have hstep : value (d :: ds) = valueFrom (0 * 10 + d.val) ds := rfl
  rw [hstep, valueFrom_eq, Nat.zero_mul, Nat.zero_add]

/-- So does each digit that is put behind a number. -/
theorem value_append (ds es : List Digit) :
    value (ds ++ es) = value ds * 10 ^ es.length + value es := by
  have hfold : value (ds ++ es) = valueFrom (value ds) es := List.foldl_append
  rw [hfold, valueFrom_eq]

/-- Behind a point digits stand for the number that they write, divided once for each of them. -/
theorem fraction_eq (ds : List Digit) : fraction ds = value ds / 10 ^ ds.length := by
  induction ds with
  | nil => exact (zero_div _).symm
  | cons d ds ih =>
    rw [fraction, ih, value_cons, List.length_cons, Nat.cast_add, Nat.cast_mul, Nat.cast_pow,
      Nat.cast_ofNat]
    field_simp
    ring

/-- The point ends the digits before it. -/
theorem scan_point (ds : List Digit) (cs : List Char) :
    scan (ds.map toChar ++ '.' :: cs) = (ds, '.' :: cs) :=
  scan_append ds (by rintro c ⟨⟩; rfl)

end Digit

/-- **The text of the number `q` with a point**: a minus sign if it is asked for, digits without a
superfluous zero, a point, and as many digits as there are `places`. -/
inductive FixedPoint (places : Nat) (negative : Bool) : ℚ → List Char → Prop where
  /-- The number is read off the digits on both sides of the point. -/
  | intro {whole rest : List Digit} (hne : whole ≠ [])
      (hplain : whole.head? = some Digit.zero → whole = [Digit.zero])
      (hplaces : rest.length = places) :
      FixedPoint places negative
        (signed negative (Digit.value whole + Digit.fraction rest))
        ((if negative then ['-'] else []) ++ whole.map Digit.toChar ++
          '.' :: rest.map Digit.toChar)

namespace FixedPoint

variable {places places' : Nat} {negative negative' : Bool} {q q' : ℚ} {cs : List Char}

/-- The point tells the digits before it from those behind it. -/
theorem digits_inj {whole whole' rest rest' : List Digit}
    (h : whole.map Digit.toChar ++ '.' :: rest.map Digit.toChar =
      whole'.map Digit.toChar ++ '.' :: rest'.map Digit.toChar) :
    whole = whole' ∧ rest = rest' := by
  have hscan := congrArg Digit.scan h
  rw [Digit.scan_point, Digit.scan_point] at hscan
  obtain ⟨hwhole, hrest⟩ := Prod.mk.inj hscan
  exact ⟨hwhole, Digit.map_toChar_injective (List.cons.inj hrest).2⟩

/-- No text of digits has a minus sign at its front. -/
theorem minus_ne {whole : List Digit} (hne : whole ≠ []) {cs tail : List Char} :
    '-' :: cs ≠ whole.map Digit.toChar ++ tail := by
  obtain ⟨d, ds, rfl⟩ := List.exists_cons_of_ne_nil hne
  exact fun h => d.toChar_ne (Or.inl (by decide)) (List.cons.inj h).1.symm

/-- **A text stands for one number.** -/
theorem unique (h : FixedPoint places negative q cs) (h' : FixedPoint places' negative' q' cs) :
    q = q' := by
  obtain ⟨cs', htext⟩ : ∃ cs', cs = cs' := ⟨cs, rfl⟩
  rw [htext] at h'
  cases h with
  | intro hne _ _ =>
    cases h' with
    | intro hne' _ _ =>
      simp only [List.append_assoc] at htext
      cases negative <;> cases negative'
      · obtain ⟨rfl, rfl⟩ := digits_inj htext
        rfl
      · exact absurd htext.symm (minus_ne hne)
      · exact absurd htext (minus_ne hne')
      · obtain ⟨rfl, rfl⟩ := digits_inj (List.cons.inj htext).2
        rfl

end FixedPoint

namespace Binary64

/-! ## Reading -/

/-- A text that starts with a digit is no name. -/
theorem ofList_lower_ne (d : Digit) (cs : List Char) {c : Char} (hc : 57 < c.toNat)
    (name : List Char) :
    String.ofList (Chars.lower (d.toChar :: cs)) ≠ String.ofList (c :: name) := by
  have hlower : d.toChar.toLower = d.toChar := by
    revert d
    decide
  rw [Chars.lower, List.map_cons, hlower, Ne, String.ofList_inj]
  exact fun h => d.toChar_ne (Or.inr hc) (List.cons.inj h).1

/-- A minus sign before a digit is the sign of the number. -/
theorem ofText?_signed (negative : Bool) (d : Digit) (cs : List Char) :
    ofText? ((if negative then ['-'] else []) ++ d.toChar :: cs) =
      ofUnsignedText? negative (d.toChar :: cs) := by
  have hinfinite : ¬(String.ofList (Chars.lower (d.toChar :: cs)) = "inf" ∨
      String.ofList (Chars.lower (d.toChar :: cs)) = "infinity") := by
    rintro (h | h)
    · exact ofList_lower_ne d cs (by decide) ['n', 'f'] h
    · exact ofList_lower_ne d cs (by decide) ['n', 'f', 'i', 'n', 'i', 't', 'y'] h
  have hnan : String.ofList (Chars.lower (d.toChar :: cs)) ≠ "nan" :=
    ofList_lower_ne d cs (by decide) ['a', 'n']
  unfold ofText?
  cases negative
  · rw [if_neg Bool.false_ne_true, List.nil_append]
    dsimp only
    split
    · rename_i hminus
      exact absurd (List.cons.inj hminus).1 (d.toChar_ne (Or.inl (by decide)))
    · rename_i hplus
      exact absurd (List.cons.inj hplus).1 (d.toChar_ne (Or.inl (by decide)))
    · rw [if_neg hinfinite, if_neg hnan]
  · rw [if_pos rfl, List.singleton_append]
    simp only
    rw [if_neg hinfinite, if_neg hnan]

/-- Digits scaled down by no more than their number are rounded as a quotient. -/
theorem ofDecimal_sub (negative : Bool) (ds : List Digit) {places : Nat}
    (hplaces : places ≤ ds.length) :
    ofDecimal negative ds (0 - places) = roundRatio negative (Digit.value ds) (10 ^ places) := by
  unfold ofDecimal
  dsimp only
  by_cases hzero : Digit.value ds = 0
  · rw [if_pos hzero, roundRatio, if_pos hzero]
  · have hup : (0 - (places : Int)).toNat = 0 := by omega
    have hdown : (-(0 - (places : Int))).toNat = places := by omega
    rw [if_neg hzero, if_neg (by omega), if_neg (by omega), hup, hdown, Nat.pow_eq, Nat.pow_eq,
      pow_zero, Nat.mul_one]

/-- Digits with a point among them are read as one number, divided. -/
theorem ofUnsignedText?_digits (negative : Bool) {whole : List Digit} (hne : whole ≠ [])
    (rest : List Digit) :
    ofUnsignedText? negative (whole.map Digit.toChar ++ '.' :: rest.map Digit.toChar) =
      some (roundRatio negative (Digit.value (whole ++ rest)) (10 ^ rest.length)) := by
  have hdigits : ¬(whole ++ rest).isEmpty = true := by
    rw [List.isEmpty_iff]
    exact List.append_ne_nil_of_left_ne_nil hne rest
  have hplaces : rest.length ≤ (whole ++ rest).length := by
    rw [List.length_append]
    exact Nat.le_add_left _ _
  unfold ofUnsignedText?
  rw [Digit.scan_point]
  simp only [Digit.scan_map]
  rw [if_neg hdigits, exponent?, Option.map_some, ofDecimal_sub negative _ hplaces]

/-- **A text with a point is read as the nearest number**, with the sign of the text. -/
theorem ofText?_of_fixedPoint {places : Nat} {negative : Bool} {q : ℚ} {cs : List Char}
    (h : FixedPoint places negative q cs) (hq : |q| < 2 ^ 1023) :
    ∃ x, ofText? cs = some x ∧ Rounds q x ∧ x.negative = negative := by
  cases h with
  | @intro whole rest hne hplain hplaces =>
    have hvalue : (Digit.value whole + Digit.fraction rest : ℚ) =
        (Digit.value (whole ++ rest) : ℚ) / (10 ^ rest.length : Nat) := by
      rw [Digit.fraction_eq, Digit.value_append]
      push_cast
      field_simp
    have hden : 0 < 10 ^ rest.length := Nat.pow_pos (by decide)
    have hlt : Digit.value (whole ++ rest) < 10 ^ rest.length * 2 ^ 1023 := by
      rw [abs_signed, hvalue] at hq
      generalize 1023 = bits at *
      rw [abs_of_nonneg (by positivity), div_lt_iff₀ (by positivity), mul_comm] at hq
      exact_mod_cast hq
    obtain ⟨hrounds, hsign⟩ := rounds_roundRatio negative hden hlt
    refine ⟨_, ?_, hvalue ▸ hrounds, hsign⟩
    obtain ⟨d, ds, rfl⟩ := List.exists_cons_of_ne_nil hne
    rw [← ofUnsignedText?_digits negative hne rest, List.append_assoc, List.map_cons,
      List.cons_append, ofText?_signed]

end Binary64

end RpcDaemon
