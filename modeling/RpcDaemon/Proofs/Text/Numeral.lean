import RpcDaemon.Text.Blank
import RpcDaemon.Text.Numeral

/-!
# Decimal text read back

The digits of a number write that number, no superfluous zero stands before them, and they are
scanned off a text up to the first character that is no digit.
-/

namespace RpcDaemon

namespace Digit

/-- The character of a digit is read as that digit. -/
theorem ofChar?_toChar (d : Digit) : ofChar? d.toChar = some d := by
  revert d
  decide

/-- The character of a digit stands between `0` and `9`. -/
theorem toNat_toChar (d : Digit) : d.toChar.toNat = 48 + d.val := by
  revert d
  decide

/-- A character outside of `0` to `9` is that of no digit. -/
theorem toChar_ne (d : Digit) {c : Char} (h : c.toNat < 48 ∨ 57 < c.toNat) : d.toChar ≠ c := by
  rintro rfl
  rw [toNat_toChar] at h
  omega

/-- A digit is no blank. -/
theorem isBlank_toChar (d : Digit) : isBlank d.toChar = false := by
  revert d
  decide

/-- Digits are scanned up to the first character that is none. -/
theorem scan_append (ds : List Digit) {rest : List Char}
    (h : ∀ c, rest.head? = some c → ofChar? c = none) :
    scan (ds.map toChar ++ rest) = (ds, rest) := by
  induction ds with
  | nil =>
    cases rest with
    | nil => rfl
    | cons c rest =>
      rw [List.map_nil, List.nil_append, scan, h c rfl]
  | cons d ds ih =>
    rw [List.map_cons, List.cons_append, scan, ofChar?_toChar, ih]

/-- A text of digits only is scanned to its end. -/
theorem scan_map (ds : List Digit) : scan (ds.map toChar) = (ds, []) := by
  have h : scan (ds.map toChar ++ []) = (ds, []) := scan_append ds (by simp)
  rwa [List.append_nil] at h

/-- Digits are told by their characters. -/
theorem map_toChar_injective {ds es : List Digit} (h : ds.map toChar = es.map toChar) :
    ds = es := by
  have hscan := congrArg scan h
  rw [scan_map, scan_map] at hscan
  exact congrArg Prod.fst hscan

/-- A character that is read as a digit is that of the digit. -/
theorem toChar_of_ofChar? {c : Char} {d : Digit} (h : ofChar? c = some d) : d.toChar = c := by
  unfold ofChar? at h
  split at h
  · rename_i hc
    cases h
    show Char.ofNat (48 + (c.toNat - 48)) = c
    rw [Nat.add_sub_cancel' hc.1, Char.ofNat_toNat]
  · cases h

/-- What is scanned are the digits at the front of the text. -/
theorem eq_of_scan {cs rest : List Char} {ds : List Digit} (h : scan cs = (ds, rest)) :
    cs = ds.map toChar ++ rest := by
  induction cs generalizing ds with
  | nil =>
    cases h
    rfl
  | cons c cs ih =>
    rw [scan] at h
    split at h
    · rename_i d hd
      cases h
      rw [List.map_cons, toChar_of_ofChar? hd, List.cons_append, ← ih rfl]
    · cases h
      rfl

/-- Zeros before other digits do not change the number. -/
theorem value_zeros_append (k : Nat) (ds : List Digit) :
    value (List.replicate k zero ++ ds) = value ds := by
  induction k with
  | zero => rfl
  | succ k ih =>
    rw [List.replicate_succ, List.cons_append]
    exact ih

end Digit

namespace Numeral

/-! ## The digits of a number -/

/-- The digits, least significant first, write the number. -/
theorem foldr_digitsRev (fuel n : Nat) (h : n < fuel) :
    (digitsRev fuel n).foldr (fun d acc => acc * 10 + d.val) 0 = n := by
  induction fuel generalizing n with
  | zero => omega
  | succ fuel ih =>
    rw [digitsRev, List.foldr_cons]
    show _ * 10 + n % 10 = n
    by_cases hn : n < 10
    · rw [if_pos hn, List.foldr_nil]
      omega
    · rw [if_neg hn, ih (n / 10) (by omega)]
      omega

/-- The most significant digit is zero for the number zero only. -/
theorem getLast?_digitsRev (fuel n : Nat) (h : n < fuel) {d : Digit}
    (hd : (digitsRev fuel n).getLast? = some d) (hz : d.val = 0) : n = 0 := by
  induction fuel generalizing n with
  | zero => omega
  | succ fuel ih =>
    rw [digitsRev] at hd
    by_cases hn : n < 10
    · rw [if_pos hn] at hd
      have hd' : Fin.ofNat 10 n = d := Option.some.inj hd
      have hv : n % 10 = d.val := congrArg Fin.val hd'
      omega
    · rw [if_neg hn, List.getLast?_cons] at hd
      have hrec : (digitsRev fuel (n / 10)).getLast? = some d := by
        cases hl : (digitsRev fuel (n / 10)).getLast? with
        | none =>
          rw [List.getLast?_eq_none_iff] at hl
          have hval := foldr_digitsRev fuel (n / 10) (by omega)
          rw [hl, List.foldr_nil] at hval
          omega
        | some e =>
          rw [hl] at hd
          exact hd
      have := ih (n / 10) (by omega) hrec
      omega

/-- **The digits of a number write that number.** -/
theorem value_digits (n : Nat) : Digit.value (digits n) = n := by
  unfold Digit.value Digit.valueFrom digits
  rw [List.foldl_reverse]
  exact foldr_digitsRev (n + 1) n (Nat.lt_succ_self n)

/-- Every number has a digit. -/
theorem digits_ne_nil (n : Nat) : digits n ≠ [] := by
  unfold digits
  rw [digitsRev]
  exact fun h => List.cons_ne_nil _ _ (List.reverse_eq_nil_iff.mp h)

/-- No zero stands before another digit. -/
theorem tail_eq_nil_of_digits {n : Nat} {d : Digit} {ds : List Digit} (h : digits n = d :: ds)
    (hz : d.val = 0) : ds = [] := by
  have hlast : (digitsRev (n + 1) n).getLast? = some d := by
    rw [← List.head?_reverse]
    show (digits n).head? = some d
    rw [h]
    rfl
  have hn := getLast?_digitsRev (n + 1) n (Nat.lt_succ_self n) hlast hz
  subst hn
  exact (List.cons.inj h).2.symm

/-- A number whose digits start with zero is zero. -/
theorem digits_of_head?_zero {n : Nat} (h : (digits n).head? = some Digit.zero) :
    digits n = [Digit.zero] := by
  obtain ⟨ds, hds⟩ := List.head?_eq_some_iff.mp h
  rw [hds, tail_eq_nil_of_digits hds rfl]

/-! ## The text of a number -/

/-- The text of a number consists of digits. -/
theorem exists_digit_of_mem_ofNat {n : Nat} {c : Char} (h : c ∈ ofNat n) :
    ∃ d : Digit, c = d.toChar := by
  obtain ⟨d, -, rfl⟩ := List.mem_map.mp h
  exact ⟨d, rfl⟩

/-- The text of a number is not empty. -/
theorem ofNat_ne_nil (n : Nat) : ofNat n ≠ [] := by
  unfold ofNat
  rw [ne_eq, List.map_eq_nil_iff]
  exact digits_ne_nil n

/-- A number below a power of ten has at most that many digits. -/
theorem length_digitsRev_le {k : Nat} (hk : 0 < k) (fuel n : Nat) (h : n < Nat.pow 10 k) :
    (digitsRev fuel n).length ≤ k := by
  induction k generalizing fuel n with
  | zero => omega
  | succ k ih =>
    cases fuel with
    | zero => exact Nat.zero_le _
    | succ fuel =>
      rw [digitsRev, List.length_cons]
      by_cases hn : n < 10
      · rw [if_pos hn]
        exact Nat.succ_le_succ (Nat.zero_le k)
      · rw [if_neg hn]
        have hstep : Nat.pow 10 (k + 1) = Nat.pow 10 k * 10 := rfl
        have hk : 0 < k := by
          rcases Nat.eq_zero_or_pos k with rfl | hk
          · have hone : Nat.pow 10 0 = 1 := rfl
            omega
          · exact hk
        exact Nat.succ_le_succ (ih hk fuel (n / 10) (by omega))

/-- The text of a number below a power of ten has at most that many characters. -/
theorem length_ofNat_le {k n : Nat} (hk : 0 < k) (h : n < Nat.pow 10 k) :
    (ofNat n).length ≤ k := by
  rw [ofNat, List.length_map, digits, List.length_reverse]
  exact length_digitsRev_le hk (n + 1) n h

/-- No blank stands in the text of a number. -/
theorem isBlank_of_mem_ofNat {n : Nat} {c : Char} (h : c ∈ ofNat n) : isBlank c = false := by
  obtain ⟨d, rfl⟩ := exists_digit_of_mem_ofNat h
  exact d.isBlank_toChar

/-- **The text of a number is read as that number.** -/
theorem nat?_ofNat (n : Nat) : nat? (ofNat n) = some n := by
  unfold nat? ofNat
  rw [Digit.scan_map]
  cases hd : digits n with
  | nil => exact absurd hd (digits_ne_nil n)
  | cons d ds =>
    show some (Digit.value (d :: ds)) = some n
    rw [← hd, value_digits]

/-- A number below the bound that is written in digits only is read. -/
theorem unsigned?_of_nat? {bound n : Nat} {cs : List Char} (hcs : nat? cs = some n)
    (h : n < bound) : unsigned? bound cs = some n := by
  unfold unsigned?
  split
  · rename_i rest
    -- A plus sign is no digit, so what follows one is not what was read.
    have hplus : nat? ('+' :: rest) = none := by
      rw [nat?, Digit.scan]
      rfl
    rw [hplus] at hcs
    cases hcs
  · dsimp only
    rw [hcs]
    exact if_pos h

/-- **The number of a text of digits** is what the digits write. -/
theorem nat?_eq_some_iff {cs : List Char} {n : Nat} :
    nat? cs = some n ↔
      ∃ ds : List Digit, ds ≠ [] ∧ cs = ds.map Digit.toChar ∧ Digit.value ds = n := by
  constructor
  · intro h
    unfold nat? at h
    split at h
    · rename_i d ds hscan
      have hcs := Digit.eq_of_scan hscan
      rw [List.append_nil] at hcs
      exact ⟨d :: ds, List.cons_ne_nil d ds, hcs, Option.some.inj h⟩
    · cases h
  · rintro ⟨ds, hne, rfl, rfl⟩
    obtain ⟨d, ds, rfl⟩ := List.exists_cons_of_ne_nil hne
    rw [nat?, Digit.scan_map]

/-- A number may be written with a plus sign before its digits. -/
def Writes (cs : List Char) (n : Nat) : Prop :=
  ∃ ds : List Digit, ds ≠ [] ∧ Digit.value ds = n ∧
    (cs = ds.map Digit.toChar ∨ cs = '+' :: ds.map Digit.toChar)

/-- **A number below the bound is read off what writes it**, and off nothing else. -/
theorem unsigned?_eq_some_iff {bound n : Nat} {cs : List Char} :
    unsigned? bound cs = some n ↔ Writes cs n ∧ n < bound := by
  constructor
  · intro h
    unfold unsigned? at h
    dsimp only at h
    split at h
    · rename_i m hbody
      split at h
      · rename_i hm
        cases h
        obtain ⟨ds, hne, hds, hvalue⟩ := nat?_eq_some_iff.mp hbody
        refine ⟨⟨ds, hne, hvalue, ?_⟩, hm⟩
        split at hds
        · exact Or.inr (by rw [hds])
        · exact Or.inl hds
      · cases h
    · cases h
  · rintro ⟨⟨ds, hne, hvalue, rfl | rfl⟩, hn⟩
    · exact unsigned?_of_nat? (nat?_eq_some_iff.mpr ⟨ds, hne, rfl, hvalue⟩) hn
    · -- What stands behind the sign is read as a number without one.
      have hdigits : nat? (ds.map Digit.toChar) = some n :=
        nat?_eq_some_iff.mpr ⟨ds, hne, rfl, hvalue⟩
      rw [unsigned?]
      split
      · rename_i m hm
        obtain rfl : n = m := Option.some.inj (hdigits.symm.trans hm)
        exact if_pos hn
      · rename_i hnone
        cases hdigits.symm.trans hnone

/-- An integer may be written with a minus sign before its digits. -/
def WritesInt (cs : List Char) (n : Int) : Prop :=
  (∃ m : Nat, Writes cs m ∧ n = m) ∨
    ∃ ds : List Digit, ds ≠ [] ∧ cs = '-' :: ds.map Digit.toChar ∧ n = -(Digit.value ds : Int)

/-- What writes a number has no minus sign at its front. -/
theorem not_writes_minus {cs : List Char} {n : Nat} : ¬Writes ('-' :: cs) n := by
  rintro ⟨_ | ⟨d, ds⟩, hne, -, h | h⟩
  · exact hne rfl
  · exact hne rfl
  · exact d.toChar_ne (Or.inl (by decide)) (List.cons.inj h).1.symm
  · cases h

/-- **An integer within the bounds is read off what writes it**, and off nothing else. -/
theorem signed?_eq_some_iff {half : Nat} (hhalf : 0 < half) {n : Int} {cs : List Char} :
    signed? half cs = some n ↔ WritesInt cs n ∧ -(half : Int) ≤ n ∧ n < half := by
  unfold signed?
  split
  · rename_i rest
    constructor
    · intro h
      split at h
      · rename_i m hm
        obtain ⟨ds, hne, rfl, rfl⟩ := nat?_eq_some_iff.mp hm
        split at h
        · cases h
          exact ⟨Or.inr ⟨ds, hne, rfl, rfl⟩, by omega, by omega⟩
        · cases h
      · cases h
    · rintro ⟨⟨m, hwrites, -⟩ | ⟨ds, hne, hcs, rfl⟩, hlow, -⟩
      · exact absurd hwrites not_writes_minus
      · rw [nat?_eq_some_iff.mpr ⟨ds, hne, (List.cons.inj hcs).2, rfl⟩]
        exact if_pos (by omega)
  · rename_i hminus
    constructor
    · intro h
      cases hm : unsigned? half cs with
      | none =>
        rw [hm] at h
        cases h
      | some m =>
        rw [hm] at h
        cases h
        obtain ⟨hwrites, hlt⟩ := unsigned?_eq_some_iff.mp hm
        have hlow : -(half : Int) ≤ (m : Int) := by omega
        exact ⟨Or.inl ⟨m, hwrites, rfl⟩, hlow, Int.ofNat_lt.mpr hlt⟩
    · rintro ⟨⟨m, hwrites, rfl⟩ | ⟨ds, -, hcs, -⟩, -, hlt⟩
      · rw [unsigned?_eq_some_iff.mpr ⟨hwrites, Int.ofNat_lt.mp hlt⟩]
        rfl
      · exact absurd hcs (hminus _)

/-- A number is told by its text. -/
theorem ofNat_injective {m n : Nat} (h : ofNat m = ofNat n) : m = n := by
  have hread := congrArg nat? h
  rw [nat?_ofNat, nat?_ofNat] at hread
  exact Option.some.inj hread

/-- Only digits stand in a decimal number. -/
theorem notMem_ofNat {c : Char} (hc : c.toNat < 48 ∨ 57 < c.toNat) (n : Nat) :
    c ∉ ofNat n := by
  intro h
  obtain ⟨d, hd⟩ := exists_digit_of_mem_ofNat h
  exact d.toChar_ne hc hd.symm

/-! ## Padded numbers -/

/-- A padded number has zeros before its digits. -/
theorem padded_eq (width n : Nat) :
    padded width n =
      (List.replicate (width - (digits n).length) Digit.zero ++ digits n).map Digit.toChar := by
  rw [List.map_append, List.map_replicate, padded, ofNat, List.length_map]
  rfl

/-- **A padded number is read as that number.** -/
theorem nat?_padded (width n : Nat) : nat? (padded width n) = some n := by
  refine nat?_eq_some_iff.mpr ⟨_, ?_, padded_eq width n, ?_⟩
  · exact List.append_ne_nil_of_right_ne_nil _ (digits_ne_nil n)
  · rw [Digit.value_zeros_append, value_digits]

/-- A number below a power of ten is padded to exactly that many digits. -/
theorem length_padded {k n : Nat} (hk : 0 < k) (h : n < Nat.pow 10 k) :
    (padded k n).length = k := by
  have hle := length_ofNat_le hk h
  rw [padded, List.length_append, List.length_replicate]
  omega

end Numeral

end RpcDaemon
