import RpcDaemon.Proofs.Text.Blank
import RpcDaemon.Proofs.Text.Numeral
import RpcDaemon.Toml.Document
import RpcDaemon.Toml.Scalar

/-!
# TOML integers and truth values read back

The decimal text of an integer of 64 bits is read neither as a date nor as a float but as that
integer, if nothing follows that adds to it. Main statements: `scanScalar?_ofInt` and
`scanScalar?_boolean`.
-/

namespace RpcDaemon

namespace Toml

/-- The marks that stand behind digits in numbers, dates and times. -/
def numberMarks : List Char := ['_', '.', 'e', 'E', '-', ':', 'x', 'o', 'b']

/-- What follows a number does not add to it: neither a digit nor a mark. -/
def EndsNumber (rest : List Char) : Prop :=
  ∀ c, rest.head? = some c → Digit.ofChar? c = none ∧ c ∉ numberMarks

theorem endsNumber_cons {c : Char} (h : Digit.ofChar? c = none ∧ c ∉ numberMarks)
    (rest : List Char) : EndsNumber (c :: rest) := by
  intro d hd
  cases hd
  exact h

/-- The first character after a number is none of its marks. -/
theorem EndsNumber.ne {c : Char} {rest : List Char} (h : EndsNumber (c :: rest)) {m : Char}
    (hm : m ∈ numberMarks) : c ≠ m := by
  rintro rfl
  exact (h c rfl).2 hm

/-- No digit is a mark. -/
theorem toChar_ne_of_mem (d : Digit) {m : Char} (hm : m ∈ numberMarks) : d.toChar ≠ m := by
  have hmarks : ∀ m ∈ numberMarks, m.toNat < 48 ∨ 57 < m.toNat := Chars.forall_of_all (by decide)
  exact d.toChar_ne (hmarks m hm)

variable {rest : List Char}

/-! ## Neither a date nor a time -/

/-- Digits are taken one by one; there have to be enough of them. -/
theorem scanFixed?_digits (h : EndsNumber rest) (k : Nat) (ds : List Digit) :
    scanFixed? k (ds.map Digit.toChar ++ rest) =
      if k ≤ ds.length then some (ds.take k, (ds.drop k).map Digit.toChar ++ rest) else none := by
  induction k generalizing ds with
  | zero => rfl
  | succ k ih =>
    cases ds with
    | nil =>
      cases rest with
      | nil => rfl
      | cons c rest =>
        show scanFixed? (k + 1) (c :: rest) = none
        rw [scanFixed?, (h c rfl).1]
    | cons d ds =>
      rw [List.map_cons, List.cons_append, scanFixed?, Digit.ofChar?_toChar]
      dsimp only
      rw [ih]
      have hlength : k + 1 ≤ (d :: ds).length ↔ k ≤ ds.length := Nat.succ_le_succ_iff
      by_cases hk : k ≤ ds.length
      · rw [if_pos hk, if_pos (hlength.mpr hk)]
        rfl
      · rw [if_neg hk, if_neg fun hk' => hk (hlength.mp hk')]
        rfl

/-- No mark follows the digits of a number. -/
theorem scanChar?_digits (h : EndsNumber rest) {m : Char} (hm : m ∈ numberMarks)
    (ds : List Digit) : scanChar? m (ds.map Digit.toChar ++ rest) = none := by
  cases ds with
  | nil =>
    cases rest with
    | nil => rfl
    | cons c rest =>
      show scanChar? m (c :: rest) = none
      rw [scanChar?, if_neg fun heq => h.ne hm heq.symm]
  | cons d ds =>
    rw [List.map_cons, List.cons_append, scanChar?,
      if_neg fun heq => toChar_ne_of_mem d hm heq.symm]

/-- Digits are no date. -/
theorem afterDate?_digits (h : EndsNumber rest) (ds : List Digit) :
    afterDate? (ds.map Digit.toChar ++ rest) = none := by
  unfold afterDate?
  rw [scanFixed?_digits h]
  split
  · rw [Option.bind_eq_bind, Option.bind_some]
    dsimp only
    rw [scanChar?_digits h (by decide)]
    rfl
  · rfl

/-- Digits are no time. -/
theorem afterTime?_digits (h : EndsNumber rest) (ds : List Digit) :
    afterTime? (ds.map Digit.toChar ++ rest) = none := by
  have htwo : ∀ high after, scanTwo? 0 high (ds.map Digit.toChar ++ rest) = some after →
      scanChar? ':' after = none := by
    intro high after hafter
    unfold scanTwo? at hafter
    rw [scanFixed?_digits h] at hafter
    split at hafter
    · rename_i heq
      split at heq
      · cases heq
        split at hafter
        · cases hafter
          exact scanChar?_digits h (by decide) _
        · cases hafter
      · cases heq
    · cases hafter
  unfold afterTime?
  cases hhour : scanTwo? 0 23 (ds.map Digit.toChar ++ rest) with
  | none => rfl
  | some after =>
    rw [Option.bind_eq_bind, Option.bind_some, htwo 23 after hhour]
    rfl

/-- Digits with or without a minus sign are neither a date nor a time. -/
theorem scanMoment?_signed (h : EndsNumber rest) (negative : Bool) (ds : List Digit) :
    scanMoment? ((if negative then ['-'] else []) ++ (ds.map Digit.toChar ++ rest)) = none := by
  cases negative with
  | true => rfl
  | false =>
    show scanMoment? (ds.map Digit.toChar ++ rest) = none
    rw [scanMoment?, afterMoment?, afterDate?_digits h]
    dsimp only
    rw [afterTime?_digits h]
    rfl

/-! ## An integer -/

/-- A run of digits is scanned back. -/
theorem scanDigitsFrom?_digits (h : EndsNumber rest) (ds : List Digit) :
    scanDigitsFrom? Digit.ofChar? (ds.map Digit.toChar ++ rest) = some (ds, rest) := by
  induction ds with
  | nil =>
    cases rest with
    | nil => rfl
    | cons c rest =>
      have hc : c ≠ '_' := h.ne (by decide)
      show scanDigitsFrom? Digit.ofChar? (c :: rest) = _
      rw [scanDigitsFrom?.eq_3 _ c rest fun _ _ heq => absurd heq hc, (h c rfl).1]
      dsimp only
      rw [if_neg hc]
  | cons d ds ih =>
    have hd : d.toChar ≠ '_' := d.toChar_ne (by decide)
    rw [List.map_cons, List.cons_append, scanDigitsFrom?.eq_3 _ _ _ fun _ _ heq => absurd heq hd,
      Digit.ofChar?_toChar]
    dsimp only
    rw [ih]
    rfl

/-- The digits of a number are scanned back: a zero stands first only if it stands alone. -/
theorem scanWhole?_digits (h : EndsNumber rest) (n : Nat) :
    scanWhole? ((Numeral.digits n).map Digit.toChar ++ rest) = some (Numeral.digits n, rest) := by
  cases hds : Numeral.digits n with
  | nil => exact absurd hds (Numeral.digits_ne_nil n)
  | cons d ds =>
    by_cases hz : d.val = 0
    · have hd : d = Digit.zero := Fin.ext hz
      rw [Numeral.tail_eq_nil_of_digits hds hz, hd]
      rfl
    · have hne : ∀ more, d.toChar :: (ds.map Digit.toChar ++ rest) ≠ '0' :: more := by
        intro more heq
        have hd : d.toChar = Digit.zero.toChar := (List.cons.inj heq).1
        have hzero : some d = some Digit.zero := by
          rw [← Digit.ofChar?_toChar d, hd, Digit.ofChar?_toChar]
        exact hz (congrArg Fin.val (Option.some.inj hzero))
      rw [List.map_cons, List.cons_append, scanWhole?.eq_2 _ hne, scanDigits?,
        Digit.ofChar?_toChar]
      dsimp only
      rw [scanDigitsFrom?_digits h]
      rfl

/-- The sign of a number is read, if there is one. -/
theorem scanSign_signed (negative : Bool) {d : Digit} {cs : List Char} :
    scanSign ((if negative then ['-'] else []) ++ d.toChar :: cs) = (negative, d.toChar :: cs) := by
  cases negative with
  | true => rfl
  | false =>
    have hminus : d.toChar ≠ '-' := d.toChar_ne (by decide)
    have hplus : d.toChar ≠ '+' := d.toChar_ne (by decide)
    exact scanSign.eq_3 _ (fun _ heq => hminus (List.cons.inj heq).1)
      fun _ heq => hplus (List.cons.inj heq).1

/-- Digits without a point and an exponent have no tail of a float. -/
theorem scanTail?_of_endsNumber (h : EndsNumber rest) : scanTail? rest = none := by
  cases rest with
  | nil => rfl
  | cons c rest =>
    have hdot : c ≠ '.' := h.ne (by decide)
    have hexp : ¬(c = 'e' ∨ c = 'E') := by
      rintro (heq | heq)
      · exact h.ne (by decide) heq
      · exact h.ne (by decide) heq
    rw [scanTail?.eq_2 _ fun _ heq => absurd (List.cons.inj heq).1 hdot, scanExponent?,
      if_neg hexp]
    rfl

/-- An integer has no prefix of another base. -/
theorem scanInteger?_signed (h : EndsNumber rest) (negative : Bool) (n : Nat) :
    scanInteger? ((if negative then ['-'] else []) ++
        ((Numeral.digits n).map Digit.toChar ++ rest)) =
      scanDecimal? ((if negative then ['-'] else []) ++
        ((Numeral.digits n).map Digit.toChar ++ rest)) := by
  -- After a zero that stands first the number is at its end.
  have hprefix : ∀ m ∈ numberMarks, ∀ more,
      (if negative then ['-'] else []) ++ ((Numeral.digits n).map Digit.toChar ++ rest) ≠
        '0' :: m :: more := by
    intro m hm more heq
    cases negative with
    | true => cases heq
    | false =>
      cases hds : Numeral.digits n with
      | nil => exact absurd hds (Numeral.digits_ne_nil n)
      | cons d ds =>
        rw [hds] at heq
        obtain ⟨hd, htail⟩ := List.cons.inj heq
        have hzero : some d = some Digit.zero := by
          rw [← Digit.ofChar?_toChar d, hd]
          rfl
        rw [Numeral.tail_eq_nil_of_digits hds (congrArg Fin.val (Option.some.inj hzero))] at htail
        have hrest : rest = m :: more := htail
        exact (h m (by rw [hrest]; rfl)).2 hm
  exact scanInteger?.eq_4 _ (fun more heq => hprefix 'x' (by decide) more heq)
    (fun more heq => hprefix 'o' (by decide) more heq)
    (fun more heq => hprefix 'b' (by decide) more heq)

/-- **Digits with or without a minus sign are read as an integer**, if it has 64 bits. -/
theorem scanNumber?_signed (h : EndsNumber rest) (negative : Bool) (n : Nat) :
    scanNumber? ((if negative then ['-'] else []) ++
        ((Numeral.digits n).map Digit.toChar ++ rest)) =
      (integer? (if negative then -(n : Int) else n)).map (·, rest) := by
  have hwhole := scanWhole?_digits h n
  have hsign : scanSign ((if negative then ['-'] else []) ++
      ((Numeral.digits n).map Digit.toChar ++ rest)) =
        (negative, (Numeral.digits n).map Digit.toChar ++ rest) := by
    cases hds : Numeral.digits n with
    | nil => exact absurd hds (Numeral.digits_ne_nil n)
    | cons d ds => exact scanSign_signed negative
  have hfloat : scanFloat? ((if negative then ['-'] else []) ++
      ((Numeral.digits n).map Digit.toChar ++ rest)) = none := by
    rw [scanFloat?, hsign]
    dsimp only
    rw [hwhole]
    dsimp only
    rw [scanTail?_of_endsNumber h]
  rw [scanNumber?, scanMoment?_signed h, hfloat, scanInteger?_signed h, scanDecimal?, hsign]
  dsimp only [Option.none_or]
  rw [hwhole]
  dsimp only
  rw [Numeral.value_digits]

/-- The text of an integer is a sign, if it is negative, and the digits of its magnitude. -/
theorem ofInt_eq (n : Int) :
    Numeral.ofInt n = (if decide (n < 0) then ['-'] else []) ++
      (Numeral.digits n.natAbs).map Digit.toChar := by
  unfold Numeral.ofInt
  by_cases hn : n < 0
  · rw [if_pos hn, if_pos (decide_eq_true hn)]
    rfl
  · rw [if_neg hn, if_neg (by simpa using hn)]
    rfl

/-- An integer starts with a digit or a minus sign. -/
theorem ofInt_cons (n : Int) :
    ∃ c cs, Numeral.ofInt n = c :: cs ∧ (c = '-' ∨ ∃ d : Digit, c = d.toChar) := by
  rw [ofInt_eq]
  cases hds : Numeral.digits n.natAbs with
  | nil => exact absurd hds (Numeral.digits_ne_nil n.natAbs)
  | cons d ds =>
    by_cases hn : n < 0
    · exact ⟨'-', _, by rw [if_pos (decide_eq_true hn)]; rfl, Or.inl rfl⟩
    · exact ⟨d.toChar, _, by rw [if_neg (by simpa using hn)]; rfl, Or.inr ⟨d, rfl⟩⟩

/-- **An integer of 64 bits is read back from its decimal text.** -/
theorem scanScalar?_ofInt (n : Int64) (h : EndsNumber rest) :
    scanScalar? (Numeral.ofInt n.toInt ++ rest) = some (.integer n, rest) := by
  obtain ⟨c, cs, hc, hstart⟩ := ofInt_cons n.toInt
  have hne : c ≠ 't' ∧ c ≠ 'f' ∧ c ≠ 'i' ∧ c ≠ 'n' := by
    rcases hstart with rfl | ⟨d, rfl⟩
    · decide
    · exact ⟨d.toChar_ne (by decide), d.toChar_ne (by decide), d.toChar_ne (by decide),
        d.toChar_ne (by decide)⟩
  have hscalar : scanScalar? (Numeral.ofInt n.toInt ++ rest) =
      scanNumber? (Numeral.ofInt n.toInt ++ rest) := by
    rw [hc]
    exact scanScalar?.eq_5 _ (fun _ heq => hne.1 (List.cons.inj heq).1)
      (fun _ heq => hne.2.1 (List.cons.inj heq).1) (fun _ heq => hne.2.2.1 (List.cons.inj heq).1)
      fun _ heq => hne.2.2.2 (List.cons.inj heq).1
  have hvalue : (if decide (n.toInt < 0) then -(n.toInt.natAbs : Int) else n.toInt.natAbs) =
      n.toInt := by
    by_cases hn : n.toInt < 0
    · rw [if_pos (decide_eq_true hn)]
      omega
    · rw [if_neg (by simpa using hn)]
      omega
  have hrange : -9223372036854775808 ≤ n.toInt ∧ n.toInt < 9223372036854775808 :=
    ⟨n.le_toInt, n.toInt_lt⟩
  rw [hscalar, ofInt_eq, List.append_assoc, scanNumber?_signed h, hvalue, integer?, if_pos hrange,
    Int64.ofInt_toInt]
  rfl

/-- A truth value is read back. -/
theorem scanScalar?_boolean (b : Bool) (rest : List Char) :
    scanScalar? ((Written.boolean b).chars ++ rest) = some (.boolean b, rest) := by
  cases b <;> rfl

end Toml

end RpcDaemon
