import RpcDaemon.Json.Reader
import RpcDaemon.Proofs.Text.Numeral

/-!
# Numbers and strings read back

The text of a number is scanned back to that number if nothing follows that could be a part of it,
the text of a string whatever follows. Main statements: `scanNumber?_append` and
`scanString?_quoted`.
-/

namespace RpcDaemon

namespace Json

/-! ## Numbers -/

/-- What follows a number: nothing that could be read as a part of it. -/
def EndsNumber (rest : List Char) : Prop :=
  ∀ c, rest.head? = some c → Digit.ofChar? c = none ∧ c ≠ '.' ∧ c ≠ 'e' ∧ c ≠ 'E'

theorem endsNumber_nil : EndsNumber [] := by
  intro c h
  cases h

/-- Every character that ends a number does so whatever follows it. -/
theorem endsNumber_cons {c : Char} (h : Digit.ofChar? c = none ∧ c ≠ '.' ∧ c ≠ 'e' ∧ c ≠ 'E')
    (rest : List Char) : EndsNumber (c :: rest) := by
  intro d hd
  cases hd
  exact h

/-- A number as a text can have it: digits before the point without a superfluous zero, and digits
wherever there is a point or an exponent. -/
structure NumberText.WellFormed (n : NumberText) : Prop where
  /-- There is a digit before the point. -/
  whole_ne_nil : n.whole ≠ []
  /-- No zero stands before another digit. -/
  no_leading_zero : ∀ d ds, n.whole = d :: ds → d.val = 0 → ds = []
  /-- There is a digit after the point. -/
  fraction_ne_nil : n.fraction ≠ some []
  /-- There is a digit in the exponent. -/
  exponent_ne_nil : ∀ negative, n.exponent ≠ some (negative, [])

/-- The point and the digits after it. -/
def fractionChars : Option (List Digit) → List Char
  | some ds => '.' :: digitChars ds
  | none => []

/-- The exponent. -/
def exponentChars : Option (Bool × List Digit) → List Char
  | some (negative, ds) => 'e' :: (if negative then ['-'] else []) ++ digitChars ds
  | none => []

/-- The text of a number after its sign. -/
def NumberText.unsignedChars (n : NumberText) : List Char :=
  digitChars n.whole ++ (fractionChars n.fraction ++ exponentChars n.exponent)

theorem NumberText.chars_eq (n : NumberText) :
    n.chars = (if n.negative then ['-'] else []) ++ n.unsignedChars := by
  obtain ⟨negative, whole, fraction, exponent⟩ := n
  unfold NumberText.chars NumberText.unsignedChars
  rw [List.append_assoc, List.append_assoc]
  cases fraction <;> cases exponent <;> rfl

/-- Digits are scanned up to what is no digit. -/
theorem scanDigits?_append {ds : List Digit} (hne : ds ≠ []) {rest : List Char}
    (h : ∀ c, rest.head? = some c → Digit.ofChar? c = none) :
    scanDigits? (digitChars ds ++ rest) = some (ds, rest) := by
  unfold scanDigits? digitChars
  rw [Digit.scan_append ds h]
  cases ds with
  | nil => exact absurd rfl hne
  | cons d ds => rfl

/-- The digits before the point are scanned up to what is no digit. -/
theorem scanWhole?_append {n : NumberText} (hn : n.WellFormed) {rest : List Char}
    (h : ∀ c, rest.head? = some c → Digit.ofChar? c = none) :
    scanWhole? (digitChars n.whole ++ rest) = some (n.whole, rest) := by
  unfold scanWhole? digitChars
  rw [Digit.scan_append n.whole h]
  cases hw : n.whole with
  | nil => exact absurd hw hn.whole_ne_nil
  | cons d ds =>
    -- A zero is refused only before another digit.
    show (if d.val = 0 ∧ ds ≠ [] then none else some (d :: ds, rest)) = _
    exact if_neg fun hz => hz.2 (hn.no_leading_zero d ds hw hz.1)

/-- What follows the digits before the point starts with none. -/
theorem head_fractionChars {fraction : Option (List Digit)} {exponent : Option (Bool × List Digit)}
    {rest : List Char} (h : EndsNumber rest) (c : Char)
    (hc : (fractionChars fraction ++ (exponentChars exponent ++ rest)).head? = some c) :
    Digit.ofChar? c = none := by
  cases fraction with
  | some ds =>
    cases hc
    rfl
  | none =>
    cases exponent with
    | some e =>
      cases hc
      rfl
    | none => exact (h c hc).1

/-- What follows the fraction starts with no digit. -/
theorem head_exponentChars {exponent : Option (Bool × List Digit)} {rest : List Char}
    (h : EndsNumber rest) (c : Char) (hc : (exponentChars exponent ++ rest).head? = some c) :
    Digit.ofChar? c = none ∧ c ≠ '.' := by
  cases exponent with
  | some e =>
    cases hc
    exact ⟨rfl, by decide⟩
  | none => exact ⟨(h c hc).1, (h c hc).2.1⟩

/-- The fraction is scanned back. -/
theorem scanFraction?_append {n : NumberText} (hn : n.WellFormed) {rest : List Char}
    (h : EndsNumber rest) :
    scanFraction? (fractionChars n.fraction ++ (exponentChars n.exponent ++ rest)) =
      some (n.fraction, exponentChars n.exponent ++ rest) := by
  cases hf : n.fraction with
  | some ds =>
    have hne : ds ≠ [] := fun hnil => hn.fraction_ne_nil (hnil ▸ hf)
    show (scanDigits? (digitChars ds ++ (exponentChars n.exponent ++ rest))).map _ = _
    rw [scanDigits?_append hne fun c hc => (head_exponentChars h c hc).1]
    rfl
  | none =>
    show scanFraction? (exponentChars n.exponent ++ rest) = _
    unfold scanFraction?
    split
    · -- A point would be the first character of the exponent or of what follows the number.
      rename_i more hs
      have hhead : (exponentChars n.exponent ++ rest).head? = some '.' := by
        rw [hs]
        rfl
      exact absurd rfl (head_exponentChars h '.' hhead).2
    · rfl

/-- The exponent is scanned back. -/
theorem scanExponent?_append {n : NumberText} (hn : n.WellFormed) {rest : List Char}
    (h : EndsNumber rest) :
    scanExponent? (exponentChars n.exponent ++ rest) = some (n.exponent, rest) := by
  cases he : n.exponent with
  | none =>
    show scanExponent? rest = _
    cases rest with
    | nil => rfl
    | cons c rest =>
      obtain ⟨-, -, he', hE⟩ := h c rfl
      exact if_neg fun hc => hc.elim he' hE
  | some p =>
    obtain ⟨negative, ds⟩ := p
    have hne : ds ≠ [] := fun hnil => hn.exponent_ne_nil negative (hnil ▸ he)
    have hscan : scanDigits? (digitChars ds ++ rest) = some (ds, rest) :=
      scanDigits?_append hne fun c hc => (h c hc).1
    cases negative with
    | true =>
      show (scanDigits? (digitChars ds ++ rest)).map _ = _
      rw [hscan]
      rfl
    | false =>
      -- The first digit is no sign.
      cases ds with
      | nil => exact absurd rfl hne
      | cons d ds =>
        show scanExponent? ('e' :: (digitChars (d :: ds) ++ rest)) = _
        unfold scanExponent?
        dsimp only
        rw [if_pos (Or.inl rfl), hscan]
        split
        · rename_i hc
          exact absurd (List.cons.inj hc).1 (d.toChar_ne (by decide))
        · rename_i hc
          exact absurd (List.cons.inj hc).1 (d.toChar_ne (by decide))
        · rfl

/-- **A number is scanned back.** -/
theorem scanNumber?_append {n : NumberText} (hn : n.WellFormed) {rest : List Char}
    (h : EndsNumber rest) : scanNumber? (n.chars ++ rest) = some (n, rest) := by
  -- The parts are scanned in turn, each up to the first character of the next.
  have hunsigned : ∀ negative, scanUnsigned? negative (n.unsignedChars ++ rest) =
      some (⟨negative, n.whole, n.fraction, n.exponent⟩, rest) := by
    intro negative
    unfold NumberText.unsignedChars scanUnsigned?
    rw [List.append_assoc, List.append_assoc,
      scanWhole?_append hn fun c hc => head_fractionChars h c hc]
    dsimp only
    rw [scanFraction?_append hn h]
    dsimp only
    rw [scanExponent?_append hn h]
    rfl
  rw [NumberText.chars_eq, List.append_assoc]
  cases hneg : n.negative with
  | true =>
    show scanUnsigned? true (n.unsignedChars ++ rest) = _
    rw [hunsigned, ← hneg]
  | false =>
    -- A digit stands in front, so no sign is read.
    have hhead : ∀ more, n.unsignedChars ++ rest ≠ '-' :: more := by
      intro more hm
      unfold NumberText.unsignedChars at hm
      cases hw : n.whole with
      | nil => exact hn.whole_ne_nil hw
      | cons d ds =>
        rw [hw] at hm
        exact d.toChar_ne (by decide) (List.cons.inj hm).1
    show scanNumber? (n.unsignedChars ++ rest) = _
    unfold scanNumber?
    split
    · rename_i more hm
      exact absurd hm (hhead more)
    · rw [hunsigned, ← hneg]

/-! ## Strings -/

/-- A piece as a text can have it: an escape that stands for half a pair writes such a half. -/
def Piece.WellFormed : Piece → Prop
  | .char _ => True
  | .surrogate u => 0xD800 ≤ u ∧ u < 0xE000

/-- The digits of an escape are read as the number they write. -/
theorem value?_hexDigit : ∀ n, n < 16 → Hex.value? (Hex.digit n) = some n := by
  decide

/-- An escape by number is read as the piece of that number. -/
theorem scanPieces?_unicodeEscape (acc : List Piece) {n : Nat} (h : n < 65536) (rest : List Char) :
    scanPieces? acc (unicodeEscape n ++ rest) = scanPieces? (Piece.ofUnit n :: acc) rest := by
  have hhex : hex4? (Hex.digit (n / 4096 % 16)) (Hex.digit (n / 256 % 16)) (Hex.digit (n / 16 % 16))
      (Hex.digit (n % 16)) = some n := by
    unfold hex4?
    rw [value?_hexDigit _ (by omega), value?_hexDigit _ (by omega), value?_hexDigit _ (by omega),
      value?_hexDigit _ (by omega)]
    dsimp only
    congr 1
    omega
  unfold unicodeEscape
  rw [List.cons_append, List.cons_append, List.cons_append, List.cons_append, List.cons_append,
    List.cons_append, List.nil_append, scanPieces?, hhex]

/-- A short escape is read as its character. -/
theorem scanPieces?_shortEscape (acc : List Piece) {e c : Char} (he : e ≠ 'u')
    (h : shortEscape? e = some c) (rest : List Char) :
    scanPieces? acc ('\\' :: e :: rest) = scanPieces? (.char c :: acc) rest := by
  rw [scanPieces?, h]
  intro a b c' d rest' heq
  exact absurd heq he

/-- A character that needs no escape is read as itself. -/
theorem scanPieces?_plain (acc : List Piece) {c : Char} (hq : c ≠ '"') (hb : c ≠ '\\')
    (hc : 0x20 ≤ c.toNat) (rest : List Char) :
    scanPieces? acc (c :: rest) = scanPieces? (.char c :: acc) rest := by
  -- The equation for a plain character asks that neither quote nor escape stands there.
  rw [scanPieces?.eq_5 acc c rest hq (fun _ _ _ _ _ h => absurd h hb) (fun _ _ h => absurd h hb),
    if_neg]
  rintro (h | h)
  · omega
  · exact hb h

/-- A character within quotes is read as itself. -/
theorem scanPieces?_quotedChar (acc : List Piece) (c : Char) (rest : List Char) :
    scanPieces? acc (quotedChar c ++ rest) = scanPieces? (.char c :: acc) rest := by
  -- A control is known by its number.
  have hnum : ∀ n, c.toNat = n → Char.ofNat n = c := by
    rintro n rfl
    exact Char.ofNat_toNat c
  unfold quotedChar
  split
  · subst c
    exact scanPieces?_shortEscape acc (by decide) rfl rest
  · rename_i hq
    split
    · subst c
      exact scanPieces?_shortEscape acc (by decide) rfl rest
    · rename_i hb
      split
      · rename_i hc
        exact scanPieces?_plain acc hq hb hc rest
      · split
        · rename_i h
          rw [← hnum 8 h]
          exact scanPieces?_shortEscape acc (by decide) rfl rest
        · split
          · rename_i h
            rw [← hnum 9 h]
            exact scanPieces?_shortEscape acc (by decide) rfl rest
          · split
            · rename_i h
              rw [← hnum 10 h]
              exact scanPieces?_shortEscape acc (by decide) rfl rest
            · split
              · rename_i h
                rw [← hnum 12 h]
                exact scanPieces?_shortEscape acc (by decide) rfl rest
              · split
                · rename_i h
                  rw [← hnum 13 h]
                  exact scanPieces?_shortEscape acc (by decide) rfl rest
                · -- What is left is below U+0020 and no half of a pair.
                  rw [scanPieces?_unicodeEscape acc (by omega), Piece.ofUnit, if_neg (by omega),
                    Char.ofNat_toNat]

/-- A piece is read back. -/
theorem scanPieces?_piece (acc : List Piece) {p : Piece} (hp : p.WellFormed) (rest : List Char) :
    scanPieces? acc (p.chars ++ rest) = scanPieces? (p :: acc) rest := by
  cases p with
  | char c => exact scanPieces?_quotedChar acc c rest
  | surrogate u =>
    obtain ⟨hlow, hhigh⟩ := hp
    show scanPieces? acc (unicodeEscape u ++ rest) = _
    rw [scanPieces?_unicodeEscape acc (by omega), Piece.ofUnit, if_pos ⟨hlow, hhigh⟩]

/-- The pieces up to the closing quote are read back. -/
theorem scanPieces?_append (acc s : List Piece) (hs : ∀ p ∈ s, p.WellFormed) (rest : List Char) :
    scanPieces? acc (s.flatMap Piece.chars ++ '"' :: rest) = some (acc.reverse ++ s, rest) := by
  induction s generalizing acc with
  | nil =>
    rw [List.flatMap_nil, List.nil_append, scanPieces?, List.append_nil]
  | cons p s ih =>
    rw [List.flatMap_cons, List.append_assoc, scanPieces?_piece acc (hs p List.mem_cons_self),
      ih (p :: acc) fun q hq => hs q (List.mem_cons_of_mem p hq), List.reverse_cons,
      List.append_assoc]
    rfl

/-- **A string is scanned back.** -/
theorem scanString?_quoted {s : List Piece} (hs : ∀ p ∈ s, p.WellFormed) (rest : List Char) :
    scanString? (quoted s ++ rest) = some (s, rest) := by
  show scanPieces? [] (s.flatMap Piece.chars ++ ['"'] ++ rest) = _
  rw [List.append_assoc, List.singleton_append, scanPieces?_append [] s hs]
  rfl

end Json

end RpcDaemon
