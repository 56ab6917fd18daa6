import RpcDaemon.Text.Base64
import RpcDaemon.Text.Blank

/-!
# Base64 read back

The canonical text of a byte string is read as that byte string. No blank stands in it.
-/

namespace RpcDaemon

namespace Base64

/-! ## One character -/

/-- The character for six bits has these bits. -/
theorem value?_digit : ∀ n, n < 64 → value? (digit n) = some n := by
  decide

/-- The padding is no character for six bits. -/
theorem digit_ne_pad : ∀ n, n < 64 → digit n ≠ '=' := by
  decide

/-- No character for six bits is blank. -/
theorem isBlank_digit : ∀ n, n < 64 → isBlank (digit n) = false := by
  decide

/-! ## Four characters -/

variable (a b c : UInt8)

/-- Two characters and padding hold one byte. -/
theorem quartet?_one :
    quartet? (digit (a.toNat / 4)) (digit (a.toNat % 4 * 16)) '=' '=' = some [a] := by
  have ha := a.toNat_lt
  unfold quartet?
  rw [value?_digit _ (by omega), value?_digit _ (by omega)]
  dsimp only
  rw [if_pos ⟨rfl, rfl⟩, if_pos (by omega),
    show a.toNat / 4 * 4 + a.toNat % 4 * 16 / 16 = a.toNat by omega, UInt8.ofNat_toNat]

/-- Three characters and padding hold two bytes. -/
theorem quartet?_two :
    quartet? (digit (a.toNat / 4)) (digit (a.toNat % 4 * 16 + b.toNat / 16))
      (digit (b.toNat % 16 * 4)) '=' = some [a, b] := by
  have ha := a.toNat_lt
  have hb := b.toNat_lt
  unfold quartet?
  rw [value?_digit _ (by omega), value?_digit _ (by omega)]
  dsimp only
  rw [if_neg fun h => digit_ne_pad _ (by omega) h.1, value?_digit _ (by omega)]
  dsimp only
  rw [if_pos rfl, if_pos (by omega),
    show a.toNat / 4 * 4 + (a.toNat % 4 * 16 + b.toNat / 16) / 16 = a.toNat by omega,
    show (a.toNat % 4 * 16 + b.toNat / 16) % 16 * 16 + b.toNat % 16 * 4 / 4 = b.toNat by omega,
    UInt8.ofNat_toNat, UInt8.ofNat_toNat]

/-- Four characters hold three bytes. -/
theorem quartet?_three :
    quartet? (digit (a.toNat / 4)) (digit (a.toNat % 4 * 16 + b.toNat / 16))
      (digit (b.toNat % 16 * 4 + c.toNat / 64)) (digit (c.toNat % 64)) = some [a, b, c] := by
  have ha := a.toNat_lt
  have hb := b.toNat_lt
  have hc := c.toNat_lt
  unfold quartet?
  rw [value?_digit _ (by omega), value?_digit _ (by omega)]
  dsimp only
  rw [if_neg fun h => digit_ne_pad _ (by omega) h.1, value?_digit _ (by omega)]
  dsimp only
  rw [if_neg (digit_ne_pad _ (by omega)), value?_digit _ (by omega), Option.map_some,
    show a.toNat / 4 * 4 + (a.toNat % 4 * 16 + b.toNat / 16) / 16 = a.toNat by omega,
    show (a.toNat % 4 * 16 + b.toNat / 16) % 16 * 16 + (b.toNat % 16 * 4 + c.toNat / 64) / 4
      = b.toNat by omega,
    show (b.toNat % 16 * 4 + c.toNat / 64) % 4 * 64 + c.toNat % 64 = c.toNat by omega,
    UInt8.ofNat_toNat, UInt8.ofNat_toNat, UInt8.ofNat_toNat]

/-! ## Whole texts -/

/-- Only the empty byte string has an empty text. -/
theorem encode_eq_nil_iff {bytes : List UInt8} : encode bytes = [] ↔ bytes = [] := by
  fun_cases encode bytes <;> simp

/-- **The canonical text is read back.** -/
theorem decode?_encode (bytes : List UInt8) : decode? (encode bytes) = some bytes := by
  fun_induction encode bytes with
  | case1 => rfl
  | case2 a =>
    rw [decode?, quartet?_one]
    rfl
  | case3 a b =>
    rw [decode?, quartet?_two]
    rfl
  | case4 a b c rest ih =>
    rw [decode?, quartet?_three]
    dsimp only
    -- Only the last four characters may stand for less than three bytes.
    by_cases hrest : rest = []
    · subst hrest
      rfl
    · rw [if_neg (by simpa [encode_eq_nil_iff] using hrest),
        if_pos (show [a, b, c].length = 3 from rfl), ih]
      rfl

/-- No blank stands in a text. -/
theorem isBlank_of_mem_encode {bytes : List UInt8} {ch : Char} (h : ch ∈ encode bytes) :
    isBlank ch = false := by
  fun_induction encode bytes with
  | case1 => exact absurd h List.not_mem_nil
  | case2 a =>
    have ha := a.toNat_lt
    simp only [List.mem_cons, List.not_mem_nil, or_false] at h
    rcases h with rfl | rfl | rfl | rfl
    · exact isBlank_digit _ (by omega)
    · exact isBlank_digit _ (by omega)
    · rfl
    · rfl
  | case3 a b =>
    have ha := a.toNat_lt
    have hb := b.toNat_lt
    simp only [List.mem_cons, List.not_mem_nil, or_false] at h
    rcases h with rfl | rfl | rfl | rfl
    · exact isBlank_digit _ (by omega)
    · exact isBlank_digit _ (by omega)
    · exact isBlank_digit _ (by omega)
    · rfl
  | case4 a b c rest ih =>
    have ha := a.toNat_lt
    have hb := b.toNat_lt
    have hc := c.toNat_lt
    simp only [List.mem_cons] at h
    rcases h with rfl | rfl | rfl | rfl | h
    · exact isBlank_digit _ (by omega)
    · exact isBlank_digit _ (by omega)
    · exact isBlank_digit _ (by omega)
    · exact isBlank_digit _ (by omega)
    · exact ih h

end Base64

end RpcDaemon
