import RpcDaemon.Text.Utf8

/-!
# Encoded text read back

Both readings of a byte string give back the characters that were encoded, a byte below 0x80 stands
in an encoding only for the character of that number, and strings are ordered as their bytes are.
-/

namespace RpcDaemon

namespace Utf8

/-! ## Encoding -/

theorem encode_cons (c : Char) (cs : List Char) : encode (c :: cs) = encodeChar c ++ encode cs := by
  rw [encode, List.flatMap_cons]
  rfl

@[simp] theorem encode_append (a b : List Char) : encode (a ++ b) = encode a ++ encode b := by
  rw [encode, List.flatMap_append]
  rfl

/-- The numbers that a character may have. -/
theorem toNat_ranges (c : Char) : c.toNat < 0xD800 ∨ 0xE000 ≤ c.toNat ∧ c.toNat < 0x110000 := by
  have h : c.toNat < 0xD800 ∨ 0xDFFF < c.toNat ∧ c.toNat < 0x110000 := c.valid
  omega

/-- A byte made of a small number has that number. -/
theorem toNat_ofNat_of_lt {n : Nat} (h : n < 256) : (UInt8.ofNat n).toNat = n := by
  rw [UInt8.toNat_ofNat']
  exact Nat.mod_eq_of_lt h

/-- A character below U+0080 is one byte. -/
theorem encodeChar_of_lt {c : Char} (h : c.toNat < 0x80) : encodeChar c = [UInt8.ofNat c.toNat] := by
  unfold encodeChar
  exact if_pos h

/-- A character has at most four bytes. -/
theorem length_encodeChar_le (c : Char) : (encodeChar c).length ≤ 4 := by
  unfold encodeChar
  dsimp only
  split
  · simp
  · split
    · simp
    · split <;> simp

/-- Characters have at most four bytes each. -/
theorem length_encode_le (cs : List Char) : (encode cs).length ≤ 4 * cs.length := by
  induction cs with
  | nil => exact Nat.zero_le _
  | cons c cs ih =>
    have := length_encodeChar_le c
    rw [encode_cons, List.length_append, List.length_cons]
    omega

/-- The bytes of a character from U+0080 on are all from 0x80 on. -/
theorem le_of_mem_encodeChar {c : Char} (h : 0x80 ≤ c.toNat) {b : UInt8} (hb : b ∈ encodeChar c) :
    0x80 ≤ b.toNat := by
  have hc := toNat_ranges c
  unfold encodeChar at hb
  rw [if_neg (by omega)] at hb
  split at hb
  · simp only [List.mem_cons, List.not_mem_nil, or_false] at hb
    rcases hb with rfl | rfl <;> rw [toNat_ofNat_of_lt (by omega)] <;> omega
  · split at hb
    · simp only [List.mem_cons, List.not_mem_nil, or_false] at hb
      rcases hb with rfl | rfl | rfl <;> rw [toNat_ofNat_of_lt (by omega)] <;> omega
    · simp only [List.mem_cons, List.not_mem_nil, or_false] at hb
      rcases hb with rfl | rfl | rfl | rfl <;> rw [toNat_ofNat_of_lt (by omega)] <;> omega

/-- A byte below 0x80 in an encoding is the character of its number. -/
theorem mem_of_mem_encode {cs : List Char} {b : UInt8} (hb : b.toNat < 0x80) (h : b ∈ encode cs) :
    Char.ofNat b.toNat ∈ cs := by
  induction cs with
  | nil => exact absurd h List.not_mem_nil
  | cons c cs ih =>
    rw [encode_cons] at h
    rcases List.mem_append.mp h with h | h
    · by_cases hc : c.toNat < 0x80
      · rw [encodeChar_of_lt hc, List.mem_singleton] at h
        rw [h, toNat_ofNat_of_lt (by omega), Char.ofNat_toNat]
        exact List.mem_cons_self
      · have := le_of_mem_encodeChar (by omega) h
        omega
    · exact List.mem_cons_of_mem c (ih h)

/-! ## Reading -/

/-- A continuation byte adds six bits. -/
theorem tails_cons (n acc : Nat) {m : Nat} (s : List UInt8) (hm : m < 64) :
    tails (n + 1) acc (UInt8.ofNat (0x80 + m) :: s) = tails n (acc * 64 + m) s := by
  have hb : (UInt8.ofNat (0x80 + m)).toNat = 0x80 + m := toNat_ofNat_of_lt (by omega)
  rw [tails, hb, if_pos (by omega), Nat.add_sub_cancel_left]

/-- The first two bytes of a sequence, when the second one is in the range of the first. -/
theorem piece_of_lead {b n : Nat} {l : Lead} (s : List UInt8) (hb : 0x80 ≤ b) (hb' : b < 256)
    (hl : lead? b = some l) (hlow : l.low ≤ n) (hhigh : n ≤ l.high) (hn : n < 256) :
    piece (UInt8.ofNat b) (UInt8.ofNat n :: s) =
      tails (l.follow - 1) (l.bits * 64 + (n - 0x80)) s := by
  unfold piece
  rw [toNat_ofNat_of_lt hb', if_neg (by omega), hl]
  show (if l.low ≤ (UInt8.ofNat n).toNat ∧ (UInt8.ofNat n).toNat ≤ l.high then _ else _) = _
  rw [toNat_ofNat_of_lt hn, if_pos ⟨hlow, hhigh⟩]

/-- What the first byte of a sequence of three promises of a character. -/
theorem lead?_three {n : Nat} (hn : 0x800 ≤ n) (hn' : n < 0x10000)
    (hs : n < 0xD800 ∨ 0xE000 ≤ n) :
    ∃ l, lead? (0xE0 + n / 4096) = some l ∧ l.follow = 2 ∧ l.bits = n / 4096 ∧
      l.low ≤ 0x80 + n / 64 % 64 ∧ 0x80 + n / 64 % 64 ≤ l.high := by
  unfold lead?
  split
  · omega
  · split
    · exact ⟨_, rfl, rfl, by dsimp only; omega, by dsimp only; omega, by dsimp only; omega⟩
    · split
      · exact ⟨_, rfl, rfl, by dsimp only; omega, by dsimp only; omega, by dsimp only; omega⟩
      · rw [if_pos (by omega)]
        exact ⟨_, rfl, rfl, by dsimp only; omega, by dsimp only; omega, by dsimp only; omega⟩

/-- What the first byte of a sequence of four promises of a character. -/
theorem lead?_four {n : Nat} (hn : 0x10000 ≤ n) (hn' : n < 0x110000) :
    ∃ l, lead? (0xF0 + n / 262144) = some l ∧ l.follow = 3 ∧ l.bits = n / 262144 ∧
      l.low ≤ 0x80 + n / 4096 % 64 ∧ 0x80 + n / 4096 % 64 ≤ l.high := by
  unfold lead?
  rw [if_neg (by omega), if_neg (by omega), if_neg (by omega), if_neg (by omega)]
  split
  · exact ⟨_, rfl, rfl, by dsimp only; omega, by dsimp only; omega, by dsimp only; omega⟩
  · split
    · exact ⟨_, rfl, rfl, by dsimp only; omega, by dsimp only; omega, by dsimp only; omega⟩
    · rw [if_pos (by omega)]
      exact ⟨_, rfl, rfl, by dsimp only; omega, by dsimp only; omega, by dsimp only; omega⟩

theorem pieces_cons (b : UInt8) (s : List UInt8) :
    pieces (b :: s) = (piece b s).1 :: pieces (piece b s).2 := by
  rw [pieces]

/-- An encoded character is read back, whatever follows it. -/
theorem pieces_encodeChar_append (c : Char) (s : List UInt8) :
    pieces (encodeChar c ++ s) = some c :: pieces s := by
  have hc := toNat_ranges c
  -- One case for each number of bytes; the first byte tells the number.
  by_cases h1 : c.toNat < 0x80
  · rw [encodeChar_of_lt h1, List.singleton_append, pieces_cons]
    unfold piece
    rw [toNat_ofNat_of_lt (by omega), if_pos h1, Char.ofNat_toNat]
  · unfold encodeChar
    rw [if_neg h1]
    by_cases h2 : c.toNat < 0x800
    · have hl : lead? (0xC0 + c.toNat / 64) = some ⟨1, 0x80, 0xBF, c.toNat / 64⟩ := by
        unfold lead?
        rw [if_pos (by omega), Nat.add_sub_cancel_left]
      rw [if_pos h2, List.cons_append, List.cons_append, List.nil_append, pieces_cons,
        piece_of_lead s (by omega) (by omega) hl (by dsimp only; omega) (by dsimp only; omega)
          (by omega)]
      show (tails 0 (c.toNat / 64 * 64 + (0x80 + c.toNat % 64 - 0x80)) s).1 :: _ = _
      rw [tails, show c.toNat / 64 * 64 + (0x80 + c.toNat % 64 - 0x80) = c.toNat by omega,
        Char.ofNat_toNat]
      rfl
    · rw [if_neg h2]
      by_cases h3 : c.toNat < 0x10000
      · obtain ⟨l, hl, hf, hb, hlow, hhigh⟩ := lead?_three (by omega) h3 (by omega)
        rw [if_pos h3, List.cons_append, List.cons_append, List.cons_append, List.nil_append,
          pieces_cons, piece_of_lead _ (by omega) (by omega) hl hlow hhigh (by omega), hf, hb,
          tails_cons 0 _ s (by omega), tails]
        rw [show (c.toNat / 4096 * 64 + (0x80 + c.toNat / 64 % 64 - 0x80)) * 64 + c.toNat % 64
          = c.toNat by omega, Char.ofNat_toNat]
      · obtain ⟨l, hl, hf, hb, hlow, hhigh⟩ := lead?_four (n := c.toNat) (by omega) (by omega)
        rw [if_neg h3, List.cons_append, List.cons_append, List.cons_append, List.cons_append,
          List.nil_append, pieces_cons,
          piece_of_lead _ (by omega) (by omega) hl hlow hhigh (by omega), hf, hb,
          tails_cons 1 _ _ (by omega), tails_cons 0 _ s (by omega), tails]
        rw [show ((c.toNat / 262144 * 64 + (0x80 + c.toNat / 4096 % 64 - 0x80)) * 64
          + c.toNat / 64 % 64) * 64 + c.toNat % 64 = c.toNat by omega, Char.ofNat_toNat]

/-- Encoded characters are read back, whatever follows them. -/
theorem pieces_encode_append (cs : List Char) (s : List UInt8) :
    pieces (encode cs ++ s) = cs.map some ++ pieces s := by
  induction cs with
  | nil => rfl
  | cons c cs ih =>
    rw [encode_cons, List.append_assoc, pieces_encodeChar_append, ih]
    rfl

theorem pieces_encode (cs : List Char) : pieces (encode cs) = cs.map some := by
  have h := pieces_encode_append cs []
  rwa [List.append_nil, pieces, List.append_nil] at h

/-- **The strict reading inverts the encoding.** -/
theorem decode?_encode (cs : List Char) : decode? (encode cs) = some cs := by
  rw [decode?, pieces_encode]
  induction cs with
  | nil => rfl
  | cons c cs ih =>
    rw [List.map_cons, List.mapM_cons, ih]
    rfl

theorem encode_injective {a b : List Char} (h : encode a = encode b) : a = b := by
  have hread := congrArg decode? h
  rw [decode?_encode, decode?_encode] at hread
  exact Option.some.inj hread

/-- **A text starts like another** exactly if its bytes do. -/
theorem encode_prefix_iff {a b : List Char} : encode a <+: encode b ↔ a <+: b := by
  constructor
  · rintro ⟨rest, h⟩
    have hpieces := congrArg pieces h
    rw [pieces_encode_append, pieces_encode] at hpieces
    have hprefix : a.map some <+: b.map some := ⟨_, hpieces⟩
    obtain ⟨start, hstart, heq⟩ := List.prefix_map_iff.mp hprefix
    rw [List.map_inj_right fun _ _ => Option.some.inj] at heq
    rwa [heq]
  · rintro ⟨rest, rfl⟩
    rw [encode_append]
    exact List.prefix_append _ _

/-- **The forgiving reading inverts the encoding.** -/
theorem decodeLossy_encode (cs : List Char) : decodeLossy (encode cs) = cs := by
  rw [decodeLossy, pieces_encode, List.map_map]
  exact List.map_id cs

/-! ## Order -/

/-- The bytes of a character come before those of every greater one, whatever follows. -/
theorem encodeChar_append_lt {c d : Char} (h : c < d) (s s' : List UInt8) :
    encodeChar c ++ s < encodeChar d ++ s' := by
  have hc := toNat_ranges c
  have hd := toNat_ranges d
  have hlt : c.toNat < d.toNat := h
  have hbyte : ∀ {m n : Nat}, m < 256 → n < 256 → (UInt8.ofNat m < UInt8.ofNat n ↔ m < n) := by
    intro m n hm hn
    rw [UInt8.lt_iff_toNat_lt, toNat_ofNat_of_lt hm, toNat_ofNat_of_lt hn]
  have hsame : ∀ {m n : Nat}, m < 256 → n < 256 → (UInt8.ofNat m = UInt8.ofNat n ↔ m = n) := by
    intro m n hm hn
    rw [← UInt8.toNat_inj, toNat_ofNat_of_lt hm, toNat_ofNat_of_lt hn]
  unfold encodeChar
  dsimp only
  -- One case for each pair of lengths; the first byte tells two lengths apart.
  repeat' split
  all_goals
    simp (disch := omega) only [List.cons_append, List.nil_append, List.cons_lt_cons_iff, hbyte,
      hsame]
    omega

theorem encodeChar_ne_nil (c : Char) : encodeChar c ≠ [] := by
  unfold encodeChar
  dsimp only
  repeat' split
  all_goals exact List.cons_ne_nil _ _

/-- Encoding keeps the order. -/
theorem encode_lt_encode {a b : List Char} (h : a < b) : encode a < encode b := by
  induction h with
  | @nil d b =>
    obtain ⟨byte, bytes, hd⟩ := List.exists_cons_of_ne_nil (encodeChar_ne_nil d)
    rw [encode_cons, hd]
    exact List.nil_lt_cons byte _
  | @cons c a b h ih =>
    rw [encode_cons, encode_cons]
    exact List.append_left_lt ih
  | @rel c a d b h =>
    rw [encode_cons, encode_cons]
    exact encodeChar_append_lt h _ _

/-- **The order of strings is that of their bytes.** -/
theorem ofString_lt_iff {s t : String} : ofString s < ofString t ↔ s < t := by
  constructor
  · intro h
    -- The other orders are kept as well.
    rw [← String.not_le]
    intro hle
    by_cases hts : t < s
    · exact List.lt_asymm h (encode_lt_encode (String.lt_iff.mp hts))
    · rw [String.le_antisymm hle (String.not_lt.mp hts)] at h
      exact List.lt_irrefl _ h
  · intro h
    exact encode_lt_encode (String.lt_iff.mp h)

end Utf8

end RpcDaemon
