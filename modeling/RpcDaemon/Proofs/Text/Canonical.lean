import RpcDaemon.Proofs.Text.Base64

/-!
# Canonical Base64

Twenty-four bits at a time, three bytes are written with four letters of the alphabet. Where the
last bytes do not fill twenty-four bits, zeros fill the last letter, and padding stands for the
letters that are missing. Every byte string has one such text, and a text is read as the byte string
that it is the text of, if there is one. Main statement: `decode?_eq_some_iff`.
-/

namespace RpcDaemon

namespace Base64

/-! ## The alphabet -/

/-- The standard alphabet, by the value of each letter. -/
def alphabet : List Char :=
  "ABCDEFGHIJKLMNOPQRSTUVWXYZabcdefghijklmnopqrstuvwxyz0123456789+/".toList

/-- The letter for six bits. -/
def letter (n : Fin 64) : Char :=
  alphabet.get (n.cast (by decide))

/-- The letter for six bits is the character that is written. -/
theorem letter_eq_digit : ∀ n : Fin 64, letter n = digit n := by
  decide

theorem letter_mem_alphabet (n : Fin 64) : letter n ∈ alphabet :=
  List.getElem_mem _

/-- A character that has six bits is the letter for them. -/
theorem value?_eq_some {c : Char} {n : Nat} (h : value? c = some n) : n < 64 ∧ digit n = c := by
  unfold value? at h
  dsimp only at h
  split at h
  · rename_i hupper
    cases h
    refine ⟨by omega, ?_⟩
    rw [digit, if_pos (by omega), Nat.add_sub_of_le hupper.1, Char.ofNat_toNat]
  split at h
  · rename_i hlower
    cases h
    refine ⟨by omega, ?_⟩
    rw [digit, if_neg (by omega), if_pos (by omega),
      show 71 + (c.toNat - 71) = c.toNat by omega, Char.ofNat_toNat]
  split at h
  · rename_i hdigit
    cases h
    refine ⟨by omega, ?_⟩
    rw [digit, if_neg (by omega), if_neg (by omega), if_pos (by omega), Nat.add_sub_cancel,
      Char.ofNat_toNat]
  split at h
  · rename_i hplus
    cases h
    exact ⟨by decide, hplus.symm⟩
  split at h
  · rename_i hslash
    cases h
    exact ⟨by decide, hslash.symm⟩
  · cases h

/-! ## Canonical texts -/

/-- The text is the canonical one of the bytes. -/
inductive Canonical : List UInt8 → List Char → Prop
  /-- No bytes have no text. -/
  | nil : Canonical [] []
  /-- One byte is left: four zeros fill the second letter. -/
  | one {a : UInt8} {w x : Fin 64} (hbits : w.val * 64 + x.val = a.toNat * 16) :
      Canonical [a] [letter w, letter x, '=', '=']
  /-- Two bytes are left: two zeros fill the third letter. -/
  | two {a b : UInt8} {w x y : Fin 64}
      (hbits : (w.val * 64 + x.val) * 64 + y.val = (a.toNat * 256 + b.toNat) * 4) :
      Canonical [a, b] [letter w, letter x, letter y, '=']
  /-- Three bytes are four letters. -/
  | three {a b c : UInt8} {w x y z : Fin 64} {bytes : List UInt8} {text : List Char}
      (hbits : ((w.val * 64 + x.val) * 64 + y.val) * 64 + z.val =
        (a.toNat * 256 + b.toNat) * 256 + c.toNat)
      (hrest : Canonical bytes text) :
      Canonical (a :: b :: c :: bytes) (letter w :: letter x :: letter y :: letter z :: text)

/-- **Every byte string has one canonical text**, the one that is written. -/
theorem canonical_iff {bytes : List UInt8} {text : List Char} :
    Canonical bytes text ↔ text = encode bytes := by
  constructor
  · intro h
    induction h with
    | nil => rfl
    | @one a w x hbits =>
      rw [encode, letter_eq_digit, letter_eq_digit, show w.val = a.toNat / 4 by omega,
        show x.val = a.toNat % 4 * 16 by omega]
    | @two a b w x y hbits =>
      have hb := b.toNat_lt
      rw [encode, letter_eq_digit, letter_eq_digit, letter_eq_digit,
        show w.val = a.toNat / 4 by omega, show x.val = a.toNat % 4 * 16 + b.toNat / 16 by omega,
        show y.val = b.toNat % 16 * 4 by omega]
    | @three a b c w x y z bytes text hbits hrest ih =>
      have hb := b.toNat_lt
      have hc := c.toNat_lt
      rw [encode, letter_eq_digit, letter_eq_digit, letter_eq_digit, letter_eq_digit, ih,
        show w.val = a.toNat / 4 by omega, show x.val = a.toNat % 4 * 16 + b.toNat / 16 by omega,
        show y.val = b.toNat % 16 * 4 + c.toNat / 64 by omega, show z.val = c.toNat % 64 by omega]
  · rintro rfl
    have hletter : ∀ (n : Nat) (h : n < 64), digit n = letter ⟨n, h⟩ := fun n h =>
      (letter_eq_digit ⟨n, h⟩).symm
    fun_induction encode bytes with
    | case1 => exact .nil
    | case2 a =>
      have ha := a.toNat_lt
      rw [hletter _ (by omega), hletter _ (by omega)]
      refine .one ?_
      dsimp only
      omega
    | case3 a b =>
      have ha := a.toNat_lt
      have hb := b.toNat_lt
      rw [hletter _ (by omega), hletter _ (by omega), hletter _ (by omega)]
      refine .two ?_
      dsimp only
      omega
    | case4 a b c rest ih =>
      have ha := a.toNat_lt
      have hb := b.toNat_lt
      have hc := c.toNat_lt
      rw [hletter _ (by omega), hletter _ (by omega), hletter _ (by omega),
        hletter _ (by omega)]
      refine .three ?_ ih
      dsimp only
      omega

/-- No two byte strings have one text. -/
theorem encode_injective {bytes bytes' : List UInt8} (h : encode bytes = encode bytes') :
    bytes = bytes' := by
  have hread := decode?_encode bytes
  rw [h, decode?_encode] at hread
  exact (Option.some.inj hread).symm

/-- **The letters of a canonical text** are of the alphabet and just hold the bits of the bytes; what
is missing to a multiple of four is made up by padding. -/
theorem Canonical.letters {bytes : List UInt8} {text : List Char} (h : Canonical bytes text) :
    ∃ letters, text = letters ++ List.replicate ((3 - bytes.length % 3) % 3) '=' ∧
      (∀ c ∈ letters, c ∈ alphabet) ∧ letters.length = (bytes.length * 8 + 5) / 6 := by
  have hall : ∀ ns : List (Fin 64), ∀ c ∈ ns.map letter, c ∈ alphabet := by
    intro ns c hc
    obtain ⟨n, -, rfl⟩ := List.mem_map.mp hc
    exact letter_mem_alphabet n
  induction h with
  | nil => exact ⟨[], rfl, hall [], rfl⟩
  | @one a w x => exact ⟨[letter w, letter x], rfl, hall [w, x], by simp⟩
  | @two a b w x y => exact ⟨[letter w, letter x, letter y], rfl, hall [w, x, y], by simp⟩
  | @three a b c w x y z bytes text hbits hrest ih =>
    obtain ⟨letters, rfl, hletters, hlength⟩ := ih
    refine ⟨[letter w, letter x, letter y, letter z] ++ letters, ?_, ?_, ?_⟩
    · rw [show (a :: b :: c :: bytes).length % 3 = bytes.length % 3 from Nat.add_mod_right _ 3]
      rfl
    · intro ch hch
      rcases List.mem_append.mp hch with hch | hch
      · exact hall [w, x, y, z] ch hch
      · exact hletters ch hch
    · rw [List.length_append, hlength, List.length_cons, List.length_cons, List.length_cons]
      simp only [List.length_cons, List.length_nil]
      omega

/-! ## Reading -/

/-- Four characters are read as the bytes whose text they are. -/
theorem quartet?_eq_some {c₁ c₂ c₃ c₄ : Char} {bytes : List UInt8}
    (h : quartet? c₁ c₂ c₃ c₄ = some bytes) :
    [c₁, c₂, c₃, c₄] = encode bytes := by
  unfold quartet? at h
  split at h
  · rename_i w x hw hx
    obtain ⟨hw, rfl⟩ := value?_eq_some hw
    obtain ⟨hx, rfl⟩ := value?_eq_some hx
    have hfirst : (UInt8.ofNat (w * 4 + x / 16)).toNat = w * 4 + x / 16 := by
      rw [UInt8.toNat_ofNat']
      omega
    split at h
    · rename_i hpad
      split at h
      · rename_i hzeros
        cases h
        obtain ⟨rfl, rfl⟩ := hpad
        rw [encode, hfirst, show (w * 4 + x / 16) / 4 = w by omega,
          show (w * 4 + x / 16) % 4 * 16 = x by omega]
      · cases h
    · split at h
      · cases h
      · rename_i y hy
        obtain ⟨hy, rfl⟩ := value?_eq_some hy
        have hsecond : (UInt8.ofNat (x % 16 * 16 + y / 4)).toNat = x % 16 * 16 + y / 4 := by
          rw [UInt8.toNat_ofNat']
          omega
        split at h
        · rename_i hpad
          split at h
          · rename_i hzeros
            cases h
            rw [encode, hfirst, hsecond, hpad, show (w * 4 + x / 16) / 4 = w by omega,
              show (w * 4 + x / 16) % 4 * 16 + (x % 16 * 16 + y / 4) / 16 = x by omega,
              show (x % 16 * 16 + y / 4) % 16 * 4 = y by omega]
          · cases h
        · obtain ⟨z, hz, rfl⟩ := Option.map_eq_some_iff.mp h
          obtain ⟨hz, rfl⟩ := value?_eq_some hz
          have hthird : (UInt8.ofNat (y % 4 * 64 + z)).toNat = y % 4 * 64 + z := by
            rw [UInt8.toNat_ofNat']
            omega
          rw [encode, hfirst, hsecond, hthird, show (w * 4 + x / 16) / 4 = w by omega,
            show (w * 4 + x / 16) % 4 * 16 + (x % 16 * 16 + y / 4) / 16 = x by omega,
            show (x % 16 * 16 + y / 4) % 16 * 4 + (y % 4 * 64 + z) / 64 = y by omega,
            show (y % 4 * 64 + z) % 64 = z by omega]
          rfl
  · cases h

/-- A text goes on behind the letters for three bytes. -/
theorem encode_append {three : List UInt8} (h : three.length = 3) (more : List UInt8) :
    encode (three ++ more) = encode three ++ encode more := by
  match three, h with
  | [a, b, c], _ => rfl

/-- What is read has the text as its own. -/
theorem eq_encode_of_decode? {text : List Char} {bytes : List UInt8}
    (h : decode? text = some bytes) : text = encode bytes := by
  fun_induction decode? text generalizing bytes with
  | case1 =>
    cases h
    rfl
  | case2 => cases h
  | case3 c₁ c₂ c₃ c₄ rest four hfour hrest =>
    cases h
    rw [List.isEmpty_iff.mp hrest]
    exact quartet?_eq_some hfour
  | case4 c₁ c₂ c₃ c₄ rest four hfour hrest hthree ih =>
    obtain ⟨more, hmore, rfl⟩ := Option.map_eq_some_iff.mp h
    rw [encode_append hthree, ← quartet?_eq_some hfour, ih hmore]
    rfl
  | case5 => cases h
  | case6 => cases h

/-- **A text is read as the bytes of which it is the canonical text**, and any other is refused. -/
theorem decode?_eq_some_iff {text : List Char} {bytes : List UInt8} :
    decode? text = some bytes ↔ Canonical bytes text := by
  rw [canonical_iff]
  refine ⟨eq_encode_of_decode?, ?_⟩
  rintro rfl
  exact decode?_encode bytes

end Base64

end RpcDaemon
