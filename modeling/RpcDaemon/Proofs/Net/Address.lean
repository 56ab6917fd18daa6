import RpcDaemon.Net.Address
import RpcDaemon.Proofs.Text.Blank
import RpcDaemon.Proofs.Text.Numeral

/-!
# Characters of addresses

The text of an address is made of hexadecimal digits, colons and points. Main statement:
`Address.mem_chars`.
-/

namespace RpcDaemon

namespace Hex

/-- The digits of a hexadecimal number, from any place on. -/
theorem exists_digit_of_mem_natRev {fuel n : Nat} {c : Char} (h : c ∈ natRev fuel n) :
    ∃ d < 16, c = digit d := by
  induction fuel generalizing n with
  | zero => cases h
  | succ fuel ih =>
    rw [natRev] at h
    rcases List.mem_cons.mp h with rfl | h
    · exact ⟨n % 16, Nat.mod_lt n (by decide), rfl⟩
    · by_cases hn : n < 16
      · rw [if_pos hn] at h
        cases h
      · rw [if_neg hn] at h
        exact ih h

theorem exists_digit_of_mem_ofNat {n : Nat} {c : Char} (h : c ∈ ofNat n) :
    ∃ d < 16, c = digit d :=
  exists_digit_of_mem_natRev (List.mem_reverse.mp h)

end Hex

namespace Net

/-- A character that the text of an address may have. -/
def IsTextual (c : Char) : Prop :=
  c = ':' ∨ c = '.' ∨ ∃ n < 16, c = Hex.digit n

instance (c : Char) : Decidable (IsTextual c) :=
  inferInstanceAs (Decidable (c = ':' ∨ c = '.' ∨ ∃ n < 16, c = Hex.digit n))

theorem isTextual_of_mem_decimal {n : Nat} {c : Char} (h : c ∈ Numeral.ofNat n) :
    IsTextual c := by
  have hdigit : ∀ d : Digit, IsTextual d.toChar := by decide
  obtain ⟨d, rfl⟩ := Numeral.exists_digit_of_mem_ofNat h
  exact hdigit d

theorem V4.isTextual_of_mem_chars {ip : V4} {c : Char} (h : c ∈ ip.chars) : IsTextual c := by
  simp only [V4.chars, List.append_assoc, List.cons_append, List.mem_append, List.mem_cons] at h
  rcases h with h | rfl | h | rfl | h | rfl | h
  · exact isTextual_of_mem_decimal h
  · decide
  · exact isTextual_of_mem_decimal h
  · decide
  · exact isTextual_of_mem_decimal h
  · decide
  · exact isTextual_of_mem_decimal h

/-- Groups are written with hexadecimal digits and colons. -/
theorem V6.colon_or_digit_of_mem_joinGroups {gs : List UInt16} {c : Char}
    (h : c ∈ joinGroups gs) : c = ':' ∨ ∃ d < 16, c = Hex.digit d := by
  induction gs with
  | nil => cases h
  | cons g gs ih =>
    cases gs with
    | nil => exact Or.inr (Hex.exists_digit_of_mem_ofNat h)
    | cons g' gs =>
      rw [joinGroups] at h
      · rcases List.mem_append.mp h with h | h
        · exact Or.inr (Hex.exists_digit_of_mem_ofNat h)
        · rcases List.mem_cons.mp h with rfl | h
          · exact Or.inl rfl
          · exact ih h
      · exact List.cons_ne_nil g' gs

theorem V6.isTextual_of_mem_joinGroups {gs : List UInt16} {c : Char} (h : c ∈ joinGroups gs) :
    IsTextual c :=
  (colon_or_digit_of_mem_joinGroups h).imp_right Or.inr

theorem V6.isTextual_of_mem_chars {ip : V6} {c : Char} (h : c ∈ ip.chars) : IsTextual c := by
  have hall : ∀ d ∈ "::ffff:".toList, IsTextual d := Chars.forall_of_all (by decide)
  have hdouble : ∀ d ∈ "::".toList, IsTextual d := Chars.forall_of_all (by decide)
  unfold V6.chars at h
  by_cases hm : ip.isMapped = true
  · rw [if_pos hm] at h
    rcases List.mem_append.mp h with h | h
    · exact hall c h
    · exact V4.isTextual_of_mem_chars h
  · rw [if_neg hm] at h
    dsimp only at h
    split at h
    · rcases List.mem_append.mp h with h | h
      · rcases List.mem_append.mp h with h | h
        · exact isTextual_of_mem_joinGroups h
        · exact hdouble c h
      · exact isTextual_of_mem_joinGroups h
    · exact isTextual_of_mem_joinGroups h

/-- **The text of an address** has hexadecimal digits, colons and points only. -/
theorem Address.isTextual_of_mem_chars {ip : Address} {c : Char} (h : c ∈ ip.chars) :
    IsTextual c := by
  cases ip with
  | v4 ip => exact V4.isTextual_of_mem_chars h
  | v6 ip => exact V6.isTextual_of_mem_chars h

end Net

end RpcDaemon
