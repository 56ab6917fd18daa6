import RpcDaemon.Proofs.Json.Document

/-!
# The text of a document

The text of a document is one line: no control below U+0020 stands in it, since strings write them
as escapes. It is no shorter than the document is deep, since every array and every object takes two
brackets. Main statements: `Document.printed_chars` and `Document.depth_le_length`.
-/

namespace RpcDaemon

namespace Json

/-! ## Texts without controls -/

/-- No control below U+0020 stands in the text. -/
def Printed (cs : List Char) : Prop := ∀ c ∈ cs, 0x20 ≤ c.toNat

instance (cs : List Char) : Decidable (Printed cs) :=
  List.decidableBAll (fun c : Char => 0x20 ≤ c.toNat) cs

theorem printed_nil : Printed [] := by
  intro c hc
  cases hc

theorem Printed.append {a b : List Char} (ha : Printed a) (hb : Printed b) : Printed (a ++ b) := by
  intro c hc
  rcases List.mem_append.mp hc with h | h
  · exact ha c h
  · exact hb c h

theorem Printed.cons {c : Char} {cs : List Char} (hc : 0x20 ≤ c.toNat) (h : Printed cs) :
    Printed (c :: cs) := by
  intro d hd
  rcases List.mem_cons.mp hd with rfl | hd
  · exact hc
  · exact h d hd

/-! ## Numbers -/

theorem printed_digitChars (ds : List Digit) : Printed (digitChars ds) := by
  have hdigit : ∀ d : Digit, 0x20 ≤ d.toChar.toNat := by decide
  intro c hc
  obtain ⟨d, -, rfl⟩ := List.mem_map.mp hc
  exact hdigit d

theorem printed_sign (negative : Bool) : Printed (if negative then ['-'] else []) := by
  cases negative <;> decide

/-- The text of a number holds digits, signs, a point and the mark of an exponent only. -/
theorem NumberText.printed_chars (n : NumberText) : Printed n.chars := by
  have hfraction : Printed (fractionChars n.fraction) := by
    cases n.fraction with
    | none => exact printed_nil
    | some ds => exact (printed_digitChars ds).cons (by decide)
  have hexponent : Printed (exponentChars n.exponent) := by
    cases n.exponent with
    | none => exact printed_nil
    | some e => exact ((printed_sign e.1).append (printed_digitChars e.2)).cons (by decide)
  rw [NumberText.chars_eq]
  exact (printed_sign n.negative).append
    ((printed_digitChars n.whole).append (hfraction.append hexponent))

/-! ## Strings -/

/-- An escape by number holds a backslash, a letter and four digits. -/
theorem printed_unicodeEscape (n : Nat) : Printed (unicodeEscape n) := by
  have hdigit : ∀ k, k < 16 → 0x20 ≤ (Hex.digit k).toNat := by decide
  have hdigit' : ∀ k, 0x20 ≤ (Hex.digit (k % 16)).toNat := fun k => hdigit _ (Nat.mod_lt k (by decide))
  intro c hc
  simp only [unicodeEscape, List.mem_cons, List.not_mem_nil, or_false] at hc
  rcases hc with rfl | rfl | rfl | rfl | rfl | rfl
  · decide
  · decide
  · exact hdigit' _
  · exact hdigit' _
  · exact hdigit' _
  · exact hdigit' _

/-- Within quotes a control is written as an escape. -/
theorem printed_quotedChar (c : Char) : Printed (quotedChar c) := by
  unfold quotedChar
  split
  · decide
  · split
    · decide
    · split
      · rename_i hc
        exact printed_nil.cons hc
      · -- A control below U+0020 has an escape of its own or one by number.
        repeat' split
        all_goals first | decide | exact printed_unicodeEscape _

theorem Piece.printed_chars (p : Piece) : Printed p.chars := by
  cases p with
  | char c => exact printed_quotedChar c
  | surrogate u => exact printed_unicodeEscape u

theorem printed_quoted (s : List Piece) : Printed (quoted s) := by
  have hpieces : Printed (s.flatMap Piece.chars) := by
    intro c hc
    obtain ⟨p, -, hp⟩ := List.mem_flatMap.mp hc
    exact p.printed_chars c hp
  exact (hpieces.cons (by decide)).append (by decide)

/-! ## Documents -/

namespace Document

mutual

/-- **No control stands in the text of a document.** -/
theorem printed_chars : ∀ d : Document, Printed d.chars
  | .null => by
    show Printed "null".toList
    decide
  | .bool true => by
    show Printed "true".toList
    decide
  | .bool false => by
    show Printed "false".toList
    decide
  | .number n => n.printed_chars
  | .string s => printed_quoted s
  | .array items => ((printed_itemsChars items).cons (by decide)).append (by decide)
  | .object members => ((printed_membersChars members).cons (by decide)).append (by decide)

theorem printed_itemsChars : ∀ items : List Document, Printed (itemsChars items)
  | [] => printed_nil
  | [d] => printed_chars d
  | d :: e :: rest => by
    rw [itemsChars_cons_cons]
    exact (printed_chars d).append ((printed_itemsChars (e :: rest)).cons (by decide))

theorem printed_membersChars :
    ∀ members : List (List Piece × Document), Printed (membersChars members)
  | [] => printed_nil
  | [(k, d)] => (printed_quoted k).append ((printed_chars d).cons (by decide))
  | (k, d) :: m :: rest => by
    rw [membersChars_cons_cons]
    exact ((printed_quoted k).append ((printed_chars d).cons (by decide))).append
      ((printed_membersChars (m :: rest)).cons (by decide))

end

/-- **A document is no deeper than its text is long.** -/
theorem depth_le_length (d : Document) : d.depth ≤ d.chars.length :=
  (laidOut_chars d).depth_le_length

end Document

end Json

end RpcDaemon
