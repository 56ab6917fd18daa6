import RpcDaemon.Proofs.Http.Framing
import RpcDaemon.Proofs.Text.Separator

/-!
# The first line of a stream

A line goes up to its line feed. What the end of the stream cuts off before one is taken for a line
as well, unless it fills the limit. Nothing else is read as a line. Main statement:
`readLine_eq_ok_iff`.
-/

namespace RpcDaemon

namespace Http

variable {line line' s rest rest' : List UInt8} {text : List Char} {limit : Nat}

/-- The bytes are a whole line: the last of them is a line feed, and no other is. -/
def IsLine (line : List UInt8) : Prop :=
  ∃ front, lineFeed ∉ front ∧ line = front ++ [lineFeed]

theorem IsLine.ne_nil (h : IsLine line) : line ≠ [] := by
  obtain ⟨front, -, rfl⟩ := h
  simp

theorem IsLine.lineFeed_mem (h : IsLine line) : lineFeed ∈ line := by
  obtain ⟨front, -, rfl⟩ := h
  simp

theorem IsLine.getLast? (h : IsLine line) : line.getLast? = some lineFeed := by
  obtain ⟨front, -, rfl⟩ := h
  exact List.getLast?_concat

/-- A whole line is taken off a stream in one way only. -/
theorem IsLine.append_inj (h : IsLine line) (h' : IsLine line')
    (heq : line ++ rest = line' ++ rest') : line = line' ∧ rest = rest' := by
  obtain ⟨front, hfront, rfl⟩ := h
  obtain ⟨front', hfront', rfl⟩ := h'
  rw [List.append_assoc, List.append_assoc, List.singleton_append, List.singleton_append,
    append_cons_inj_of_notMem hfront hfront'] at heq
  exact ⟨by rw [heq.1], heq.2⟩

/-- The bytes are what is taken for the first line of a stream that goes on with the others. -/
inductive IsFirstLine (line : List UInt8) : List UInt8 → Prop
  /-- They are a whole line within the limit. -/
  | whole {rest : List UInt8} (h : IsLine line) (hlimit : line.length ≤ maxLine) :
      IsFirstLine line rest
  /-- They stand at the end of the stream without a line feed, and do not fill the limit. -/
  | cut (hne : line ≠ []) (h : lineFeed ∉ line) (hlimit : line.length < maxLine) :
      IsFirstLine line []

theorem IsFirstLine.ne_nil (h : IsFirstLine line rest) : line ≠ [] := by
  cases h with
  | whole h hlimit => exact h.ne_nil
  | cut hne h hlimit => exact hne

theorem IsFirstLine.length_le (h : IsFirstLine line rest) : line.length ≤ maxLine := by
  cases h with
  | whole h hlimit => exact hlimit
  | cut hne h hlimit => exact Nat.le_of_lt hlimit

/-- A first line that something follows is a whole one. -/
theorem IsFirstLine.isLine (h : IsFirstLine line rest) (hrest : rest ≠ []) : IsLine line := by
  cases h with
  | whole h hlimit => exact h
  | cut hne h hlimit => exact absurd rfl hrest

/-- A whole line is the first one whatever follows it. -/
theorem IsFirstLine.of_isLine (h : IsFirstLine line rest) (hline : IsLine line)
    (rest' : List UInt8) : IsFirstLine line rest' := by
  cases h with
  | whole h hlimit => exact .whole h hlimit
  | cut hne h hlimit => exact absurd hline.lineFeed_mem h

/-- A cut ends with the first line feed, at the limit or at the end of the stream. -/
theorem cutLine_cases (limit : Nat) (s : List UInt8) :
    (IsLine (cutLine limit s).1 ∧ (cutLine limit s).1.length ≤ limit) ∨
      (lineFeed ∉ (cutLine limit s).1 ∧ ((cutLine limit s).1.length = limit ∨
        (cutLine limit s).1.length < limit ∧ (cutLine limit s).2 = [])) := by
  induction limit generalizing s with
  | zero => exact Or.inr ⟨List.not_mem_nil, Or.inl rfl⟩
  | succ limit ih =>
    cases s with
    | nil => exact Or.inr ⟨List.not_mem_nil, Or.inr ⟨Nat.succ_pos limit, rfl⟩⟩
    | cons b s =>
      rw [cutLine]
      split
      · rename_i hb
        exact Or.inl ⟨⟨[], List.not_mem_nil, by rw [hb]; rfl⟩, Nat.succ_le_succ (Nat.zero_le limit)⟩
      · rename_i hb
        have hcons : ∀ {l : List UInt8}, lineFeed ∉ l → lineFeed ∉ b :: l := by
          intro l hl hm
          rcases List.mem_cons.mp hm with heq | hm
          · exact hb heq.symm
          · exact hl hm
        dsimp only
        rw [List.length_cons]
        rcases ih s with ⟨⟨front, hfront, hline⟩, hlimit⟩ | ⟨hnone, hends⟩
        · exact Or.inl ⟨⟨b :: front, hcons hfront, by rw [hline]; rfl⟩, by omega⟩
        · refine Or.inr ⟨hcons hnone, ?_⟩
          rcases hends with hfull | ⟨hshort, hrest⟩
          · exact Or.inl (by omega)
          · exact Or.inr ⟨by omega, hrest⟩

/-- Bytes without line feed that do not exceed the limit are not cut. -/
theorem cutLine_of_notMem (h : lineFeed ∉ line) (hlimit : line.length ≤ limit) :
    cutLine limit line = (line, []) := by
  induction line generalizing limit with
  | nil => cases limit <;> rfl
  | cons b line ih =>
    obtain ⟨limit, rfl⟩ : ∃ k, limit = k + 1 := ⟨limit - 1, by simp at hlimit; omega⟩
    have hb : b ≠ lineFeed := fun heq => h (heq ▸ List.mem_cons_self)
    rw [cutLine, if_neg hb, ih (fun hm => h (List.mem_cons_of_mem b hm))
      (Nat.le_of_succ_le_succ hlimit)]

/-- The first line of a stream is cut off it. -/
theorem IsFirstLine.cutLine_append (h : IsFirstLine line rest) :
    cutLine maxLine (line ++ rest) = (line, rest) := by
  cases h with
  | whole h hlimit =>
    obtain ⟨front, hfront, rfl⟩ := h
    rw [List.length_append, List.length_singleton] at hlimit
    rw [List.append_assoc, List.singleton_append, cutLine_of_lineFeed hfront (by omega)]
  | cut hne h hlimit =>
    rw [List.append_nil, cutLine_of_notMem h (by omega)]

/-- A stream that is not empty is cut by looking for a line feed. -/
theorem readLine_of_ne_nil (h : s ≠ []) :
    readLine s =
      if (cutLine maxLine s).1.getLast? ≠ some lineFeed ∧
          maxLine ≤ (cutLine maxLine s).1.length then .error .lineTooLong
      else .ok (lineText (cutLine maxLine s).1, (cutLine maxLine s).2) := by
  cases s with
  | nil => exact absurd rfl h
  | cons b s => rfl

/-- **What is read as the first line of a stream.** -/
theorem readLine_eq_ok_iff :
    readLine s = .ok (text, rest) ↔
      ∃ line, s = line ++ rest ∧ IsFirstLine line rest ∧ text = lineText line := by
  constructor
  · intro h
    have hne : s ≠ [] := by
      rintro rfl
      cases h
    have hsplit := cutLine_append maxLine s
    rw [readLine_of_ne_nil hne] at h
    split at h
    · cases h
    · rename_i hshort
      cases h
      refine ⟨_, hsplit.symm, ?_, rfl⟩
      rcases cutLine_cases maxLine s with ⟨hline, hlimit⟩ | ⟨hnone, hends⟩
      · exact .whole hline hlimit
      · -- A line that fills the limit without line feed was refused.
        have hlast : (cutLine maxLine s).1.getLast? ≠ some lineFeed := fun hlast =>
          hnone (List.mem_of_getLast? hlast)
        rcases hends with hfull | ⟨hlimit, hrest⟩
        · exact absurd ⟨hlast, Nat.le_of_eq hfull.symm⟩ hshort
        · rw [hrest] at hsplit ⊢
          rw [List.append_nil] at hsplit
          exact .cut (by rw [hsplit]; exact hne) hnone hlimit
  · rintro ⟨line, rfl, hline, rfl⟩
    rw [readLine_of_ne_nil (List.append_ne_nil_of_left_ne_nil hline.ne_nil rest),
      hline.cutLine_append]
    refine if_neg fun hlong => ?_
    cases hline with
    | whole h hlimit => exact hlong.1 h.getLast?
    | cut hne h hlimit => exact absurd hlong.2 (by dsimp only; omega)

/-- The first line of a stream is read off it. -/
theorem IsFirstLine.readLine_append (h : IsFirstLine line rest) :
    readLine (line ++ rest) = .ok (lineText line, rest) :=
  readLine_eq_ok_iff.mpr ⟨line, rfl, h, rfl⟩

/-! ## Blank lines -/

/-- Nothing but blanks stands in the line, its end included. -/
def IsBlankLine (line : List UInt8) : Prop :=
  ∀ c ∈ Utf8.decodeLossy line, isBlank c = true

instance (line : List UInt8) : Decidable (IsBlankLine line) :=
  List.decidableBAll (fun c => isBlank c = true) (Utf8.decodeLossy line)

/-- A line is blank exactly if trimming leaves nothing of its text. -/
theorem isEmpty_trim_lineText_iff :
    (Chars.trim (lineText line)).isEmpty = true ↔ IsBlankLine line := by
  obtain ⟨tail, htail, hline⟩ := Chars.exists_of_trimEndWhile
    (fun c => c == '\r' || c == '\n') (Utf8.decodeLossy line)
  rw [List.isEmpty_iff, Chars.trim_eq_nil_iff, IsBlankLine]
  constructor
  · intro h c hc
    rw [hline] at hc
    rcases List.mem_append.mp hc with hc | hc
    · exact h c hc
    · -- What was dropped at the end is blank too.
      have hend := htail c hc
      rw [Bool.or_eq_true, beq_iff_eq, beq_iff_eq] at hend
      rcases hend with rfl | rfl <;> rfl
  · intro h c hc
    exact h c (hline ▸ List.mem_append_left tail hc)

end Http

end RpcDaemon
