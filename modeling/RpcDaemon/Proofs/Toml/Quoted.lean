import RpcDaemon.Toml.Quoted

/-!
# TOML strings read back

A string is read back from the text that is written for it, whichever of the five ways of writing it
was chosen, if no quote follows. Main statement: `scanString?_chars`.
-/

namespace RpcDaemon

namespace Toml

/-- What follows a string does not add to it: no quote stands at its front. -/
def EndsString (rest : List Char) : Prop :=
  rest.head? ≠ some '"' ∧ rest.head? ≠ some '\x27'

theorem endsString_cons {c : Char} (h : c ≠ '"' ∧ c ≠ '\x27') (rest : List Char) :
    EndsString (c :: rest) :=
  ⟨fun heq => h.1 (Option.some.inj heq), fun heq => h.2 (Option.some.inj heq)⟩

/-- Without a quote at the front of what follows no quote belongs to the string. -/
theorem extraQuotes_of_ne {q : Char} {rest : List Char} (h : rest.head? ≠ some q) :
    extraQuotes q rest = ([], rest) := by
  match rest, h with
  | [], _ => rfl
  | [c], h =>
    have hc : c ≠ q := fun heq => h (heq ▸ rfl)
    rw [extraQuotes, if_neg hc]
  | c :: d :: rest, h =>
    have hc : c ≠ q := fun heq => h (heq ▸ rfl)
    rw [extraQuotes, if_neg hc]

/-! ## Characters -/

/-- A plain character is neither a line feed nor a carriage return. -/
theorem ne_of_isPlain {c : Char} (h : isPlain c = true) : c ≠ '\n' ∧ c ≠ '\r' := by
  constructor
  · rintro rfl
    cases h
  · rintro rfl
    cases h

/-- A character above the controls that is not U+007F is plain. -/
theorem isPlain_of_le {c : Char} (hlow : 0x20 ≤ c.toNat) (hne : c.toNat ≠ 0x7F) :
    isPlain c = true := by
  simp [isPlain, hlow, hne]

/-- The digits of an escape are read as the number they write. -/
theorem value?_upperDigit : ∀ n, n < 16 → Hex.value? (Hex.upperDigit n) = some n := by
  decide

/-- Four digits are read as the number they write. -/
theorem hexValue?_four {n : Nat} (h : n < 65536) :
    hexValue? [Hex.upperDigit (n / 4096 % 16), Hex.upperDigit (n / 256 % 16),
      Hex.upperDigit (n / 16 % 16), Hex.upperDigit (n % 16)] = some n := by
  simp only [hexValue?, List.foldl_cons, List.foldl_nil,
    value?_upperDigit _ (Nat.mod_lt _ (show 0 < 16 by decide))]
  congr 1
  omega

/-- The four digits of a character are read as that character. -/
theorem codePoint?_four {c : Char} (h : c.toNat < 65536) :
    codePoint? [Hex.upperDigit (c.toNat / 4096 % 16), Hex.upperDigit (c.toNat / 256 % 16),
      Hex.upperDigit (c.toNat / 16 % 16), Hex.upperDigit (c.toNat % 16)] = some c := by
  rw [codePoint?, hexValue?_four h]
  have hvalid : c.toNat.isValidChar := c.valid
  dsimp only
  rw [if_pos hvalid, Char.ofNat_toNat]

/-- How a character is escaped: by a short escape, by its number, or not at all. -/
theorem escaped_cases (c : Char) :
    (∃ e, Quoted.escaped c = ['\\', e] ∧ e ≠ 'u' ∧ e ≠ 'U' ∧ shortEscape? e = some c) ∨
    (Quoted.escaped c = Quoted.unicodeEscape c.toNat ∧ c.toNat < 65536) ∨
    (Quoted.escaped c = [c] ∧ isPlain c = true ∧ c ≠ '"' ∧ c ≠ '\\') := by
  -- Two of the controls are known by their number.
  have hnum : ∀ n, c.toNat = n → Char.ofNat n = c := by
    rintro n rfl
    exact Char.ofNat_toNat c
  unfold Quoted.escaped
  by_cases hq : c = '"'
  · subst hq
    exact Or.inl ⟨'"', rfl, by decide, by decide, rfl⟩
  by_cases hb : c = '\\'
  · subst hb
    exact Or.inl ⟨'\\', rfl, by decide, by decide, rfl⟩
  by_cases h8 : c.toNat = 8
  · refine Or.inl ⟨'b', ?_, by decide, by decide, ?_⟩
    · rw [if_neg hq, if_neg hb, if_pos h8]
    · rw [← hnum 8 h8]
      rfl
  by_cases ht : c = '\t'
  · subst ht
    exact Or.inl ⟨'t', rfl, by decide, by decide, rfl⟩
  by_cases hn : c = '\n'
  · subst hn
    exact Or.inl ⟨'n', rfl, by decide, by decide, rfl⟩
  by_cases h12 : c.toNat = 12
  · refine Or.inl ⟨'f', ?_, by decide, by decide, ?_⟩
    · rw [if_neg hq, if_neg hb, if_neg h8, if_neg ht, if_neg hn, if_pos h12]
    · rw [← hnum 12 h12]
      rfl
  by_cases hr : c = '\r'
  · subst hr
    exact Or.inl ⟨'r', rfl, by decide, by decide, rfl⟩
  rw [if_neg hq, if_neg hb, if_neg h8, if_neg ht, if_neg hn, if_neg h12, if_neg hr]
  by_cases hc : c.toNat < 0x20 ∨ c.toNat = 0x7F
  · exact Or.inr (Or.inl ⟨if_pos hc, by omega⟩)
  · exact Or.inr (Or.inr ⟨if_neg hc, isPlain_of_le (by omega) (by omega), hq, hb⟩)

/-- No escaped character starts with a quote. -/
theorem head?_escaped (c : Char) (rest : List Char) :
    (Quoted.escaped c ++ rest).head? ≠ some '"' := by
  rcases escaped_cases c with ⟨e, he, -⟩ | ⟨he, -⟩ | ⟨he, -, hq, -⟩
  · rw [he]
    exact fun heq => absurd (Option.some.inj heq) (by decide)
  · rw [he]
    exact fun heq => absurd (Option.some.inj heq) (by decide)
  · rw [he]
    exact fun heq => hq (Option.some.inj heq)

/-! ## Basic strings -/

/-- A short escape is read as its character. -/
theorem scanBasic?_shortEscape (acc : List Char) {e c : Char} (hu : e ≠ 'u') (hU : e ≠ 'U')
    (h : shortEscape? e = some c) (rest : List Char) :
    scanBasic? acc ('\\' :: e :: rest) = scanBasic? (c :: acc) rest := by
  -- The clauses overlap: all but the one for short escapes are ruled out by their patterns.
  rw [scanBasic?.eq_def]
  split
  case h_5 heq =>
    obtain ⟨rfl, rfl⟩ := List.cons.inj (List.cons.inj heq).2
    rw [h]
  case h_6 hno heq =>
    obtain ⟨rfl, rfl⟩ := List.cons.inj heq
    exact absurd rfl (hno e rest rfl)
  all_goals simp_all

/-- A plain character is read as itself. -/
theorem scanBasic?_plain (acc : List Char) {c : Char} (hc : isPlain c = true) (hq : c ≠ '"')
    (hb : c ≠ '\\') (rest : List Char) :
    scanBasic? acc (c :: rest) = scanBasic? (c :: acc) rest := by
  rw [scanBasic?.eq_def]
  split
  case h_6 heq =>
    obtain ⟨rfl, rfl⟩ := List.cons.inj heq
    rw [if_pos (by simp [hc, hb])]
  all_goals simp_all

/-- An escaped character is read back. -/
theorem scanBasic?_escaped (acc : List Char) (c : Char) (rest : List Char) :
    scanBasic? acc (Quoted.escaped c ++ rest) = scanBasic? (c :: acc) rest := by
  rcases escaped_cases c with ⟨e, he, hu, hU, hshort⟩ | ⟨he, hlt⟩ | ⟨he, hplain, hq, hb⟩
  · rw [he]
    exact scanBasic?_shortEscape acc hu hU hshort rest
  · rw [he, Quoted.unicodeEscape]
    simp only [List.cons_append, List.nil_append]
    rw [scanBasic?.eq_def]
    simp only [codePoint?_four hlt]
  · rw [he]
    exact scanBasic?_plain acc hplain hq hb rest

/-- A basic string is read up to its closing quote. -/
theorem scanBasic?_append (acc cs rest : List Char) :
    scanBasic? acc (cs.flatMap Quoted.escaped ++ '"' :: rest) = some (acc.reverse ++ cs, rest) := by
  induction cs generalizing acc with
  | nil =>
    rw [List.flatMap_nil, List.nil_append, List.append_nil, scanBasic?.eq_def]
    rfl
  | cons c cs ih =>
    rw [List.flatMap_cons, List.append_assoc, scanBasic?_escaped, ih, List.reverse_cons,
      List.append_assoc]
    rfl

/-! ## Basic strings of several lines -/

/-- A short escape is read as its character. -/
theorem scanBasicLines?_shortEscape (acc : List Char) {e c : Char} (hu : e ≠ 'u') (hU : e ≠ 'U')
    (h : shortEscape? e = some c) (rest : List Char) :
    scanBasicLines? .off acc ('\\' :: e :: rest) = scanBasicLines? .off (c :: acc) rest := by
  rw [scanBasicLines?.eq_11 .off acc e rest (fun _ _ _ _ _ heq => absurd heq hu)
    (fun _ _ _ _ _ _ _ _ _ heq => absurd heq hU), if_neg (by decide), h]

/-- A plain character is read as itself. -/
theorem scanBasicLines?_plain (acc : List Char) {c : Char} (hc : isPlain c = true) (hq : c ≠ '"')
    (hb : c ≠ '\\') (rest : List Char) :
    scanBasicLines? .off acc (c :: rest) = scanBasicLines? .off (c :: acc) rest := by
  obtain ⟨hn, hr⟩ := ne_of_isPlain hc
  rw [scanBasicLines?.eq_12 .off acc c rest (fun _ h => absurd h hr) hn (fun _ h => absurd h hq)
    (fun _ _ _ _ _ h => absurd h hb) (fun _ _ _ _ _ _ _ _ _ h => absurd h hb)
    (fun _ _ h => absurd h hb)]
  simp [hc, hb]

/-- A character of a line, or a line feed, is read back. -/
theorem scanBasicLines?_escapedLine (acc : List Char) (c : Char) (rest : List Char) :
    scanBasicLines? .off acc (Quoted.escapedLine c ++ rest) =
      scanBasicLines? .off (c :: acc) rest := by
  unfold Quoted.escapedLine
  split
  · subst c
    rw [List.singleton_append, scanBasicLines?, if_pos rfl]
  · rcases escaped_cases c with ⟨e, he, hu, hU, hshort⟩ | ⟨he, hlt⟩ | ⟨he, hplain, hq, hb⟩
    · rw [he]
      exact scanBasicLines?_shortEscape acc hu hU hshort rest
    · rw [he, Quoted.unicodeEscape]
      simp only [List.cons_append, List.nil_append]
      exact scanBasicLines?.eq_6 acc _ _ _ _ rest .off c (by decide) (codePoint?_four hlt)
    · rw [he]
      exact scanBasicLines?_plain acc hplain hq hb rest

/-- A basic string of several lines is read up to its closing quotes. -/
theorem scanBasicLines?_append (acc cs : List Char) {rest : List Char}
    (h : rest.head? ≠ some '"') :
    scanBasicLines? .off acc (cs.flatMap Quoted.escapedLine ++ (Quoted.doubles ++ rest)) =
      some (acc.reverse ++ cs, rest) := by
  induction cs generalizing acc with
  | nil =>
    show scanBasicLines? .off acc ('"' :: '"' :: '"' :: rest) = _
    rw [scanBasicLines?, if_neg (by decide), extraQuotes_of_ne h]
  | cons c cs ih =>
    rw [List.flatMap_cons, List.append_assoc, scanBasicLines?_escapedLine, ih, List.reverse_cons,
      List.append_assoc]
    rfl

/-! ## Literal strings -/

/-- A literal string is read up to its closing quote. -/
theorem scanLiteral?_append (acc : List Char) {cs : List Char}
    (hcs : ∀ c ∈ cs, isPlain c = true ∧ c ≠ '\x27') (rest : List Char) :
    scanLiteral? acc (cs ++ '\x27' :: rest) = some (acc.reverse ++ cs, rest) := by
  induction cs generalizing acc with
  | nil => rw [List.nil_append, scanLiteral?, List.append_nil]
  | cons c cs ih =>
    obtain ⟨hplain, hq⟩ := hcs c List.mem_cons_self
    rw [List.cons_append, scanLiteral?.eq_3 acc c _ hq, if_pos hplain,
      ih (c :: acc) fun d hd => hcs d (List.mem_cons_of_mem c hd), List.reverse_cons,
      List.append_assoc]
    rfl

/-- What a literal string of several lines may hold: no three quotes side by side, and no quote at its
end. -/
structure Literal (cs : List Char) : Prop where
  /-- Every character may stand in it. -/
  all : ∀ c ∈ cs, Quoted.isLiteral c = true
  /-- No three quotes stand side by side. -/
  noTriple : Quoted.hasTriple cs = false
  /-- The last character is no quote. -/
  last : cs.getLast? ≠ some '\x27'

/-- What is left of a literal string behind its first character is literal. -/
theorem Literal.tail {c : Char} {cs : List Char} (h : Literal (c :: cs)) : Literal cs where
  all := fun d hd => h.all d (List.mem_cons_of_mem c hd)
  noTriple := by
    have hc := h.noTriple
    unfold Quoted.hasTriple at hc
    split at hc
    · cases hc
    · rename_i heq
      rw [(List.cons.inj heq).2]
      exact hc
    · rename_i heq
      cases heq
  last := by
    intro hlast
    apply h.last
    cases cs with
    | nil => cases hlast
    | cons d cs => rwa [List.getLast?_cons_cons]

/-- The quotes that end a literal string do not stand within it. -/
theorem Literal.ne_singles {c : Char} {cs : List Char} (h : Literal (c :: cs))
    (rest more : List Char) :
    c :: (cs ++ '\x27' :: rest) ≠ '\x27' :: '\x27' :: '\x27' :: more := by
  intro heq
  obtain ⟨rfl, htail⟩ := List.cons.inj heq
  clear heq
  match cs with
  | [] => exact h.last rfl
  | [d] =>
    obtain ⟨rfl, -⟩ := List.cons.inj htail
    exact h.last rfl
  | d :: e :: cs =>
    obtain ⟨rfl, hrest⟩ := List.cons.inj htail
    have he : e = '\x27' := (List.cons.inj hrest).1
    subst he
    cases h.noTriple

/-- A literal string of several lines is read up to its closing quotes. -/
theorem scanLiteralLines?_append (acc : List Char) {cs : List Char} (hcs : Literal cs)
    {rest : List Char} (h : rest.head? ≠ some '\x27') :
    scanLiteralLines? acc (cs ++ (Quoted.singles ++ rest)) = some (acc.reverse ++ cs, rest) := by
  induction cs generalizing acc with
  | nil =>
    show scanLiteralLines? acc ('\x27' :: '\x27' :: '\x27' :: rest) = _
    rw [scanLiteralLines?, extraQuotes_of_ne h]
  | cons c cs ih =>
    have hlit := hcs.all c List.mem_cons_self
    have hr : c ≠ '\r' := by
      rintro rfl
      cases hlit
    have hquotes : ∀ more, c = '\x27' →
        cs ++ (Quoted.singles ++ rest) = '\x27' :: '\x27' :: more → False := by
      rintro more rfl heq
      exact hcs.ne_singles ('\x27' :: '\x27' :: rest) more (congrArg ('\x27' :: ·) heq)
    rw [List.cons_append, scanLiteralLines?.eq_4 acc c _ (fun _ heq => absurd heq hr) hquotes,
      if_pos (show (isPlain c || c == '\n') = true from hlit), ih (c :: acc) hcs.tail, List.reverse_cons, List.append_assoc]
    rfl

/-! ## Strings -/

/-- When a string is written literally: it holds a backslash and may stand between the quotes. -/
theorem literal_of_style {cs : List Char} {style : Style} (h : Quoted.style cs = style)
    (hstyle : style = .literal ∨ style = .literalTriple ∨ style = .literalLines) :
    '\\' ∈ cs ∧ Literal cs := by
  unfold Quoted.style at h
  split at h
  · rename_i hcond
    simp only [Bool.and_eq_true, Bool.not_eq_true', bne_iff_ne, List.all_eq_true,
      List.contains_eq_mem, decide_eq_true_eq] at hcond
    obtain ⟨⟨⟨hmem, htriple⟩, hlast⟩, hall⟩ := hcond
    exact ⟨hmem, hall, htriple, hlast⟩
  · -- Otherwise it is written as a basic string.
    split at h <;> rcases hstyle with rfl | rfl | rfl <;> cases h

/-- A string that is written literally on one line has no line feed. -/
theorem newline_notMem_of_style {cs : List Char} {style : Style} (h : Quoted.style cs = style)
    (hstyle : style = .literal ∨ style = .literalTriple) : '\n' ∉ cs := by
  intro hmem
  have hcontains : cs.contains '\n' = true := by simpa using hmem
  unfold Quoted.style at h
  rw [hcontains] at h
  split at h <;> rcases hstyle with rfl | rfl <;> cases h

/-- A string in single quotes has none within. -/
theorem quote_notMem_of_style {cs : List Char} (h : Quoted.style cs = .literal) :
    '\x27' ∉ cs := by
  intro hmem
  have hcontains : cs.contains '\x27' = true := by simpa using hmem
  unfold Quoted.style at h
  rw [hcontains] at h
  split at h <;> split at h <;> cases h

/-- A literal text without a line feed does not begin with a line end. -/
theorem skipNewline_of_notMem {cs : List Char} (hn : '\n' ∉ cs) {rest : List Char}
    (hrest : rest.head? = some '\x27') : skipNewline (cs ++ rest) = cs ++ rest := by
  have hnone : newline? (cs ++ rest) = none := by
    unfold newline?
    split
    · rename_i more heq
      cases cs with
      | nil =>
        rw [List.nil_append] at heq
        rw [heq] at hrest
        cases hrest
      | cons c cs => exact absurd (List.mem_cons.mpr (Or.inl (List.cons.inj heq).1.symm)) hn
    · rename_i more heq
      match cs, heq with
      | [], heq =>
        rw [List.nil_append] at heq
        rw [heq] at hrest
        cases hrest
      | [c], heq =>
        have hhead : rest = '\n' :: more := (List.cons.inj heq).2
        rw [hhead] at hrest
        cases hrest
      | c :: d :: cs, heq =>
        have hd := (List.cons.inj (List.cons.inj heq).2).1
        exact absurd (List.mem_cons_of_mem c (List.mem_cons.mpr (Or.inl hd.symm))) hn
    · rfl
  rw [skipNewline, hnone]
  rfl

/-- **A string is read back from the text that is written for it**, if no quote follows. -/
theorem scanString?_chars (s : String) {rest : List Char} (h : EndsString rest) :
    scanString? (Quoted.chars s ++ rest) = some (s.toList, rest) := by
  unfold Quoted.chars
  generalize s.toList = cs
  cases hstyle : Quoted.style cs with
  | basic =>
    -- Three quotes at the front would be those of an empty string and one that follows.
    have hfront : ∀ more, cs.flatMap Quoted.escaped ++ '"' :: rest ≠ '"' :: '"' :: more := by
      intro more heq
      cases cs with
      | nil => exact h.1 (congrArg List.head? (List.cons.inj heq).2)
      | cons c cs =>
        rw [List.flatMap_cons, List.append_assoc] at heq
        exact head?_escaped c _ (congrArg List.head? heq)
    show scanString? ('"' :: (cs.flatMap Quoted.escaped ++ ['"']) ++ rest) = _
    rw [List.cons_append, List.append_assoc, List.singleton_append,
      scanString?.eq_2 _ hfront, scanBasic?_append]
    rfl
  | basicLines =>
    show scanBasicLines? .off [] (cs.flatMap Quoted.escapedLine ++ Quoted.doubles ++ rest) = _
    rw [List.append_assoc, scanBasicLines?_append [] cs h.1]
    rfl
  | literal =>
    obtain ⟨hmem, hlit⟩ := literal_of_style hstyle (Or.inl rfl)
    have hn := newline_notMem_of_style hstyle (Or.inl rfl)
    have hq := quote_notMem_of_style hstyle
    have hall : ∀ c ∈ cs, isPlain c = true ∧ c ≠ '\x27' := by
      intro c hc
      have hne : c ≠ '\n' := fun heq => hn (heq ▸ hc)
      have hplain := hlit.all c hc
      rw [Quoted.isLiteral, Bool.or_eq_true, beq_iff_eq] at hplain
      exact ⟨hplain.resolve_right hne, fun heq => hq (heq ▸ hc)⟩
    have hfront : ∀ more, cs ++ '\x27' :: rest ≠ '\x27' :: '\x27' :: more := by
      intro more heq
      cases cs with
      | nil => cases hmem
      | cons c cs => exact hq (List.mem_cons.mpr (Or.inl (List.cons.inj heq).1.symm))
    show scanString? ('\x27' :: (cs ++ ['\x27']) ++ rest) = _
    rw [List.cons_append, List.append_assoc, List.singleton_append, scanString?.eq_4 _ hfront,
      scanLiteral?_append [] hall]
    rfl
  | literalTriple =>
    obtain ⟨-, hlit⟩ := literal_of_style hstyle (Or.inr (Or.inl rfl))
    have hn := newline_notMem_of_style hstyle (Or.inr rfl)
    show scanLiteralLines? [] (skipNewline (cs ++ Quoted.singles ++ rest)) = _
    rw [List.append_assoc, skipNewline_of_notMem hn rfl, scanLiteralLines?_append [] hlit h.2]
    rfl
  | literalLines =>
    obtain ⟨-, hlit⟩ := literal_of_style hstyle (Or.inr (Or.inr rfl))
    show scanLiteralLines? [] (cs ++ Quoted.singles ++ rest) = _
    rw [List.append_assoc, scanLiteralLines?_append [] hlit h.2]
    rfl

end Toml

end RpcDaemon
