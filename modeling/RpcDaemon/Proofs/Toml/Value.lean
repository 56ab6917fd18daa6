import RpcDaemon.Proofs.Toml.Quoted
import RpcDaemon.Proofs.Toml.Scalar
import RpcDaemon.Toml.Reader

/-!
# TOML values read back

A value that is written is read back, if what follows adds neither to a string nor to a number. Main
statement: `scanValue?_chars`.
-/

namespace RpcDaemon

namespace Toml

/-! ## Blanks -/

/-- The first character of a token: no blank, no line end and no mark of a comment. -/
def StartsToken (c : Char) : Prop := c ∉ [' ', '\t', '\n', '\r', '#']

instance (c : Char) : Decidable (StartsToken c) :=
  inferInstanceAs (Decidable (c ∉ [' ', '\t', '\n', '\r', '#']))

/-- No blank is the first character of a token. -/
theorem StartsToken.isGap_eq_false {c : Char} (h : StartsToken c) : isGap c = false := by
  simp only [StartsToken, List.mem_cons, List.not_mem_nil, or_false, not_or] at h
  simp [isGap, h]

/-- Nothing is skipped before a character that is no blank. -/
theorem skipGap_cons {c : Char} (h : isGap c = false) (rest : List Char) :
    skipGap (c :: rest) = c :: rest :=
  List.dropWhile_cons_of_neg (by simp [h])

/-- A token does not begin with a line end. -/
theorem newline?_cons {c : Char} (h : StartsToken c) (rest : List Char) :
    newline? (c :: rest) = none := by
  simp only [StartsToken, List.mem_cons, List.not_mem_nil, or_false, not_or] at h
  exact newline?.eq_3 _ (fun _ heq => h.2.2.1 (List.cons.inj heq).1)
    fun _ heq => h.2.2.2.1 (List.cons.inj heq).1

/-- Nothing is skipped before a token. -/
theorem skipLines_cons {c : Char} (h : StartsToken c) (fuel : Nat) (rest : List Char) :
    skipLines fuel (c :: rest) = c :: rest := by
  have hc : c ≠ '#' := by
    rintro rfl
    exact h (by decide)
  cases fuel with
  | zero => rfl
  | succ fuel =>
    rw [skipLines, skipGap_cons h.isGap_eq_false]
    split
    · rename_i heq
      exact absurd (List.cons.inj heq).1 hc
    · rw [newline?_cons h]

/-- A line feed is skipped. -/
theorem skipLines_newline (fuel : Nat) (rest : List Char) :
    skipLines (fuel + 1) ('\n' :: rest) = skipLines fuel rest := rfl

/-- The blanks at the front of a line are skipped. -/
theorem skipLines_indent (fuel : Nat) (rest : List Char) :
    skipLines (fuel + 1) ("    ".toList ++ rest) = skipLines (fuel + 1) rest := rfl

/-- A blank before a value is skipped. -/
theorem scanValue?_space (fuel limit : Nat) (cs : List Char) :
    scanValue? fuel limit (' ' :: cs) = scanValue? fuel limit cs := by
  have hskip : skipGap (' ' :: cs) = skipGap cs := rfl
  cases fuel with
  | zero => rfl
  | succ fuel =>
    unfold scanValue?
    rw [hskip]

/-! ## Strings and scalars -/

/-- A string begins with a quote. -/
theorem Quoted.chars_cons (s : String) :
    ∃ q cs, Quoted.chars s = q :: cs ∧ (q = '"' ∨ q = '\x27') := by
  unfold Quoted.chars
  cases Quoted.style s.toList
  · exact ⟨_, _, rfl, Or.inl rfl⟩
  · exact ⟨_, _, rfl, Or.inl rfl⟩
  · exact ⟨_, _, rfl, Or.inr rfl⟩
  · exact ⟨_, _, rfl, Or.inr rfl⟩
  · exact ⟨_, _, rfl, Or.inr rfl⟩

/-- A string is read as a value. -/
theorem scanValue?_quoted (fuel limit : Nat) (s : String) {rest : List Char} (h : EndsString rest) :
    scanValue? (fuel + 1) limit (Quoted.chars s ++ rest) = some (.string s, rest) := by
  have hscan := scanString?_chars s h
  obtain ⟨q, cs, hcs, hq⟩ := Quoted.chars_cons s
  rw [hcs, List.cons_append] at hscan ⊢
  rcases hq with rfl | rfl
  · rw [scanValue?.eq_2 _ fuel limit (cs ++ rest) (skipGap_cons rfl _), hscan, Option.map_some,
      String.ofList_toList]
  · rw [scanValue?.eq_3 _ fuel limit (cs ++ rest) (skipGap_cons rfl _), hscan, Option.map_some,
      String.ofList_toList]

/-- What begins with neither a quote nor a bracket is read as a scalar. -/
theorem scanValue?_scalar {c : Char} (h : c ∉ ['"', '\x27', '[', '{', ' ', '\t'])
    (fuel limit : Nat) (cs : List Char) :
    scanValue? (fuel + 1) limit (c :: cs) = scanScalar? (c :: cs) := by
  simp only [List.mem_cons, List.not_mem_nil, or_false, not_or] at h
  obtain ⟨hd, hs, ha, ho, hspace, htab⟩ := h
  have hskip : skipGap (c :: cs) = c :: cs := skipGap_cons (by simp [isGap, hspace, htab]) cs
  rw [scanValue?.eq_6, hskip]
  · intro rest heq
    rw [hskip] at heq
    exact hd (List.cons.inj heq).1
  · intro rest heq
    rw [hskip] at heq
    exact hs (List.cons.inj heq).1
  · intro rest _ heq
    rw [hskip] at heq
    exact absurd (List.cons.inj heq).1 ha
  · intro rest _ heq
    rw [hskip] at heq
    exact absurd (List.cons.inj heq).1 ho

/-! ## Lists of strings -/

/-- The first character of a string starts a token and closes no list. -/
theorem startsToken_of_quote {q : Char} (h : q = '"' ∨ q = '\x27') : StartsToken q ∧ q ≠ ']' := by
  rcases h with rfl | rfl <;> decide

/-- What may follow an item of a list adds nothing to a string. -/
theorem endsString_comma (rest : List Char) : EndsString (',' :: rest) :=
  endsString_cons (by decide) rest

theorem endsString_bracket (rest : List Char) : EndsString (']' :: rest) :=
  endsString_cons (by decide) rest

/-- An opening bracket without its closing bracket starts the items of a list. -/
theorem scanValue?_bracket (fuel limit : Nat) {c : Char} {cs ts : List Char}
    (h : skipLines ts.length ts = c :: cs) (hc : c ≠ ']') :
    scanValue? (fuel + 1) (limit + 1) ('[' :: ts) =
      (scanItems? fuel limit (c :: cs)).map fun r => (.array r.1, r.2) := by
  rw [scanValue?.eq_4 _ fuel ts limit (skipGap_cons rfl _), h]
  split
  · rename_i heq
    exact absurd (List.cons.inj heq).1 hc
  · rfl

/-- A comma with an item behind it. -/
theorem scanItems?_comma {fuel limit : Nat} {v : Value} {c : Char} {cs ts rest : List Char}
    (hv : scanValue? fuel limit cs = some (v, ',' :: rest))
    (h : skipLines rest.length rest = c :: ts) (hc : c ≠ ']') :
    scanItems? (fuel + 1) limit cs =
      (scanItems? fuel limit (c :: ts)).map fun r => (v :: r.1, r.2) := by
  have hcomma : StartsToken ',' := by decide
  rw [scanItems?, hv]
  simp only [skipLines_cons hcomma, h]
  split
  · rename_i heq
    exact absurd (List.cons.inj heq).1 hc
  · rfl

/-- A comma behind the last item. -/
theorem scanItems?_last {fuel limit : Nat} {v : Value} {cs ts rest : List Char}
    (hv : scanValue? fuel limit cs = some (v, ',' :: rest))
    (h : skipLines rest.length rest = ']' :: ts) :
    scanItems? (fuel + 1) limit cs = some ([v], ts) := by
  have hcomma : StartsToken ',' := by decide
  simp only [scanItems?, hv, skipLines_cons hcomma, h]

/-- The item of a list on one line is read up to the bracket that closes the list. -/
theorem scanItems?_single (fuel limit : Nat) (s : String) (rest : List Char) :
    scanItems? (fuel + 2) limit (Quoted.chars s ++ ']' :: rest) = some ([.string s], rest) := by
  rw [scanItems?, scanValue?_quoted fuel limit s (endsString_bracket rest)]
  dsimp only
  rw [skipLines_cons (by decide)]
  rfl

/-- The line of an item. -/
theorem itemLines_cons (s : String) (items : List String) :
    Written.itemLines (s :: items) =
      "    ".toList ++ (Quoted.chars s ++ ',' :: '\n' :: Written.itemLines items) := by
  unfold Written.itemLines
  rw [List.flatMap_cons]
  simp only [List.append_assoc, List.cons_append, List.nil_append]

/-- What stands before an item on a line of its own is skipped, and the item begins with a quote. -/
theorem skipLines_itemLines (s : String) (items : List String) (rest : List Char) :
    ∃ q cs, Quoted.chars s ++ ',' :: '\n' :: (Written.itemLines items ++ rest) = q :: cs ∧
      q ≠ ']' ∧
        skipLines ('\n' :: (Written.itemLines (s :: items) ++ rest)).length
          ('\n' :: (Written.itemLines (s :: items) ++ rest)) = q :: cs := by
  obtain ⟨q, cs, hcs, hq⟩ := Quoted.chars_cons s
  refine ⟨q, cs ++ ',' :: '\n' :: (Written.itemLines items ++ rest), by rw [hcs]; rfl,
    (startsToken_of_quote hq).2, ?_⟩
  obtain ⟨fuel, hfuel⟩ : ∃ fuel,
      ('\n' :: (Written.itemLines (s :: items) ++ rest)).length = fuel + 2 := by
    refine ⟨(Written.itemLines (s :: items) ++ rest).length - 1, ?_⟩
    rw [itemLines_cons]
    simp only [List.length_cons, List.length_append]
    omega
  rw [hfuel, skipLines_newline, itemLines_cons, hcs, List.append_assoc, skipLines_indent,
    List.append_assoc]
  exact skipLines_cons (startsToken_of_quote hq).1 (fuel + 1) _

/-- Items on lines of their own are read up to the bracket that closes the list. -/
theorem scanItems?_lines (limit : Nat) (s : String) (items : List String) (rest : List Char)
    (fuel : Nat) (hf : items.length + 2 ≤ fuel) :
    scanItems? fuel limit
        (Quoted.chars s ++ ',' :: '\n' :: (Written.itemLines items ++ ']' :: rest)) =
      some ((s :: items).map Value.string, rest) := by
  induction items generalizing s fuel with
  | nil =>
    obtain ⟨fuel, rfl⟩ : ∃ k, fuel = k + 2 := ⟨fuel - 2, by simp at hf; omega⟩
    exact scanItems?_last (scanValue?_quoted fuel limit s (endsString_comma _)) rfl
  | cons t items ih =>
    obtain ⟨fuel, rfl⟩ : ∃ k, fuel = k + 2 := ⟨fuel - 2, by simp at hf; omega⟩
    have hitems := ih t (fuel + 1) (by simp at hf; omega)
    obtain ⟨q, cs, hcs, hq, hskip⟩ := skipLines_itemLines t items (']' :: rest)
    rw [scanItems?_comma (scanValue?_quoted fuel limit s (endsString_comma _)) hskip hq, ← hcs,
      hitems]
    rfl

/-- The lines of items are no fewer than the items. -/
theorem length_le_itemLines (items : List String) :
    items.length ≤ (Written.itemLines items).length := by
  induction items with
  | nil => exact Nat.zero_le _
  | cons s items ih =>
    rw [itemLines_cons]
    simp only [List.length_append, List.length_cons]
    omega

/-- A list of strings is read back. -/
theorem scanValue?_strings (fuel limit : Nat) (items : List String) (rest : List Char)
    (hf : (Written.strings items).chars.length + 1 ≤ fuel) :
    scanValue? fuel (limit + 1) ((Written.strings items).chars ++ rest) =
      some (.array (items.map Value.string), rest) := by
  match items with
  | [] =>
    obtain ⟨fuel, rfl⟩ : ∃ k, fuel = k + 1 := ⟨fuel - 1, by omega⟩
    show scanValue? (fuel + 1) (limit + 1) ('[' :: ']' :: rest) = _
    rw [scanValue?.eq_4 _ fuel (']' :: rest) limit (skipGap_cons rfl _),
      skipLines_cons (by decide)]
    rfl
  | [s] =>
    obtain ⟨fuel, rfl⟩ : ∃ k, fuel = k + 3 := by
      refine ⟨fuel - 3, ?_⟩
      simp [Written.chars] at hf
      omega
    obtain ⟨q, cs, hcs, hq⟩ := Quoted.chars_cons s
    obtain ⟨hstart, hclose⟩ := startsToken_of_quote hq
    have hitems := scanItems?_single fuel limit s rest
    show scanValue? (fuel + 2 + 1) (limit + 1) ('[' :: (Quoted.chars s ++ [']'] ++ rest)) = _
    rw [List.append_assoc, List.singleton_append]
    rw [hcs, List.cons_append] at hitems ⊢
    rw [scanValue?_bracket (fuel + 2) limit (skipLines_cons hstart _ _) hclose, hitems]
    rfl
  | s :: t :: items =>
    obtain ⟨fuel, rfl⟩ : ∃ k, fuel = k + 1 := ⟨fuel - 1, by omega⟩
    have hlength := length_le_itemLines (s :: t :: items)
    have hitems := scanItems?_lines limit s (t :: items) rest fuel (by
      simp only [Written.chars, List.length_cons, List.length_append] at hf hlength ⊢
      omega)
    obtain ⟨q, cs, hcs, hq, hskip⟩ := skipLines_itemLines s (t :: items) (']' :: rest)
    show scanValue? (fuel + 1) (limit + 1)
      ('[' :: '\n' :: (Written.itemLines (s :: t :: items) ++ [']'] ++ rest)) = _
    rw [List.append_assoc, List.singleton_append, scanValue?_bracket fuel limit hskip hq, ← hcs,
      hitems]
    rfl

/-! ## Any of them -/

/-- **A value is read back from its text**, if nothing follows that adds to it. -/
theorem scanValue?_chars (v : Written) (fuel limit : Nat) {rest : List Char}
    (hs : EndsString rest) (hn : EndsNumber rest) (hf : v.chars.length + 1 ≤ fuel) :
    scanValue? fuel (limit + 1) (v.chars ++ rest) = some (v.value, rest) := by
  obtain ⟨fuel, rfl⟩ : ∃ k, fuel = k + 1 := ⟨fuel - 1, by omega⟩
  cases v with
  | string s => exact scanValue?_quoted fuel (limit + 1) s hs
  | integer n =>
    have hscan := scanScalar?_ofInt n hn
    obtain ⟨c, cs, hc, hstart⟩ := ofInt_cons n.toInt
    have hscalar : c ∉ ['"', '\x27', '[', '{', ' ', '\t'] := by
      have hdigit : ∀ d : Digit, d.toChar ∉ ['"', '\x27', '[', '{', ' ', '\t'] := by decide
      rcases hstart with rfl | ⟨d, rfl⟩
      · decide
      · exact hdigit d
    show scanValue? (fuel + 1) (limit + 1) (Numeral.ofInt n.toInt ++ rest) = _
    rw [hc, List.cons_append] at hscan ⊢
    rw [scanValue?_scalar hscalar, hscan]
    rfl
  | boolean b =>
    have hscan := scanScalar?_boolean b rest
    cases b with
    | true => exact (scanValue?_scalar (by decide) fuel (limit + 1) _).trans hscan
    | false => exact (scanValue?_scalar (by decide) fuel (limit + 1) _).trans hscan
  | strings items => exact scanValue?_strings (fuel + 1) limit items rest hf

end Toml

end RpcDaemon
