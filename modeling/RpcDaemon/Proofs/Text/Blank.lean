import RpcDaemon.Text.Blank

/-!
# Trimming, words and first separators

What trimming leaves of a text whose ends are known, how a text falls into words at its blanks, what
stands before and after the first separator, and when two texts are the same up to case.
-/

namespace RpcDaemon

namespace Chars

/-- No blank stands in the text. -/
def Unbroken (cs : List Char) : Prop := ∀ c ∈ cs, isBlank c = false

instance (cs : List Char) : Decidable (Unbroken cs) :=
  List.decidableBAll (fun c => isBlank c = false) cs

/-- A check of each character of a text. -/
theorem forall_of_all {p : Char → Prop} [DecidablePred p] {cs : List Char}
    (h : cs.all (fun c => decide (p c)) = true) : ∀ c ∈ cs, p c := fun c hc =>
  of_decide_eq_true (List.all_eq_true.mp h c hc)

/-! ## Trimming -/

/-- Nothing is dropped from a text whose last character is kept. -/
theorem trimEndWhile_of_last {p : Char → Bool} {cs : List Char}
    (h : ∀ c, cs.getLast? = some c → p c = false) : trimEndWhile p cs = cs := by
  unfold trimEndWhile
  cases hr : cs.reverse with
  | nil =>
    rw [List.reverse_eq_nil_iff] at hr
    rw [hr]
    rfl
  | cons c rest =>
    have hlast : cs.getLast? = some c := by
      rw [← List.head?_reverse, hr]
      rfl
    rw [List.dropWhile_cons_of_neg (by simp [h c hlast]), ← hr, List.reverse_reverse]

/-- Nothing is dropped from a text all of whose characters are kept. -/
theorem trimEndWhile_of_forall {p : Char → Bool} {cs : List Char} (h : ∀ c ∈ cs, p c = false) :
    trimEndWhile p cs = cs :=
  trimEndWhile_of_last fun c hc => h c (List.mem_of_getLast? hc)

/-- The last character of what is left is kept. -/
theorem last_trimEndWhile {p : Char → Bool} {cs : List Char} {c : Char}
    (h : (trimEndWhile p cs).getLast? = some c) : p c = false := by
  unfold trimEndWhile at h
  rw [List.getLast?_reverse] at h
  have hhead := List.head?_dropWhile_not p cs.reverse
  rw [h] at hhead
  exact hhead

/-- What is dropped anyway at the end of a text makes no difference. -/
theorem trimEndWhile_append {p : Char → Bool} (cs : List Char) {tail : List Char}
    (h : tail.all p = true) : trimEndWhile p (cs ++ tail) = trimEndWhile p cs := by
  unfold trimEndWhile
  rw [List.reverse_append, List.dropWhile_append_of_pos]
  intro c hc
  exact List.all_eq_true.mp h c (List.mem_reverse.mp hc)

/-- A first character that is kept stays at the front. -/
theorem trimEndWhile_cons (p : Char → Bool) {c : Char} (h : p c = false) (cs : List Char) :
    ∃ cs', trimEndWhile p (c :: cs) = c :: cs' := by
  unfold trimEndWhile
  rw [List.reverse_cons, List.dropWhile_append]
  split
  · exact ⟨[], by rw [List.dropWhile_cons_of_neg (by simp [h])]; rfl⟩
  · exact ⟨(cs.reverse.dropWhile p).reverse, by rw [List.reverse_append]; rfl⟩

/-- A blank at the front makes no difference. -/
theorem trim_cons_blank {c : Char} (h : isBlank c = true) (cs : List Char) :
    trim (c :: cs) = trim cs := by
  unfold trim
  rw [List.dropWhile_cons_of_pos h]

/-- A text that neither starts nor ends with a blank is left as it is. -/
theorem trim_of_ends {cs : List Char} (hhead : ∀ c, cs.head? = some c → isBlank c = false)
    (hlast : ∀ c, cs.getLast? = some c → isBlank c = false) : trim cs = cs := by
  unfold trim
  cases cs with
  | nil => rfl
  | cons c cs =>
    rw [List.dropWhile_cons_of_neg (by simp [hhead c rfl])]
    exact trimEndWhile_of_last hlast

/-- A text without blanks is left as it is. -/
theorem trim_of_unbroken {cs : List Char} (h : Unbroken cs) : trim cs = cs :=
  trim_of_ends (fun c hc => h c (List.mem_of_head? hc)) fun c hc => h c (List.mem_of_getLast? hc)

/-- A character that is kept stays when those before it are dropped. -/
theorem mem_dropWhile {p : Char → Bool} {c : Char} {cs : List Char} (hc : c ∈ cs)
    (h : p c = false) : c ∈ cs.dropWhile p := by
  induction cs with
  | nil => exact hc
  | cons d cs ih =>
    by_cases hd : p d = true
    · rw [List.dropWhile_cons_of_pos hd]
      rcases List.mem_cons.mp hc with rfl | hc
      · rw [hd] at h
        cases h
      · exact ih hc
    · rw [List.dropWhile_cons_of_neg hd]
      exact hc

/-- A character that is no blank is left by trimming. -/
theorem mem_trim {c : Char} {cs : List Char} (hc : c ∈ cs) (h : isBlank c = false) :
    c ∈ trim cs := by
  unfold trim trimEndWhile
  exact List.mem_reverse.mpr (mem_dropWhile (List.mem_reverse.mpr (mem_dropWhile hc h)) h)

/-- Blanks at either end make no difference. -/
theorem trim_append_blanks {before after : List Char} (hbefore : ∀ c ∈ before, isBlank c = true)
    (hafter : ∀ c ∈ after, isBlank c = true) (cs : List Char) :
    trim (before ++ (cs ++ after)) = trim cs := by
  unfold trim
  rw [List.dropWhile_append_of_pos hbefore, List.dropWhile_append]
  split
  · rename_i hblank
    have hnil : (after ++ []).dropWhile isBlank = [] := List.dropWhile_append_of_pos hafter
    rw [List.append_nil] at hnil
    rw [List.isEmpty_iff.mp hblank, hnil]
  · exact trimEndWhile_append _ (List.all_eq_true.mpr hafter)

/-- What is dropped at the end of a text. -/
theorem exists_of_trimEndWhile (p : Char → Bool) (cs : List Char) :
    ∃ tail, (∀ c ∈ tail, p c = true) ∧ cs = trimEndWhile p cs ++ tail := by
  refine ⟨(cs.reverse.takeWhile p).reverse, ?_, ?_⟩
  · intro c hc
    exact List.all_eq_true.mp List.all_takeWhile c (List.mem_reverse.mp hc)
  · rw [trimEndWhile, ← List.reverse_append, List.takeWhile_append_dropWhile, List.reverse_reverse]

/-- A text is what trimming leaves, with blanks at either end. -/
theorem exists_blanks_of_trim (cs : List Char) :
    ∃ before after, (∀ c ∈ before, isBlank c = true) ∧ (∀ c ∈ after, isBlank c = true) ∧
      cs = before ++ (trim cs ++ after) := by
  obtain ⟨after, hafter, hend⟩ := exists_of_trimEndWhile isBlank (cs.dropWhile isBlank)
  refine ⟨cs.takeWhile isBlank, after, List.all_eq_true.mp List.all_takeWhile, hafter, ?_⟩
  rw [trim, ← hend, List.takeWhile_append_dropWhile]

/-- What is left by trimming stood there before. -/
theorem trim_subset (cs : List Char) : trim cs ⊆ cs := by
  intro c hc
  have hc := List.mem_reverse.mp hc
  have hc := List.mem_reverse.mp ((List.dropWhile_suffix isBlank).subset hc)
  exact (List.dropWhile_suffix isBlank).subset hc

/-- A text that is trimmed is left as it is. -/
theorem trim_trim (cs : List Char) : trim (trim cs) = trim cs := by
  obtain ⟨before, after, hbefore, hafter, hcs⟩ := exists_blanks_of_trim cs
  have htrim := trim_append_blanks hbefore hafter (trim cs)
  rw [← hcs] at htrim
  exact htrim.symm

/-- Trimming leaves nothing exactly of a text of blanks. -/
theorem trim_eq_nil_iff {cs : List Char} : trim cs = [] ↔ ∀ c ∈ cs, isBlank c = true := by
  constructor
  · intro h c hc
    cases hblank : isBlank c with
    | true => rfl
    | false =>
      have hmem := mem_trim hc hblank
      rw [h] at hmem
      cases hmem
  · intro h
    have hdrop := trim_append_blanks h (List.forall_mem_nil _) []
    rwa [List.nil_append, List.append_nil] at hdrop

/-! ## Words -/

/-- Characters that are not blank join the word that is being read. -/
theorem wordsFrom_append (word : List Char) {w : List Char} (h : Unbroken w)
    (rest : List Char) : wordsFrom word (w ++ rest) = wordsFrom (w.reverse ++ word) rest := by
  induction w generalizing word with
  | nil => rfl
  | cons c w ih =>
    rw [List.cons_append, wordsFrom, if_neg (by simp [h c List.mem_cons_self]),
      ih (c :: word) fun d hd => h d (List.mem_cons_of_mem c hd), List.reverse_cons,
      List.append_assoc]
    rfl

/-- A word that ends at a blank is the first of the words. -/
theorem words_append_blank {w : List Char} (hw : w ≠ []) (h : Unbroken w) {b : Char}
    (hb : isBlank b = true) (rest : List Char) : words (w ++ b :: rest) = w :: words rest := by
  unfold words
  rw [wordsFrom_append [] h, List.append_nil, wordsFrom, if_pos hb, if_neg (by simp [hw]),
    List.reverse_reverse]

/-- A text without blanks is one word. -/
theorem words_of_unbroken {w : List Char} (hw : w ≠ []) (h : Unbroken w) :
    words w = [w] := by
  have hfrom := wordsFrom_append [] h []
  rw [List.append_nil, List.append_nil] at hfrom
  unfold words
  rw [hfrom, wordsFrom, if_neg (by simp [hw]), List.reverse_reverse]

/-- A word that is being read is the beginning of the first word. -/
theorem wordsFrom_of_ne_nil {word : List Char} (hw : word ≠ []) (cs : List Char) :
    ∃ w ws, wordsFrom word cs = (word.reverse ++ w) :: ws := by
  induction cs generalizing word with
  | nil => exact ⟨[], [], by rw [wordsFrom, if_neg (by simp [hw]), List.append_nil]⟩
  | cons c cs ih =>
    rw [wordsFrom]
    by_cases hc : isBlank c = true
    · exact ⟨[], wordsFrom [] cs, by rw [if_pos hc, if_neg (by simp [hw]), List.append_nil]⟩
    · obtain ⟨w, ws, h⟩ := ih (List.cons_ne_nil c word)
      exact ⟨c :: w, ws, by rw [if_neg hc, h, List.reverse_cons, List.append_assoc]; rfl⟩

/-- A text that starts without a blank has its first character at the front of its first word. -/
theorem words_cons {c : Char} (h : isBlank c = false) (cs : List Char) :
    ∃ w ws, words (c :: cs) = (c :: w) :: ws := by
  obtain ⟨w, ws, hw⟩ := wordsFrom_of_ne_nil (List.cons_ne_nil c []) cs
  exact ⟨w, ws, by rw [words, wordsFrom, if_neg (by simp [h]), hw]; rfl⟩

/-! ## Parts of a text -/

/-- A text is split at the first separator. -/
theorem splitFirst?_append {sep : Char} {a : List Char} (h : sep ∉ a) (b : List Char) :
    splitFirst? sep (a ++ sep :: b) = some (a, b) := by
  induction a with
  | nil => rw [List.nil_append, splitFirst?, if_pos rfl]
  | cons c a ih =>
    have hc : c ≠ sep := fun heq => h (heq ▸ List.mem_cons_self)
    rw [List.cons_append, splitFirst?, if_neg hc, ih fun hm => h (List.mem_cons_of_mem c hm)]
    rfl

/-- A text is split into what stands before and after its first separator, and only so. -/
theorem splitFirst?_eq_some_iff {sep : Char} {cs a b : List Char} :
    splitFirst? sep cs = some (a, b) ↔ sep ∉ a ∧ cs = a ++ sep :: b := by
  constructor
  · intro h
    induction cs generalizing a with
    | nil => cases h
    | cons c cs ih =>
      rw [splitFirst?] at h
      split at h
      · rename_i hc
        cases h
        exact ⟨List.not_mem_nil, by rw [hc]; rfl⟩
      · rename_i hc
        obtain ⟨⟨a', b'⟩, hrest, heq⟩ := Option.map_eq_some_iff.mp h
        cases heq
        obtain ⟨hnot, rfl⟩ := ih hrest
        refine ⟨fun hm => ?_, rfl⟩
        rcases List.mem_cons.mp hm with hsep | hm
        · exact hc hsep.symm
        · exact hnot hm
  · rintro ⟨hnot, rfl⟩
    exact splitFirst?_append hnot b

/-- A text is not split exactly if no separator stands in it. -/
theorem splitFirst?_eq_none_iff {sep : Char} {cs : List Char} :
    splitFirst? sep cs = none ↔ sep ∉ cs := by
  constructor
  · intro h hmem
    obtain ⟨a, b, rfl, ha⟩ := List.eq_append_cons_of_mem hmem
    rw [splitFirst?_append ha] at h
    cases h
  · intro h
    cases hsplit : splitFirst? sep cs with
    | none => rfl
    | some parts =>
      obtain ⟨-, rfl⟩ := splitFirst?_eq_some_iff.mp hsplit
      exact absurd (List.mem_append_right _ List.mem_cons_self) h

/-- What follows a head is what was put after it. -/
theorem dropHead?_append (head rest : List Char) : dropHead? head (head ++ rest) = some rest := by
  induction head with
  | nil => exact dropHead?.eq_1 rest
  | cons c head ih => rw [List.cons_append, dropHead?, if_pos rfl, ih]

/-- A text has something behind a head exactly if the two make it up. -/
theorem dropHead?_eq_some_iff {head cs rest : List Char} :
    dropHead? head cs = some rest ↔ cs = head ++ rest := by
  constructor
  · intro h
    induction head generalizing cs with
    | nil =>
      rw [dropHead?.eq_1] at h
      exact Option.some.inj h
    | cons c head ih =>
      cases cs with
      | nil => cases h
      | cons d cs =>
        rw [dropHead?] at h
        split at h
        · rename_i hcd
          rw [hcd, ih h]
          rfl
        · cases h
  · rintro rfl
    exact dropHead?_append head rest

/-- What follows a mark at the front is what was put after it. -/
theorem after?_append (mark rest : List Char) : after? mark (mark ++ rest) = some rest := by
  rw [after?.eq_def, dropHead?_append]

/-- A mark is found in a text exactly if it stands in it. -/
theorem isSome_after?_iff {mark cs : List Char} :
    (after? mark cs).isSome = true ↔ mark <:+: cs := by
  have hhead : ∀ cs, mark <+: cs ↔ ∃ rest, dropHead? mark cs = some rest := by
    intro cs
    simp only [dropHead?_eq_some_iff]
    exact ⟨fun ⟨rest, h⟩ => ⟨rest, h.symm⟩, fun ⟨rest, h⟩ => ⟨rest, h.symm⟩⟩
  induction cs with
  | nil =>
    rw [after?.eq_def, List.infix_nil, ← List.prefix_nil, hhead []]
    cases dropHead? mark [] <;> simp
  | cons c cs ih =>
    rw [after?.eq_def, List.infix_cons_iff, hhead (c :: cs)]
    cases dropHead? mark (c :: cs) with
    | some rest => simp
    | none => simpa using ih

/-! ## Case -/

/-- A character in lower case: a capital letter becomes a small one, any other stays. -/
theorem toLower_cases (c : Char) :
    (65 ≤ c.toNat ∧ c.toNat ≤ 90 ∧ c.toLower.toNat = c.toNat + 32) ∨ c.toLower = c := by
  unfold Char.toLower
  split
  · rename_i h
    have h65 : 65 ≤ c.toNat := h.1
    have h90 : c.toNat ≤ 90 := h.2
    refine Or.inl ⟨h65, h90, ?_⟩
    show (c.val + ('a'.val - 'A'.val)).toNat = c.toNat + 32
    rw [UInt32.toNat_add, show ('a'.val - 'A'.val).toNat = 32 from rfl]
    show (c.toNat + 32) % 4294967296 = c.toNat + 32
    omega
  · exact Or.inr rfl

theorem toLower_toLower (c : Char) : c.toLower.toLower = c.toLower := by
  rcases toLower_cases c with ⟨h65, -, hlow⟩ | hsame
  · rcases toLower_cases c.toLower with ⟨-, h90, -⟩ | hsame
    · omega
    · exact hsame
  · rw [hsame, hsame]

/-- A letter is no blank, in either case. -/
theorem isBlank_toLower (c : Char) : isBlank c.toLower = isBlank c := by
  have hletter : ∀ d : Char, 65 ≤ d.toNat → d.toNat ≤ 122 → isBlank d = false := by
    intro d h65 h122
    simp only [isBlank, Bool.or_eq_false_iff, Bool.and_eq_false_iff, decide_eq_false_iff_not,
      beq_eq_false_iff_ne]
    omega
  rcases toLower_cases c with ⟨h65, h90, hlow⟩ | hsame
  · rw [hletter c h65 (by omega), hletter c.toLower (by omega) (by omega)]
  · rw [hsame]

theorem lower_lower (cs : List Char) : lower (lower cs) = lower cs := by
  rw [lower, lower, List.map_map]
  exact List.map_congr_left fun c _ => toLower_toLower c

/-- Blanks at the ends are the same in either case of the letters. -/
theorem trim_lower (cs : List Char) : trim (lower cs) = lower (trim cs) := by
  have hblank : isBlank ∘ Char.toLower = isBlank := funext isBlank_toLower
  rw [trim, trim, lower, lower, trimEndWhile, trimEndWhile, List.dropWhile_map, hblank,
    ← List.map_reverse, List.dropWhile_map, hblank, List.map_reverse]

end Chars

/-- A text in lower case is what a text is turned into exactly if the two are the same up to case. -/
theorem lowered_eq_iff {s t : String} (ht : Chars.lower t.toList = t.toList) :
    lowered s = t ↔ sameIgnoringCase s t = true := by
  unfold lowered sameIgnoringCase
  rw [ht, beq_iff_eq]
  constructor
  · rintro rfl
    rw [String.toList_ofList]
  · intro h
    rw [h, String.ofList_toList]

end RpcDaemon
