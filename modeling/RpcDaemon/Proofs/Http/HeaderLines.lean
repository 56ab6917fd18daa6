import Mathlib.Data.Finset.Card
import Mathlib.Data.List.Induction
import RpcDaemon.Proofs.Http.Lines

/-!
# What header lines give

A line gives a header if it has a colon: the name stands before the first one, the value behind it.
Of several lines that give a header of one name the last one counts, so the headers of a head are
found under exactly the names that its lines give. Main statements: `lookup_headersOf_eq_some_iff`
and `length_headersOf`.
-/

namespace RpcDaemon

namespace Http

variable {lines : List (List UInt8)} {line : List UInt8} {name k v value : String} {n : Nat}
  {headers : List (String × String)}

/-- The line gives a header called `name`, in any case of the letters and with blanks around it. -/
def Gives (line : List UInt8) (name value : String) : Prop :=
  ∃ key content, lineText line = key ++ ':' :: content ∧ ':' ∉ key ∧
    Chars.lower (Chars.trim key) = Chars.lower name.toList ∧
    value = String.ofList (Chars.trim content)

/-- The last of the lines that give a header called `name` gives the value. -/
def LastGives (lines : List (List UInt8)) (name value : String) : Prop :=
  ∃ before line after, lines = before ++ line :: after ∧ Gives line name value ∧
    ∀ later ∈ after, ∀ v, ¬ Gives later name v

/-- The header that a line gives, its name in lower case. -/
def headerOf? (line : List UInt8) : Option (String × String) :=
  (Chars.splitFirst? ':' (lineText line)).map fun p =>
    (String.ofList (Chars.lower (Chars.trim p.1)), String.ofList (Chars.trim p.2))

/-- The names, in lower case, that the lines give headers for. -/
def headerNames (lines : List (List UInt8)) : Finset String :=
  (lines.filterMap fun line => (headerOf? line).map Prod.fst).toFinset

/-- The headers that are read off the lines. -/
def headersOf (lines : List (List UInt8)) : List (String × String) :=
  lines.foldl (fun headers line => addHeader headers (lineText line)) []

/-! ## A single line -/

/-- The header of a line is that which it gives. -/
theorem headerOf?_eq_some_iff :
    headerOf? line = some (lowered name, value) ↔ Gives line name value := by
  rw [headerOf?, Option.map_eq_some_iff]
  constructor
  · rintro ⟨⟨key, content⟩, hsplit, heq⟩
    obtain ⟨hkey, htext⟩ := Chars.splitFirst?_eq_some_iff.mp hsplit
    obtain ⟨hname, hvalue⟩ := Prod.mk.inj heq
    exact ⟨key, content, htext, hkey, String.ofList_injective hname, hvalue.symm⟩
  · rintro ⟨key, content, htext, hkey, hname, rfl⟩
    refine ⟨(key, content), Chars.splitFirst?_eq_some_iff.mpr ⟨hkey, htext⟩, ?_⟩
    rw [hname]
    rfl

/-- The name of a header that a line gives is trimmed and in lower case, its value is trimmed. -/
theorem trimmed_of_headerOf? (h : headerOf? line = some (k, v)) :
    lowered (trimmed k) = k ∧ trimmed v = v := by
  obtain ⟨⟨key, content⟩, -, heq⟩ := Option.map_eq_some_iff.mp h
  obtain ⟨rfl, rfl⟩ := Prod.mk.inj heq
  simp only [lowered, trimmed, String.toList_ofList]
  rw [Chars.trim_lower, Chars.trim_trim, Chars.lower_lower, Chars.trim_trim]
  exact ⟨rfl, rfl⟩

/-- A line puts the header that it gives over the others. -/
theorem addHeader_lineText (headers : List (String × String)) (line : List UInt8) :
    addHeader headers (lineText line) =
      match headerOf? line with
      | some (k, v) => putHeader k v headers
      | none => headers := by
  rw [addHeader, headerOf?]
  cases Chars.splitFirst? ':' (lineText line) <;> rfl

/-! ## Headers by their names -/

/-- The first header is found under its name. -/
theorem lookup_cons_eq (name value k : String) (headers : List (String × String)) :
    ((name, value) :: headers).lookup k = if k = name then some value else headers.lookup k := by
  rw [List.lookup_cons]
  by_cases hk : k = name
  · rw [if_pos hk, beq_iff_eq.mpr hk]
  · rw [if_neg hk, beq_false_of_ne hk]

/-- A header that is put is found under its name, and others as before. -/
theorem lookup_putHeader (name value k : String) (headers : List (String × String)) :
    (putHeader name value headers).lookup k =
      if k = name then some value else headers.lookup k := by
  induction headers with
  | nil => exact lookup_cons_eq name value k []
  | cons h headers ih =>
    obtain ⟨k', v'⟩ := h
    rw [putHeader]
    by_cases hname : k' = name
    · rw [if_pos hname, lookup_cons_eq, lookup_cons_eq, hname]
      split <;> rfl
    · rw [if_neg hname, lookup_cons_eq, lookup_cons_eq, ih]
      by_cases hk : k = k'
      · rw [if_pos hk, if_pos hk, if_neg (hk ▸ hname)]
      · rw [if_neg hk, if_neg hk]

/-- A header that is put stays, and so do those of other names. -/
theorem mem_of_mem_putHeader {h : String × String} (hm : h ∈ putHeader name value headers) :
    h = (name, value) ∨ h ∈ headers := by
  induction headers with
  | nil => exact Or.inl (List.mem_singleton.mp hm)
  | cons p headers ih =>
    obtain ⟨k, v⟩ := p
    rw [putHeader] at hm
    split at hm
    · rcases List.mem_cons.mp hm with hm | hm
      · exact Or.inl hm
      · exact Or.inr (List.mem_cons_of_mem _ hm)
    · rcases List.mem_cons.mp hm with hm | hm
      · exact Or.inr (hm ▸ List.mem_cons_self)
      · exact (ih hm).imp id (List.mem_cons_of_mem _)

/-- The names of the headers after one is put. -/
theorem map_fst_putHeader (name value : String) (headers : List (String × String)) :
    (putHeader name value headers).map Prod.fst =
      if name ∈ headers.map Prod.fst then headers.map Prod.fst
      else headers.map Prod.fst ++ [name] := by
  induction headers with
  | nil => rfl
  | cons h headers ih =>
    obtain ⟨k, v⟩ := h
    rw [putHeader]
    by_cases hk : k = name
    · simp [hk]
    · rw [if_neg hk, List.map_cons, ih, List.map_cons]
      by_cases hm : name ∈ headers.map Prod.fst
      · simp [hm]
      · simp [hm, Ne.symm hk]

/-! ## Several lines -/

/-- The last line is read after the others. -/
theorem headersOf_concat (lines : List (List UInt8)) (line : List UInt8) :
    headersOf (lines ++ [line]) = addHeader (headersOf lines) (lineText line) := by
  rw [headersOf, List.foldl_append]
  rfl

theorem headerNames_concat (lines : List (List UInt8)) (line : List UInt8) :
    headerNames (lines ++ [line]) =
      headerNames lines ∪ ((headerOf? line).map Prod.fst).toList.toFinset := by
  unfold headerNames
  rw [List.filterMap_append, List.toFinset_append, List.filterMap_cons, List.filterMap_nil]
  cases headerOf? line <;> rfl

/-- The last line counts if it gives a header of the name, and the others if it gives none. -/
theorem lastGives_concat_iff :
    LastGives (lines ++ [line]) name value ↔
      Gives line name value ∨ (∀ v, ¬ Gives line name v) ∧ LastGives lines name value := by
  constructor
  · rintro ⟨before, given, after, hlines, hgives, hlater⟩
    rcases List.eq_nil_or_concat after with rfl | ⟨after, last, rfl⟩
    · obtain ⟨-, hline⟩ := List.append_inj' hlines rfl
      exact Or.inl ((List.cons.inj hline).1 ▸ hgives)
    · rw [List.concat_eq_append] at hlines hlater
      rw [← List.cons_append, ← List.append_assoc] at hlines
      obtain ⟨rfl, hline⟩ := List.append_inj' hlines rfl
      obtain rfl := (List.cons.inj hline).1
      refine Or.inr ⟨hlater line (by simp), before, given, after, rfl, hgives, ?_⟩
      exact fun later hm => hlater later (List.mem_append_left _ hm)
  · rintro (hgives | ⟨hnone, before, given, after, rfl, hgives, hlater⟩)
    · exact ⟨lines, line, [], rfl, hgives, fun later hm => by cases hm⟩
    · refine ⟨before, given, after ++ [line], by simp, hgives, ?_⟩
      intro later hm
      rcases List.mem_append.mp hm with hm | hm
      · exact hlater later hm
      · rw [List.mem_singleton.mp hm]
        exact hnone

/-- **A header is looked up as the last line of its name gives it.** -/
theorem lookup_headersOf_eq_some_iff :
    (headersOf lines).lookup (lowered name) = some value ↔ LastGives lines name value := by
  induction lines using List.reverseRecOn with
  | nil =>
    constructor
    · intro h
      cases h
    · rintro ⟨before, line, after, hlines, -⟩
      simp at hlines
  | append_singleton lines line ih =>
    rw [headersOf_concat, addHeader_lineText, lastGives_concat_iff, ← ih]
    simp only [← headerOf?_eq_some_iff]
    cases headerOf? line with
    | none => simp
    | some h =>
      obtain ⟨k, v⟩ := h
      dsimp only
      rw [lookup_putHeader]
      by_cases hk : lowered name = k
      · simp [hk]
      · simp [hk, Ne.symm hk]

/-- A header is not found exactly if no line gives one of its name. -/
theorem lookup_headersOf_eq_none_iff :
    (headersOf lines).lookup (lowered name) = none ↔
      ∀ line ∈ lines, ∀ v, ¬ Gives line name v := by
  induction lines using List.reverseRecOn with
  | nil => simp [headersOf]
  | append_singleton lines line ih =>
    rw [headersOf_concat, addHeader_lineText, List.forall_mem_append, ← ih,
      List.forall_mem_singleton]
    simp only [← headerOf?_eq_some_iff]
    cases headerOf? line with
    | none =>
      refine (and_iff_left ?_).symm
      intro v h
      cases h
    | some h =>
      obtain ⟨k, v⟩ := h
      dsimp only
      rw [lookup_putHeader]
      by_cases hk : lowered name = k
      · rw [if_pos hk, hk]
        constructor
        · intro h
          cases h
        · intro h
          exact absurd rfl (h.2 v)
      · rw [if_neg hk]
        refine (and_iff_left ?_).symm
        intro v' h
        exact hk (Prod.mk.inj (Option.some.inj h)).1.symm

/-- Every header comes from a line. -/
theorem exists_of_mem_headersOf (h : (k, v) ∈ headersOf lines) :
    ∃ line ∈ lines, headerOf? line = some (k, v) := by
  induction lines using List.reverseRecOn with
  | nil => cases h
  | append_singleton lines line ih =>
    have hearlier : (k, v) ∈ headersOf lines →
        ∃ line' ∈ lines ++ [line], headerOf? line' = some (k, v) := by
      intro hm
      obtain ⟨line', hline', hgives⟩ := ih hm
      exact ⟨line', List.mem_append_left _ hline', hgives⟩
    rw [headersOf_concat, addHeader_lineText] at h
    split at h
    · rename_i k' v' hgives
      rcases mem_of_mem_putHeader h with heq | hm
      · exact ⟨line, by simp, heq ▸ hgives⟩
      · exact hearlier hm
    · exact hearlier h

/-- No two headers have one name, and the names are those that the lines give. -/
theorem names_headersOf (lines : List (List UInt8)) :
    ((headersOf lines).map Prod.fst).Nodup ∧
      ((headersOf lines).map Prod.fst).toFinset = headerNames lines := by
  induction lines using List.reverseRecOn with
  | nil => exact ⟨List.nodup_nil, rfl⟩
  | append_singleton lines line ih =>
    obtain ⟨hnodup, hnames⟩ := ih
    rw [headersOf_concat, addHeader_lineText, headerNames_concat, ← hnames]
    cases headerOf? line with
    | none => exact ⟨hnodup, by simp⟩
    | some h =>
      obtain ⟨k, v⟩ := h
      dsimp only
      rw [map_fst_putHeader]
      split
      · rename_i hk
        refine ⟨hnodup, ?_⟩
        ext name
        simp only [Option.map_some, Option.toList_some, Finset.mem_union, List.mem_toFinset,
          List.mem_singleton]
        exact ⟨Or.inl, fun hm => hm.elim id fun heq => heq ▸ hk⟩
      · rename_i hk
        refine ⟨?_, by simp⟩
        rw [List.nodup_append]
        refine ⟨hnodup, List.nodup_singleton k, ?_⟩
        intro name hname other hother heq
        exact hk (List.mem_singleton.mp hother ▸ heq ▸ hname)

/-- **There are as many headers as names that the lines give.** -/
theorem length_headersOf (lines : List (List UInt8)) :
    (headersOf lines).length = (headerNames lines).card := by
  obtain ⟨hnodup, hnames⟩ := names_headersOf lines
  rw [← hnames, List.toFinset_card_of_nodup hnodup, List.length_map]

/-- Further lines take no names away. -/
theorem headerNames_mono {lines lines' : List (List UInt8)} (h : lines <+: lines') :
    headerNames lines ⊆ headerNames lines' := by
  obtain ⟨more, rfl⟩ := h
  intro name hname
  unfold headerNames at hname ⊢
  rw [List.filterMap_append, List.toFinset_append]
  exact Finset.mem_union_left _ hname

/-- A line gives one name at most. -/
theorem card_headerNames_concat_le (lines : List (List UInt8)) (line : List UInt8) :
    (headerNames (lines ++ [line])).card ≤ (headerNames lines).card + 1 := by
  rw [headerNames_concat]
  refine (Finset.card_union_le _ _).trans (Nat.add_le_add_left ?_ _)
  cases headerOf? line <;> simp

/-! ## The announced length -/

/-- The lines announce a body of `n` bytes: the last one with a length says so, or there is none. -/
def Announces (lines : List (List UInt8)) (n : Nat) : Prop :=
  (∃ value, LastGives lines "Content-Length" value ∧ Numeral.Writes value.toList n) ∨
    (∀ line ∈ lines, ∀ value, ¬ Gives line "Content-Length" value) ∧ n = 0

/-- **The length of the body is what the lines announce**, if it fits a word. -/
theorem bodyLength_headersOf_eq_ok_iff :
    bodyLength (headersOf lines) = .ok n ↔ Announces lines n ∧ n < 18446744073709551616 := by
  have hname : lowered "Content-Length" = "content-length" := by decide
  unfold bodyLength Announces
  simp only [← lookup_headersOf_eq_some_iff, ← lookup_headersOf_eq_none_iff, hname]
  cases hlookup : (headersOf lines).lookup "content-length" with
  | none =>
    constructor
    · intro h
      cases h
      exact ⟨Or.inr ⟨rfl, rfl⟩, by decide⟩
    · rintro ⟨⟨value, hvalue, -⟩ | ⟨-, rfl⟩, -⟩
      · cases hvalue
      · rfl
  | some value =>
    have hread : Numeral.unsigned? 18446744073709551616 value.toList = some n ↔
        Numeral.Writes value.toList n ∧ n < 18446744073709551616 := Numeral.unsigned?_eq_some_iff
    dsimp only
    constructor
    · intro h
      split at h
      · rename_i m hm
        cases h
        obtain ⟨hwrites, hn⟩ := hread.mp hm
        exact ⟨Or.inl ⟨value, rfl, hwrites⟩, hn⟩
      · cases h
    · rintro ⟨⟨value', hvalue, hwrites⟩ | ⟨hvalue, -⟩, hn⟩
      · cases hvalue
        rw [hread.mpr ⟨hwrites, hn⟩]
      · cases hvalue

end Http

end RpcDaemon
