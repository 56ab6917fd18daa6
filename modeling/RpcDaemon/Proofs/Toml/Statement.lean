import RpcDaemon.Proofs.Toml.Value

/-!
# TOML statements read back

A field on its line is read as a pair, a header on its line as a header, and empty lines and comments
as nothing, whatever lines follow. A comment that holds a character which may not stand there makes
a text unreadable. Main statements: `reads_fieldLine`, `reads_headerLine`, `Idle.reads` and
`scanStatements?_of_not_isComment`.
-/

namespace RpcDaemon

namespace Toml

/-! ## Keys -/

/-- A key that needs no quotes. -/
def IsBare (key : String) : Prop :=
  key.toList ≠ [] ∧ ∀ c ∈ key.toList, isKeyChar c = true

instance (key : String) : Decidable (IsBare key) :=
  decidable_of_iff (key.toList ≠ [] ∧ key.toList.all isKeyChar = true)
    (and_congr Iff.rfl List.all_eq_true)

/-- A character of a key starts a token that is neither a quote nor a bracket. -/
theorem ne_of_isKeyChar {c : Char} (h : isKeyChar c = true) :
    StartsToken c ∧ c ∉ ['"', '\x27', '['] := by
  have hmarks : ∀ m ∈ [' ', '\t', '\n', '\r', '#', '"', '\x27', '['], isKeyChar m = false :=
    Chars.forall_of_all (by decide)
  have hne : ∀ m ∈ [' ', '\t', '\n', '\r', '#', '"', '\x27', '['], c ≠ m := by
    rintro m hm rfl
    rw [hmarks c hm] at h
    cases h
  constructor
  · intro hc
    exact hne c (List.mem_append_left ['"', '\x27', '['] hc) rfl
  · intro hc
    exact hne c (List.mem_append_right [' ', '\t', '\n', '\r', '#'] hc) rfl

/-- A bare key has a first character. -/
theorem IsBare.exists_cons {key : String} (h : IsBare key) :
    ∃ c cs, key.toList = c :: cs ∧ isKeyChar c = true := by
  cases hkey : key.toList with
  | nil => exact absurd hkey h.1
  | cons c cs => exact ⟨c, cs, rfl, h.2 c (hkey ▸ List.mem_cons_self)⟩

section Keys

variable {key : String} (hkey : IsBare key) {c : Char} (hc : isKeyChar c = false)

include hkey hc

/-- A bare key is scanned up to the first character that is none of a key. -/
theorem scanKey?_bare (rest : List Char) :
    scanKey? (key.toList ++ c :: rest) = some (key, c :: rest) := by
  obtain ⟨d, ds, hd, hkeyChar⟩ := hkey.exists_cons
  have hquotes := (ne_of_isKeyChar hkeyChar).2
  have htake : (key.toList ++ c :: rest).takeWhile isKeyChar = key.toList := by
    rw [List.takeWhile_append_of_pos hkey.2, List.takeWhile_cons_of_neg (by simp [hc]),
      List.append_nil]
  have hdrop : (key.toList ++ c :: rest).dropWhile isKeyChar = c :: rest := by
    rw [List.dropWhile_append_of_pos hkey.2, List.dropWhile_cons_of_neg (by simp [hc])]
  have hne : ∀ q ∈ ['"', '\x27', '['], ∀ more, key.toList ++ c :: rest ≠ q :: more := by
    intro q hq more heq
    rw [hd] at heq
    rw [← (List.cons.inj heq).1] at hq
    exact hquotes hq
  rw [scanKey?.eq_3 _ (fun more heq => hne '"' (by decide) more heq)
    (fun more heq => hne '\x27' (by decide) more heq), htake, hdrop]
  split
  · rename_i heq
    exact absurd heq hkey.1
  · rw [String.ofList_toList]

/-- A bare key without a point behind it is a path of one key. -/
theorem scanPath?_bare (room : Nat) {rest after : List Char}
    (hafter : skipGap (c :: rest) = after) (hdot : after.head? ≠ some '.') :
    scanPath? (room + 1) (key.toList ++ c :: rest) = some ([], key, after) := by
  obtain ⟨d, ds, hd, hkeyChar⟩ := hkey.exists_cons
  have hgap : skipGap (key.toList ++ c :: rest) = key.toList ++ c :: rest := by
    rw [hd]
    exact skipGap_cons (ne_of_isKeyChar hkeyChar).1.isGap_eq_false _
  rw [scanPath?, hgap, scanKey?_bare hkey hc]
  dsimp only
  rw [hafter]
  split
  · rename_i more
    exact absurd rfl hdot
  · rfl

end Keys

/-! ## Lines -/

/-- The line of a field. -/
def fieldLine (f : String × Written) : List Char :=
  f.1.toList ++ ' ' :: '=' :: ' ' :: (f.2.chars ++ ['\n'])

/-- The line of a header. -/
def headerLine (name : String) : List Char :=
  '[' :: (name.toList ++ [']', '\n'])

/-- What a field says. -/
def fieldStatement (f : String × Written) : Statement :=
  .pair ([], f.1, f.2.value)

/-- A field is scanned back. -/
theorem scanStatement?_field {f : String × Written} (hf : IsBare f.1) (rest : List Char) :
    scanStatement? (fieldLine f ++ rest) = some (fieldStatement f, rest) := by
  obtain ⟨key, v⟩ := f
  obtain ⟨d, ds, hd, hkeyChar⟩ := hf.exists_cons
  have hbracket : d ≠ '[' := by
    rintro rfl
    exact (ne_of_isKeyChar hkeyChar).2 (by decide)
  have hline : fieldLine (key, v) ++ rest =
      key.toList ++ ' ' :: '=' :: ' ' :: (v.chars ++ '\n' :: rest) := by
    simp only [fieldLine, List.append_assoc, List.cons_append, List.nil_append]
  have hne : ∀ more, key.toList ++ ' ' :: '=' :: ' ' :: (v.chars ++ '\n' :: rest) ≠
      '[' :: more := by
    intro more heq
    rw [hd] at heq
    exact hbracket (List.cons.inj heq).1
  have hname : scanName? (key.toList ++ ' ' :: '=' :: ' ' :: (v.chars ++ '\n' :: rest)) =
      some ([], key, ' ' :: (v.chars ++ '\n' :: rest)) := by
    have hpath : scanPath? depthLimit
        (key.toList ++ ' ' :: '=' :: ' ' :: (v.chars ++ '\n' :: rest)) =
          some ([], key, '=' :: ' ' :: (v.chars ++ '\n' :: rest)) :=
      scanPath?_bare hf rfl 78 rfl (fun h => absurd (Option.some.inj h) (by decide))
    rw [scanName?, hpath]
    rfl
  have hvalue : scanValue? (2 * (' ' :: (v.chars ++ '\n' :: rest)).length + 2) depthLimit
      (' ' :: (v.chars ++ '\n' :: rest)) = some (v.value, '\n' :: rest) := by
    rw [scanValue?_space]
    apply scanValue?_chars v _ 78 (endsString_cons (by decide) rest)
      (endsNumber_cons (by decide) rest)
    simp only [List.length_cons, List.length_append]
    omega
  rw [hline, scanStatement?.eq_3 _ (fun more => hne ('[' :: more)) hne, hname]
  dsimp only
  rw [hvalue]
  rfl

/-- A header is scanned back. -/
theorem scanStatement?_header {name : String} (hname : IsBare name) (rest : List Char) :
    scanStatement? (headerLine name ++ rest) = some (.header [] name, rest) := by
  obtain ⟨d, ds, hd, hkeyChar⟩ := hname.exists_cons
  have hbracket : d ≠ '[' := by
    rintro rfl
    exact (ne_of_isKeyChar hkeyChar).2 (by decide)
  have hline : headerLine name ++ rest = '[' :: (name.toList ++ ']' :: '\n' :: rest) := by
    simp only [headerLine, List.append_assoc, List.cons_append, List.nil_append]
  have hne : ∀ more, name.toList ++ ']' :: '\n' :: rest ≠ '[' :: more := by
    intro more heq
    rw [hd] at heq
    exact hbracket (List.cons.inj heq).1
  have hpath : scanPath? depthLimit (name.toList ++ ']' :: '\n' :: rest) =
      some ([], name, ']' :: '\n' :: rest) :=
    scanPath?_bare hname rfl 78 rfl (fun h => absurd (Option.some.inj h) (by decide))
  have hheader : scanHeader? [']'] (name.toList ++ ']' :: '\n' :: rest) =
      some ([], name, rest) := by
    rw [scanHeader?, hpath]
    rfl
  rw [hline, scanStatement?.eq_2 _ hne, hheader]
  rfl

/-! ## Texts that are read as statements -/

/-- A text is read as some statements, whatever follows it, in no more steps than it has
characters. -/
def Reads (t : List Char) (ss : List Statement) : Prop :=
  ∃ k, k ≤ t.length ∧ ∀ fuel rest,
    scanStatements? (fuel + k) (t ++ rest) = (scanStatements? fuel rest).map (ss ++ ·)

theorem reads_nil : Reads [] [] := by
  refine ⟨0, Nat.le_refl 0, fun fuel rest => ?_⟩
  show scanStatements? fuel rest = _
  cases scanStatements? fuel rest <;> rfl

/-- Of two texts the statements of the first one come first. -/
theorem Reads.append {t t' : List Char} {ss ss' : List Statement} (h : Reads t ss)
    (h' : Reads t' ss') : Reads (t ++ t') (ss ++ ss') := by
  obtain ⟨k, hk, hread⟩ := h
  obtain ⟨k', hk', hread'⟩ := h'
  refine ⟨k' + k, by rw [List.length_append]; omega, fun fuel rest => ?_⟩
  rw [← Nat.add_assoc, List.append_assoc, hread, hread', Option.map_map]
  congr 1
  funext more
  exact (List.append_assoc ss ss' more).symm

/-- A line that begins with a token and is scanned as a statement is read as that statement. -/
theorem reads_of_scanStatement? {c : Char} {cs : List Char} {s : Statement} (hc : StartsToken c)
    (h : ∀ rest, scanStatement? (c :: cs ++ rest) = some (s, rest)) : Reads (c :: cs) [s] := by
  refine ⟨1, Nat.succ_le_succ (Nat.zero_le _), fun fuel rest => ?_⟩
  have hcomment : c ≠ '#' := by
    rintro rfl
    exact hc (by decide)
  rw [scanStatements?, List.cons_append, skipGap_cons hc.isGap_eq_false]
  split
  · rename_i heq
    cases heq
  · rename_i heq
    exact absurd (List.cons.inj heq).1 hcomment
  · rw [newline?_cons hc, ← List.cons_append, h rest]
    rfl

/-- **A field is read as a pair.** -/
theorem reads_fieldLine {f : String × Written} (hf : IsBare f.1) :
    Reads (fieldLine f) [fieldStatement f] := by
  obtain ⟨d, ds, hd, hkeyChar⟩ := hf.exists_cons
  have hline : fieldLine f = d :: (ds ++ ' ' :: '=' :: ' ' :: (f.2.chars ++ ['\n'])) := by
    rw [fieldLine, hd]
    rfl
  have hscan := scanStatement?_field hf
  rw [hline] at hscan ⊢
  exact reads_of_scanStatement? (ne_of_isKeyChar hkeyChar).1 hscan

/-- **A header is read as a header.** -/
theorem reads_headerLine {name : String} (hname : IsBare name) :
    Reads (headerLine name) [.header [] name] :=
  reads_of_scanStatement? (by decide) (scanStatement?_header hname)

/-! ## Lines that say nothing -/

/-- What may stand behind the mark of a comment up to the line feed: plain characters, and a carriage
return at the end, which then belongs to the line end. -/
def IsComment (text : List Char) : Prop :=
  text.dropWhile isPlain = [] ∨ text.dropWhile isPlain = ['\r']

instance (text : List Char) : Decidable (IsComment text) :=
  inferInstanceAs (Decidable (_ ∨ _))

/-- Plain characters may stand before a text wherever it stands. -/
theorem isComment_append {a : List Char} (ha : ∀ c ∈ a, isPlain c = true) (text : List Char) :
    IsComment (a ++ text) ↔ IsComment text := by
  rw [IsComment, IsComment, List.dropWhile_append_of_pos ha]

/-- Empty lines and comments. -/
inductive Idle : List Char → Prop where
  /-- No lines. -/
  | nil : Idle []
  /-- An empty line, and such lines behind it. -/
  | blank {cs : List Char} (h : Idle cs) : Idle ('\n' :: cs)
  /-- A comment, and such lines behind it. -/
  | comment {text cs : List Char} (htext : IsComment text) (h : Idle cs) :
      Idle ('#' :: (text ++ '\n' :: cs))

/-- Such lines one after the other. -/
theorem Idle.append {a b : List Char} (ha : Idle a) (hb : Idle b) : Idle (a ++ b) := by
  induction ha with
  | nil => exact hb
  | blank _ ih => exact .blank ih
  | comment htext _ ih =>
    rw [List.cons_append, List.append_assoc]
    exact .comment htext ih

/-- An empty line is read as nothing. -/
theorem reads_blank : Reads ['\n'] [] := by
  refine ⟨1, Nat.le_refl 1, fun fuel rest => ?_⟩
  show scanStatements? fuel rest = _
  cases scanStatements? fuel rest <;> rfl

/-- The scanner of a comment stops where its plain characters end. -/
theorem lineEnd?_hash (text rest : List Char) :
    lineEnd? ('#' :: (text ++ '\n' :: rest)) =
      newline? (text.dropWhile isPlain ++ '\n' :: rest) := by
  have hskip : skipComment (skipGap ('#' :: (text ++ '\n' :: rest))) =
      text.dropWhile isPlain ++ '\n' :: rest := by
    show (text ++ '\n' :: rest).dropWhile isPlain = _
    rw [List.dropWhile_append]
    cases htext : text.dropWhile isPlain with
    | nil => rfl
    | cons c more => rfl
  rw [lineEnd?, hskip]
  split
  · rename_i heq
    exact absurd heq (List.append_ne_nil_of_right_ne_nil _ (List.cons_ne_nil '\n' rest))
  · rfl

/-- A comment ends with its line. -/
theorem lineEnd?_comment {text : List Char} (htext : IsComment text) (rest : List Char) :
    lineEnd? ('#' :: (text ++ '\n' :: rest)) = some rest := by
  rw [lineEnd?_hash]
  rcases htext with h | h
  · rw [h]
    rfl
  · rw [h]
    rfl

/-- A comment is skipped if its line ends. -/
theorem scanStatements?_hash (fuel : Nat) (cs : List Char) :
    scanStatements? (fuel + 1) ('#' :: cs) =
      (lineEnd? ('#' :: cs)).bind (scanStatements? fuel) := by
  have hgap : skipGap ('#' :: cs) = '#' :: cs := rfl
  simp only [scanStatements?, hgap]
  cases lineEnd? ('#' :: cs) <;> rfl

/-- A comment is read as nothing. -/
theorem reads_comment {text : List Char} (htext : IsComment text) :
    Reads ('#' :: (text ++ ['\n'])) [] := by
  refine ⟨1, Nat.succ_le_succ (Nat.zero_le _), fun fuel rest => ?_⟩
  rw [List.cons_append, List.append_assoc, List.singleton_append, scanStatements?_hash,
    lineEnd?_comment htext]
  show scanStatements? fuel rest = _
  cases scanStatements? fuel rest <;> rfl

/-- **Empty lines and comments are read as nothing.** -/
theorem Idle.reads {cs : List Char} (h : Idle cs) : Reads cs [] := by
  induction h with
  | nil => exact reads_nil
  | blank _ ih => exact reads_blank.append ih
  | comment htext _ ih =>
    have hlines := (reads_comment htext).append ih
    rwa [List.cons_append, List.append_assoc] at hlines

/-- **A line that may not stand in a comment makes a text unreadable.** -/
theorem scanStatements?_of_not_isComment {text : List Char} (htext : ¬IsComment text)
    (hnewline : '\n' ∉ text) (fuel : Nat) (rest : List Char) :
    scanStatements? fuel ('#' :: (text ++ '\n' :: rest)) = none := by
  have hfeed : '\n' ∉ text.dropWhile isPlain := fun h =>
    hnewline ((List.dropWhile_suffix isPlain).subset h)
  rw [IsComment, not_or] at htext
  -- The scanner stops at a control, and no line end stands there.
  have hnone : newline? (text.dropWhile isPlain ++ '\n' :: rest) = none := by
    match text.dropWhile isPlain, htext, hfeed with
    | [], htext, _ => exact absurd rfl htext.1
    | [c], htext, hfeed =>
      apply newline?.eq_3
      · rintro more heq
        exact hfeed (List.mem_singleton.mpr (List.cons.inj heq).1.symm)
      · rintro more heq
        exact htext.2 (congrArg (fun d => [d]) (List.cons.inj heq).1)
    | c :: d :: more, _, hfeed =>
      apply newline?.eq_3
      · rintro after heq
        exact hfeed (List.mem_cons.mpr (Or.inl (List.cons.inj heq).1.symm))
      · rintro after heq
        have hd := (List.cons.inj (List.cons.inj heq).2).1
        exact hfeed (List.mem_cons_of_mem c (List.mem_cons.mpr (Or.inl hd.symm)))
  cases fuel with
  | zero => rfl
  | succ fuel =>
    rw [scanStatements?_hash, lineEnd?_hash, hnone]
    rfl

/-- No text that is read begins with the mark of a byte order. -/
theorem Reads.head?_ne {t : List Char} {ss : List Statement} (h : Reads t ss) :
    t.head? ≠ some '\ufeff' := by
  intro hhead
  obtain ⟨k, -, hread⟩ := h
  cases t with
  | nil => cases hhead
  | cons c t =>
    have hc : c = '\ufeff' := Option.some.inj hhead
    subst hc
    have hnone : ∀ fuel, scanStatements? fuel ('\ufeff' :: (t ++ [])) = none := by
      intro fuel
      cases fuel <;> rfl
    have hsome := hread 1 []
    rw [List.cons_append, hnone] at hsome
    cases hsome

/-- No mark is skipped before a text that is read. -/
theorem Reads.skipMark_append {t : List Char} {ss : List Statement} (h : Reads t ss)
    (hne : t ≠ []) (more : List Char) : skipMark (t ++ more) = t ++ more := by
  have hhead := h.head?_ne
  cases t with
  | nil => exact absurd rfl hne
  | cons c t => exact skipMark.eq_2 _ fun _ heq => hhead (congrArg some (List.cons.inj heq).1)

/-- **A text that is read as statements is put together from them.** -/
theorem Reads.read?_eq {t : List Char} {ss : List Statement} (h : Reads t ss) :
    read? (String.ofList t) = ofStatements? ss := by
  have hmark : skipMark t = t := by
    by_cases hne : t = []
    · rw [hne]
      rfl
    · have hskip := h.skipMark_append hne []
      rwa [List.append_nil] at hskip
  obtain ⟨k, hk, hread⟩ := h
  have hscan := hread (t.length + 1 - k) []
  rw [List.append_nil, Nat.sub_add_cancel (by omega)] at hscan
  have hend : scanStatements? (t.length + 1 - k) [] = some [] := by
    obtain ⟨fuel, hfuel⟩ : ∃ fuel, t.length + 1 - k = fuel + 1 := ⟨t.length - k, by omega⟩
    rw [hfuel]
    rfl
  show (scanStatements? ((skipMark (String.ofList t).toList).length + 1)
    (skipMark (String.ofList t).toList)).bind ofStatements? = _
  rw [String.toList_ofList, hmark, hscan, hend, Option.map_some, List.append_nil,
    Option.bind_some]

/-- A text is not read if it goes on in a way that is not read. -/
theorem Reads.read?_append_eq_none {t : List Char} {ss : List Statement} (h : Reads t ss)
    (hne : t ≠ []) {more : List Char} (hmore : ∀ fuel, scanStatements? fuel more = none) :
    read? (String.ofList (t ++ more)) = none := by
  have hmark := h.skipMark_append hne more
  obtain ⟨k, hk, hread⟩ := h
  have hscan := hread ((t ++ more).length + 1 - k) more
  rw [Nat.sub_add_cancel (by rw [List.length_append]; omega), hmore] at hscan
  show (scanStatements? ((skipMark (String.ofList (t ++ more)).toList).length + 1)
    (skipMark (String.ofList (t ++ more)).toList)).bind ofStatements? = _
  rw [String.toList_ofList, hmark, hscan]
  rfl

end Toml

end RpcDaemon
