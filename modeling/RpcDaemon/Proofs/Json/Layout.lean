import RpcDaemon.Proofs.Json.Scanning

/-!
# Layouts of documents

The texts of a document have any blanks between their tokens. The text without blanks and the
indented text are two of them, and no text of a document is shorter than the document is deep. Main
statements: `Document.laidOut_chars`, `Document.laidOut_prettyChars` and
`Document.LaidOut.depth_le_length`.
-/

namespace RpcDaemon

namespace Json

namespace Document

/-! ## Depth and form -/

mutual

/-- How many arrays and objects stand around the deepest part of a document. -/
def depth : Document → Nat
  | .array items => depthItems items + 1
  | .object members => depthMembers members + 1
  | _ => 0

/-- The greatest depth of an item. -/
def depthItems : List Document → Nat
  | [] => 0
  | d :: rest => max (depth d) (depthItems rest)

/-- The greatest depth of a member. -/
def depthMembers : List (List Piece × Document) → Nat
  | [] => 0
  | (_, d) :: rest => max (depth d) (depthMembers rest)

end

mutual

/-- Every number and every string within the document is one that a text can have. -/
def WellFormed : Document → Prop
  | .number n => n.WellFormed
  | .string s => ∀ p ∈ s, p.WellFormed
  | .array items => WellFormedItems items
  | .object members => WellFormedMembers members
  | _ => True

/-- Every item is well-formed. -/
def WellFormedItems : List Document → Prop
  | [] => True
  | d :: rest => WellFormed d ∧ WellFormedItems rest

/-- Every member is well-formed, its name too. -/
def WellFormedMembers : List (List Piece × Document) → Prop
  | [] => True
  | (k, d) :: rest => (∀ p ∈ k, p.WellFormed) ∧ WellFormed d ∧ WellFormedMembers rest

end

end Document

/-! ## The first character -/

/-- The first character of a document: no blank and no closing bracket. -/
def StartsDocument (c : Char) : Prop := isSpace c = false ∧ c ≠ ']' ∧ c ≠ '}'

/-- The first character of a number is a minus sign or a digit. -/
theorem NumberText.chars_cons {n : NumberText} (hn : n.WellFormed) :
    ∃ c cs, n.chars = c :: cs ∧ (c = '-' ∨ ∃ d : Digit, c = d.toChar) := by
  rw [NumberText.chars_eq]
  cases n.negative with
  | true => exact ⟨'-', n.unsignedChars, rfl, Or.inl rfl⟩
  | false =>
    unfold NumberText.unsignedChars
    cases hw : n.whole with
    | nil => exact absurd hw hn.whole_ne_nil
    | cons d ds => exact ⟨d.toChar, _, rfl, Or.inr ⟨d, rfl⟩⟩

/-- The first character of a number starts neither another scalar nor a bracket. -/
theorem start_of_number {c : Char} (h : c = '-' ∨ ∃ d : Digit, c = d.toChar) :
    StartsDocument c ∧ c ≠ '"' ∧ c ≠ 'n' ∧ c ≠ 't' ∧ c ≠ 'f' ∧ c ≠ '[' ∧ c ≠ '{' := by
  rcases h with rfl | ⟨d, rfl⟩
  · exact ⟨⟨rfl, by decide, by decide⟩, by decide, by decide, by decide, by decide, by decide,
      by decide⟩
  · refine ⟨⟨?_, d.toChar_ne (by decide), d.toChar_ne (by decide)⟩, d.toChar_ne (by decide),
      d.toChar_ne (by decide), d.toChar_ne (by decide), d.toChar_ne (by decide),
      d.toChar_ne (by decide), d.toChar_ne (by decide)⟩
    revert d
    decide

/-- No blank is skipped before a character that is none. -/
theorem skipSpace_cons {c : Char} (h : isSpace c = false) (rest : List Char) :
    skipSpace (c :: rest) = c :: rest :=
  List.dropWhile_cons_of_neg (by simp [h])

/-! ## Layouts -/

/-- Blanks and nothing else. -/
def Blanks (b : List Char) : Prop := ∀ c ∈ b, isSpace c = true

theorem blanks_nil : Blanks [] := by
  intro c hc
  cases hc

/-- A new line and its indentation are blanks. -/
theorem blanks_newline (level : Nat) : Blanks (Document.newline level) := by
  intro c hc
  rcases List.mem_cons.mp hc with rfl | hc
  · rfl
  · rw [List.eq_of_mem_replicate hc]
    rfl

/-- Blanks are skipped. -/
theorem Blanks.skipSpace_append {b : List Char} (hb : Blanks b) (rest : List Char) :
    skipSpace (b ++ rest) = skipSpace rest :=
  List.dropWhile_append_of_pos hb

/-- Blanks end a number, if what follows them does. -/
theorem Blanks.endsNumber {b : List Char} (hb : Blanks b) {rest : List Char} (h : EndsNumber rest) :
    EndsNumber (b ++ rest) := by
  cases b with
  | nil => exact h
  | cons c b =>
    have hc : c = ' ' ∨ c = '\t' ∨ c = '\n' ∨ c = '\r' := by
      simpa [isSpace, or_assoc] using hb c List.mem_cons_self
    apply endsNumber_cons
    rcases hc with rfl | rfl | rfl | rfl <;> decide

namespace Document

mutual

/-- The texts of a document: any blanks may stand between its tokens. -/
def LaidOut : Document → List Char → Prop
  | .array items, cs => ∃ ts, LaidOutItems items ts ∧ cs = '[' :: (ts ++ [']'])
  | .object members, cs => ∃ ts, LaidOutMembers members ts ∧ cs = '{' :: (ts ++ ['}'])
  | d, cs => cs = d.chars

/-- The texts of the items of an array, up to its closing bracket. -/
def LaidOutItems : List Document → List Char → Prop
  | [], cs => Blanks cs
  | [d], cs => ∃ b t b', Blanks b ∧ LaidOut d t ∧ Blanks b' ∧ cs = b ++ (t ++ b')
  | d :: rest, cs => ∃ b t b' ts, Blanks b ∧ LaidOut d t ∧ Blanks b' ∧ LaidOutItems rest ts ∧
      cs = b ++ (t ++ (b' ++ ',' :: ts))

/-- The texts of the members of an object, up to its closing brace. -/
def LaidOutMembers : List (List Piece × Document) → List Char → Prop
  | [], cs => Blanks cs
  | [(k, d)], cs => ∃ b b' t b'', Blanks b ∧ Blanks b' ∧ LaidOut d t ∧ Blanks b'' ∧
      cs = b ++ (quoted k ++ ':' :: (b' ++ (t ++ b'')))
  | (k, d) :: rest, cs => ∃ b b' t b'' ts, Blanks b ∧ Blanks b' ∧ LaidOut d t ∧ Blanks b'' ∧
      LaidOutMembers rest ts ∧ cs = b ++ (quoted k ++ ':' :: (b' ++ (t ++ (b'' ++ ',' :: ts))))

end

/-! ### The text without blanks -/

theorem itemsChars_cons_cons (d e : Document) (rest : List Document) :
    itemsChars (d :: e :: rest) = d.chars ++ ',' :: itemsChars (e :: rest) := rfl

theorem membersChars_cons_cons (k : List Piece) (d : Document)
    (m : List Piece × Document) (rest : List (List Piece × Document)) :
    membersChars ((k, d) :: m :: rest) =
      quoted k ++ ':' :: d.chars ++ ',' :: membersChars (m :: rest) := rfl

mutual

/-- The text without blanks is one of the texts of a document. -/
theorem laidOut_chars : ∀ d : Document, d.LaidOut d.chars
  | .null => rfl
  | .bool _ => rfl
  | .number _ => rfl
  | .string _ => rfl
  | .array items => ⟨itemsChars items, laidOutItems_chars items, rfl⟩
  | .object members => ⟨membersChars members, laidOutMembers_chars members, rfl⟩

theorem laidOutItems_chars : ∀ items : List Document, LaidOutItems items (itemsChars items)
  | [] => blanks_nil
  | [d] => ⟨[], d.chars, [], blanks_nil, laidOut_chars d, blanks_nil, (List.append_nil _).symm⟩
  | d :: e :: rest =>
    ⟨[], d.chars, [], itemsChars (e :: rest), blanks_nil, laidOut_chars d, blanks_nil,
      laidOutItems_chars (e :: rest), rfl⟩

theorem laidOutMembers_chars :
    ∀ members : List (List Piece × Document), LaidOutMembers members (membersChars members)
  | [] => blanks_nil
  | [(k, d)] =>
    ⟨[], [], d.chars, [], blanks_nil, blanks_nil, laidOut_chars d, blanks_nil, by
      rw [List.append_nil]
      rfl⟩
  | (k, d) :: m :: rest =>
    ⟨[], [], d.chars, [], membersChars (m :: rest), blanks_nil, blanks_nil, laidOut_chars d,
      blanks_nil, laidOutMembers_chars (m :: rest), by
        rw [membersChars_cons_cons, List.append_assoc]
        rfl⟩

end

/-! ### The indented text -/

theorem prettyItems_cons_cons (level : Nat) (d e : Document) (rest : List Document) :
    prettyItems level (d :: e :: rest) = newline (level + 1) ++ prettyChars (level + 1) d
      ++ ',' :: prettyItems level (e :: rest) := rfl

theorem prettyMembers_cons_cons (level : Nat) (k : List Piece) (d : Document)
    (m : List Piece × Document) (rest : List (List Piece × Document)) :
    prettyMembers level ((k, d) :: m :: rest) =
      newline (level + 1) ++ quoted k ++ ':' :: ' ' :: prettyChars (level + 1) d
        ++ ',' :: prettyMembers level (m :: rest) := rfl

/-- The blank after the colon of an indented member. -/
theorem blanks_space : Blanks [' '] := by
  intro c hc
  rw [List.mem_singleton.mp hc]
  rfl

mutual

/-- The indented text is one of the texts of a document. -/
theorem laidOut_prettyChars : ∀ (level : Nat) (d : Document), d.LaidOut (prettyChars level d)
  | _, .null => rfl
  | _, .bool _ => rfl
  | _, .number _ => rfl
  | _, .string _ => rfl
  | _, .array [] => ⟨[], blanks_nil, rfl⟩
  | level, .array (d :: items) =>
    ⟨_, laidOutItems_pretty level (d :: items) (List.cons_ne_nil d items), rfl⟩
  | _, .object [] => ⟨[], blanks_nil, rfl⟩
  | level, .object (m :: members) =>
    ⟨_, laidOutMembers_pretty level (m :: members) (List.cons_ne_nil m members), rfl⟩

theorem laidOutItems_pretty : ∀ (level : Nat) (items : List Document), items ≠ [] →
    LaidOutItems items (prettyItems level items ++ newline level)
  | _, [], hne => absurd rfl hne
  | level, [d], _ =>
    ⟨newline (level + 1), prettyChars (level + 1) d, newline level, blanks_newline _,
      laidOut_prettyChars (level + 1) d, blanks_newline _, List.append_assoc _ _ _⟩
  | level, d :: e :: rest, _ =>
    ⟨newline (level + 1), prettyChars (level + 1) d, [],
      prettyItems level (e :: rest) ++ newline level, blanks_newline _,
      laidOut_prettyChars (level + 1) d, blanks_nil,
      laidOutItems_pretty level (e :: rest) (List.cons_ne_nil e rest), by
        rw [prettyItems_cons_cons]
        simp only [List.append_assoc, List.cons_append, List.nil_append]⟩

theorem laidOutMembers_pretty : ∀ (level : Nat) (members : List (List Piece × Document)),
    members ≠ [] → LaidOutMembers members (prettyMembers level members ++ newline level)
  | _, [], hne => absurd rfl hne
  | level, [(k, d)], _ =>
    ⟨newline (level + 1), [' '], prettyChars (level + 1) d, newline level, blanks_newline _,
      blanks_space, laidOut_prettyChars (level + 1) d, blanks_newline _, by
        rw [prettyMembers]
        simp only [List.append_assoc, List.cons_append, List.nil_append]⟩
  | level, (k, d) :: m :: rest, _ =>
    ⟨newline (level + 1), [' '], prettyChars (level + 1) d, [],
      prettyMembers level (m :: rest) ++ newline level, blanks_newline _, blanks_space,
      laidOut_prettyChars (level + 1) d, blanks_nil,
      laidOutMembers_pretty level (m :: rest) (List.cons_ne_nil m rest), by
        rw [prettyMembers_cons_cons]
        simp only [List.append_assoc, List.cons_append, List.nil_append]⟩

end

/-! ### The first character and the depth -/

/-- A text of a document starts with its first token. -/
theorem LaidOut.exists_cons {d : Document} {t : List Char} (h : d.LaidOut t) (hd : d.WellFormed) :
    ∃ c cs, t = c :: cs ∧ StartsDocument c := by
  cases d with
  | null => exact ⟨'n', _, h, rfl, by decide, by decide⟩
  | bool b => cases b <;> exact ⟨_, _, h, rfl, by decide, by decide⟩
  | number n =>
    obtain ⟨c, cs, hc, hstart⟩ := NumberText.chars_cons hd
    exact ⟨c, cs, h.trans hc, (start_of_number hstart).1⟩
  | string s => exact ⟨'"', _, h, rfl, by decide, by decide⟩
  | array items =>
    obtain ⟨ts, -, rfl⟩ := h
    exact ⟨'[', _, rfl, rfl, by decide, by decide⟩
  | object members =>
    obtain ⟨ts, -, rfl⟩ := h
    exact ⟨'{', _, rfl, rfl, by decide, by decide⟩

/-- The texts of items start with the first token of the first item. -/
theorem LaidOutItems.skipSpace_append {d : Document} {items : List Document} {ts : List Char}
    (h : LaidOutItems (d :: items) ts) (hd : d.WellFormed) (rest : List Char) :
    ∃ c cs, skipSpace (ts ++ rest) = c :: cs ∧ StartsDocument c := by
  obtain ⟨b, t, more, hb, ht, rfl⟩ : ∃ b t more, Blanks b ∧ d.LaidOut t ∧ ts = b ++ (t ++ more) := by
    cases items with
    | nil =>
      obtain ⟨b, t, b', hb, ht, -, rfl⟩ := h
      exact ⟨b, t, b', hb, ht, rfl⟩
    | cons e items =>
      obtain ⟨b, t, b', ts, hb, ht, -, -, rfl⟩ := h
      exact ⟨b, t, _, hb, ht, rfl⟩
  obtain ⟨c, cs, rfl, hc⟩ := ht.exists_cons hd
  refine ⟨c, cs ++ (more ++ rest), ?_, hc⟩
  rw [List.append_assoc, hb.skipSpace_append, List.append_assoc, List.cons_append,
    skipSpace_cons hc.1]

/-- The texts of members start with the quote of the first name. -/
theorem LaidOutMembers.skipSpace_append {m : List Piece × Document}
    {members : List (List Piece × Document)} {ts : List Char}
    (h : LaidOutMembers (m :: members) ts) (rest : List Char) :
    ∃ cs, skipSpace (ts ++ rest) = '"' :: cs := by
  obtain ⟨k, d⟩ := m
  obtain ⟨b, more, hb, rfl⟩ : ∃ b more, Blanks b ∧ ts = b ++ (quoted k ++ more) := by
    cases members with
    | nil =>
      obtain ⟨b, b', t, b'', hb, -, -, -, rfl⟩ := h
      exact ⟨b, _, hb, rfl⟩
    | cons e members =>
      obtain ⟨b, b', t, b'', ts, hb, -, -, -, -, rfl⟩ := h
      exact ⟨b, _, hb, rfl⟩
  rw [List.append_assoc, hb.skipSpace_append, List.append_assoc]
  exact ⟨_, skipSpace_cons rfl _⟩

mutual

-- Every array and every object takes two brackets.

/-- A document is no deeper than a text of it is long. -/
theorem LaidOut.depth_le_length : ∀ {d : Document} {t : List Char}, d.LaidOut t →
    d.depth ≤ t.length
  | .null, _, _ => Nat.zero_le _
  | .bool _, _, _ => Nat.zero_le _
  | .number _, _, _ => Nat.zero_le _
  | .string _, _, _ => Nat.zero_le _
  | .array items, t, h => by
    obtain ⟨ts, hts, rfl⟩ := h
    have h := hts.depth_le_length
    rw [depth]
    simp only [List.length_cons, List.length_append]
    omega
  | .object members, t, h => by
    obtain ⟨ts, hts, rfl⟩ := h
    have h := hts.depth_le_length
    rw [depth]
    simp only [List.length_cons, List.length_append]
    omega

theorem LaidOutItems.depth_le_length : ∀ {items : List Document} {ts : List Char},
    LaidOutItems items ts → depthItems items ≤ ts.length
  | [], _, _ => Nat.zero_le _
  | [d], ts, h => by
    obtain ⟨b, t, b', -, ht, -, rfl⟩ := h
    have h := ht.depth_le_length
    rw [depthItems, depthItems]
    simp only [List.length_append]
    omega
  | d :: e :: rest, ts, h => by
    obtain ⟨b, t, b', ts, -, ht, -, hts, rfl⟩ := h
    have hd := ht.depth_le_length
    have hrest := LaidOutItems.depth_le_length hts
    rw [depthItems]
    simp only [List.length_append, List.length_cons]
    omega

theorem LaidOutMembers.depth_le_length :
    ∀ {members : List (List Piece × Document)} {ts : List Char},
      LaidOutMembers members ts → depthMembers members ≤ ts.length
  | [], _, _ => Nat.zero_le _
  | [(k, d)], ts, h => by
    obtain ⟨b, b', t, b'', -, -, ht, -, rfl⟩ := h
    have h := ht.depth_le_length
    rw [depthMembers, depthMembers]
    simp only [List.length_append, List.length_cons]
    omega
  | (k, d) :: m :: rest, ts, h => by
    obtain ⟨b, b', t, b'', ts, -, -, ht, -, hts, rfl⟩ := h
    have hd := ht.depth_le_length
    have hrest := LaidOutMembers.depth_le_length hts
    rw [depthMembers]
    simp only [List.length_append, List.length_cons]
    omega

end

end Document

end Json

end RpcDaemon
