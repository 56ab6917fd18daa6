import Mathlib.Data.List.DropRight
import RpcDaemon.Proofs.Json.Layout

/-!
# Documents read back

Every text of a well-formed document, with whatever blanks between its tokens, is scanned back to
that document, whatever follows it, if the document nests no deeper than the limit. Main statements:
`Document.read?_laidOut`, `Document.read?_chars` and `Document.HasText.read?_length`.
-/

namespace RpcDaemon

namespace Json

/-! ## Scalars -/

/-- A number is scanned as a scalar. -/
theorem scanScalar?_number {n : NumberText} (hn : n.WellFormed) {rest : List Char}
    (h : EndsNumber rest) : scanScalar? (n.chars ++ rest) = some (.number n, rest) := by
  obtain ⟨c, cs, hc, hstart⟩ := NumberText.chars_cons hn
  obtain ⟨-, hq, hn', ht, hf, -⟩ := start_of_number hstart
  unfold scanScalar?
  split
  · rename_i heq
    rw [hc] at heq
    exact absurd (List.cons.inj heq).1 hq
  · rename_i heq
    rw [hc] at heq
    exact absurd (List.cons.inj heq).1 hn'
  · rename_i heq
    rw [hc] at heq
    exact absurd (List.cons.inj heq).1 ht
  · rename_i heq
    rw [hc] at heq
    exact absurd (List.cons.inj heq).1 hf
  · rw [scanNumber?_append hn h]
    rfl

/-- What is scanned where no bracket is opened is a scalar. -/
theorem scanDocument?_of_scalar {c : Char} (hs : isSpace c = false) (ha : c ≠ '[') (ho : c ≠ '{')
    (fuel limit : Nat) (cs : List Char) :
    scanDocument? (fuel + 1) limit (c :: cs) = scanScalar? (c :: cs) := by
  rw [scanDocument?, skipSpace_cons hs]
  · intro rest _ heq
    rw [skipSpace_cons hs] at heq
    exact absurd (List.cons.inj heq).1 ha
  · intro rest _ heq
    rw [skipSpace_cons hs] at heq
    exact absurd (List.cons.inj heq).1 ho

/-! ## Arrays and objects -/

/-- What may follow an item or a member ends a number. -/
theorem endsNumber_comma (rest : List Char) : EndsNumber (',' :: rest) :=
  endsNumber_cons (by decide) rest

theorem endsNumber_bracket (rest : List Char) : EndsNumber (']' :: rest) :=
  endsNumber_cons (by decide) rest

theorem endsNumber_brace (rest : List Char) : EndsNumber ('}' :: rest) :=
  endsNumber_cons (by decide) rest

/-- Where blanks were skipped none are left. -/
theorem skipSpace_skipSpace (cs : List Char) : skipSpace (skipSpace cs) = skipSpace cs :=
  List.dropWhile_idempotent isSpace cs

/-- The blanks before a document are skipped. -/
theorem scanDocument?_skipSpace (fuel limit : Nat) (cs : List Char) :
    scanDocument? fuel limit (skipSpace cs) = scanDocument? fuel limit cs := by
  cases fuel with
  | zero => rfl
  | succ fuel =>
    unfold scanDocument?
    rw [skipSpace_skipSpace]

/-- The blanks before a document are skipped. -/
theorem scanDocument?_blanks {b : List Char} (hb : Blanks b) (fuel limit : Nat) (cs : List Char) :
    scanDocument? fuel limit (b ++ cs) = scanDocument? fuel limit cs := by
  rw [← scanDocument?_skipSpace, hb.skipSpace_append, scanDocument?_skipSpace]

/-- The blanks before the first item are skipped. -/
theorem scanItems?_skipSpace (fuel limit : Nat) (cs : List Char) :
    scanItems? fuel limit (skipSpace cs) = scanItems? fuel limit cs := by
  cases fuel with
  | zero => rfl
  | succ fuel => rw [scanItems?, scanItems?, scanDocument?_skipSpace]

/-- The blanks before the first member are skipped. -/
theorem scanMembers?_skipSpace (fuel limit : Nat) (cs : List Char) :
    scanMembers? fuel limit (skipSpace cs) = scanMembers? fuel limit cs := by
  cases fuel with
  | zero => rfl
  | succ fuel => rw [scanMembers?, scanMembers?, skipSpace_skipSpace]

/-- No blank is skipped before a quote. -/
theorem skipSpace_quoted (k : List Piece) (rest : List Char) :
    skipSpace (quoted k ++ rest) = quoted k ++ rest :=
  skipSpace_cons rfl _

/-- The name of a member and its colon are scanned back. -/
theorem scanName?_append {k : List Piece} (hk : ∀ p ∈ k, p.WellFormed) (rest : List Char) :
    scanName? (quoted k ++ ':' :: rest) = some (k, rest) := by
  unfold scanName?
  rw [scanString?_quoted hk]
  rfl

/-- An opening bracket without its closing bracket starts the items of an array. -/
theorem scanDocument?_array (fuel limit : Nat) {c : Char} {cs ts : List Char}
    (hts : skipSpace ts = c :: cs) (h : StartsDocument c) :
    scanDocument? (fuel + 1) (limit + 1) ('[' :: ts) =
      (scanItems? fuel limit ts).map fun r => (.array r.1, r.2) := by
  rw [scanDocument?.eq_2 _ fuel ts limit (skipSpace_cons rfl _), ← scanItems?_skipSpace, hts]
  split
  · rename_i heq
    exact absurd (List.cons.inj heq).1 h.2.1
  · rfl

/-- An opening brace without its closing brace starts the members of an object. -/
theorem scanDocument?_object (fuel limit : Nat) {cs ts : List Char}
    (hts : skipSpace ts = '"' :: cs) :
    scanDocument? (fuel + 1) (limit + 1) ('{' :: ts) =
      (scanMembers? fuel limit ts).map fun r => (.object r.1, r.2) := by
  rw [scanDocument?.eq_3 _ fuel ts limit (skipSpace_cons rfl _), ← scanMembers?_skipSpace, hts]
  rfl

/-- Brackets with blanks between them are an array without items. -/
theorem scanDocument?_array_nil (fuel limit : Nat) {b : List Char} (hb : Blanks b)
    (rest : List Char) :
    scanDocument? (fuel + 1) (limit + 1) ('[' :: (b ++ ']' :: rest)) = some (.array [], rest) := by
  rw [scanDocument?.eq_2 _ fuel _ limit (skipSpace_cons rfl _), hb.skipSpace_append,
    skipSpace_cons (c := ']') rfl]
  rfl

/-- Braces with blanks between them are an object without members. -/
theorem scanDocument?_object_nil (fuel limit : Nat) {b : List Char} (hb : Blanks b)
    (rest : List Char) :
    scanDocument? (fuel + 1) (limit + 1) ('{' :: (b ++ '}' :: rest)) =
      some (.object [], rest) := by
  rw [scanDocument?.eq_3 _ fuel _ limit (skipSpace_cons rfl _), hb.skipSpace_append,
    skipSpace_cons (c := '}') rfl]
  rfl

mutual

-- A scalar takes one step. A bracket takes one step and one level, and its items take the rest, so
-- twice the length is work enough at every place.

/-- A text of a document is scanned back, given work for twice its length. -/
theorem scanDocument?_laidOut : ∀ (d : Document) {t : List Char} (fuel limit : Nat)
    (rest : List Char), d.LaidOut t → d.WellFormed → d.depth ≤ limit → 2 * t.length ≤ fuel →
      EndsNumber rest → scanDocument? fuel limit (t ++ rest) = some (d, rest)
  | .null, _, fuel, limit, rest, ht, _, _, hf, _ => by
    cases ht
    obtain ⟨fuel, rfl⟩ : ∃ k, fuel = k + 1 := ⟨fuel - 1, by simp [Document.chars] at hf; omega⟩
    exact scanDocument?_of_scalar rfl (by decide) (by decide) fuel limit _
  | .bool b, _, fuel, limit, rest, ht, _, _, hf, _ => by
    cases ht
    obtain ⟨fuel, rfl⟩ : ∃ k, fuel = k + 1 :=
      ⟨fuel - 1, by cases b <;> simp [Document.chars] at hf <;> omega⟩
    cases b <;> exact scanDocument?_of_scalar rfl (by decide) (by decide) fuel limit _
  | .number n, _, fuel, limit, rest, ht, hw, _, hf, hr => by
    cases ht
    obtain ⟨c, cs, hc, hstart⟩ := NumberText.chars_cons hw
    obtain ⟨⟨hs, -⟩, -, -, -, -, ha, ho⟩ := start_of_number hstart
    have hscan := scanScalar?_number hw hr
    obtain ⟨fuel, rfl⟩ : ∃ k, fuel = k + 1 :=
      ⟨fuel - 1, by simp [Document.chars, hc] at hf; omega⟩
    show scanDocument? (fuel + 1) limit (n.chars ++ rest) = _
    rw [hc] at hscan ⊢
    rw [List.cons_append, scanDocument?_of_scalar hs ha ho]
    exact hscan
  | .string s, _, fuel, limit, rest, ht, hw, _, hf, _ => by
    cases ht
    obtain ⟨fuel, rfl⟩ : ∃ k, fuel = k + 1 :=
      ⟨fuel - 1, by simp [Document.chars, quoted] at hf; omega⟩
    refine (scanDocument?_of_scalar rfl (by decide) (by decide) fuel limit _).trans ?_
    show (scanString? (quoted s ++ rest)).map _ = _
    rw [scanString?_quoted hw]
    rfl
  | .array items, _, fuel, limit, rest, ht, hw, hd, hf, _ => by
    obtain ⟨ts, hts, rfl⟩ := ht
    simp only [List.length_cons, List.length_append] at hf
    obtain ⟨limit, rfl⟩ : ∃ k, limit = k + 1 := ⟨limit - 1, by simp [Document.depth] at hd; omega⟩
    obtain ⟨fuel, rfl⟩ : ∃ k, fuel = k + 1 := ⟨fuel - 1, by omega⟩
    rw [List.cons_append, List.append_assoc, List.singleton_append]
    cases items with
    | nil => exact scanDocument?_array_nil fuel limit hts rest
    | cons d items =>
      obtain ⟨c, cs, hc, hstart⟩ := hts.skipSpace_append hw.1 (']' :: rest)
      have hitems := scanItems?_laidOut (d :: items) fuel limit rest (List.cons_ne_nil d items) hts
        hw (by simp only [Document.depth] at hd; omega) (by omega)
      rw [scanDocument?_array fuel limit hc hstart, hitems]
      rfl
  | .object members, _, fuel, limit, rest, ht, hw, hd, hf, _ => by
    obtain ⟨ts, hts, rfl⟩ := ht
    simp only [List.length_cons, List.length_append] at hf
    obtain ⟨limit, rfl⟩ : ∃ k, limit = k + 1 := ⟨limit - 1, by simp [Document.depth] at hd; omega⟩
    obtain ⟨fuel, rfl⟩ : ∃ k, fuel = k + 1 := ⟨fuel - 1, by omega⟩
    rw [List.cons_append, List.append_assoc, List.singleton_append]
    cases members with
    | nil => exact scanDocument?_object_nil fuel limit hts rest
    | cons m members =>
      obtain ⟨cs, hc⟩ := hts.skipSpace_append ('}' :: rest)
      have hmembers := scanMembers?_laidOut (m :: members) fuel limit rest
        (List.cons_ne_nil m members) hts hw (by simp only [Document.depth] at hd; omega) (by omega)
      rw [scanDocument?_object fuel limit hc, hmembers]
      rfl

/-- Items and the closing bracket are scanned back. -/
theorem scanItems?_laidOut : ∀ (items : List Document) {ts : List Char} (fuel limit : Nat)
    (rest : List Char), items ≠ [] → Document.LaidOutItems items ts →
      Document.WellFormedItems items → Document.depthItems items ≤ limit →
        2 * ts.length + 1 ≤ fuel →
          scanItems? fuel limit (ts ++ ']' :: rest) = some (items, rest)
  | [], _, _, _, _, hne, _, _, _, _ => absurd rfl hne
  | [d], _, fuel, limit, rest, _, hts, hw, hd, hf => by
    obtain ⟨b, t, b', hb, ht, hb', rfl⟩ := hts
    obtain ⟨fuel, rfl⟩ : ∃ k, fuel = k + 1 := ⟨fuel - 1, by omega⟩
    simp only [List.length_append] at hf
    have hdoc := scanDocument?_laidOut d fuel limit (b' ++ ']' :: rest) ht hw.1
      (by simp only [Document.depthItems] at hd; omega) (by omega)
      (hb'.endsNumber (endsNumber_bracket rest))
    rw [List.append_assoc, List.append_assoc, scanItems?, scanDocument?_blanks hb, hdoc]
    dsimp only
    rw [hb'.skipSpace_append, skipSpace_cons (c := ']') rfl]
    rfl
  | d :: e :: items, _, fuel, limit, rest, _, hts, hw, hd, hf => by
    obtain ⟨b, t, b', ts, hb, ht, hb', hts, rfl⟩ := hts
    obtain ⟨fuel, rfl⟩ : ∃ k, fuel = k + 1 := ⟨fuel - 1, by omega⟩
    simp only [List.length_append, List.length_cons] at hf
    simp only [Document.depthItems] at hd
    have hdoc := scanDocument?_laidOut d fuel limit (b' ++ ',' :: (ts ++ ']' :: rest)) ht hw.1
      (by omega) (by omega) (hb'.endsNumber (endsNumber_comma _))
    have hitems := scanItems?_laidOut (e :: items) fuel limit rest (List.cons_ne_nil e items) hts
      hw.2 (by simp only [Document.depthItems]; omega) (by omega)
    simp only [List.append_assoc, List.cons_append]
    rw [scanItems?, scanDocument?_blanks hb, hdoc]
    dsimp only
    rw [hb'.skipSpace_append, skipSpace_cons (c := ',') rfl]
    show (scanItems? fuel limit _).map _ = _
    rw [hitems]
    rfl

/-- Members and the closing brace are scanned back. -/
theorem scanMembers?_laidOut : ∀ (members : List (List Piece × Document)) {ts : List Char}
    (fuel limit : Nat) (rest : List Char), members ≠ [] → Document.LaidOutMembers members ts →
      Document.WellFormedMembers members → Document.depthMembers members ≤ limit →
        2 * ts.length + 1 ≤ fuel →
          scanMembers? fuel limit (ts ++ '}' :: rest) = some (members, rest)
  | [], _, _, _, _, hne, _, _, _, _ => absurd rfl hne
  | [(k, d)], _, fuel, limit, rest, _, hts, hw, hd, hf => by
    obtain ⟨b, b', t, b'', hb, hb', ht, hb'', rfl⟩ := hts
    obtain ⟨fuel, rfl⟩ : ∃ k, fuel = k + 1 := ⟨fuel - 1, by omega⟩
    simp only [List.length_append, List.length_cons] at hf
    have hdoc := scanDocument?_laidOut d fuel limit (b'' ++ '}' :: rest) ht hw.2.1
      (by simp only [Document.depthMembers] at hd; omega) (by omega)
      (hb''.endsNumber (endsNumber_brace rest))
    simp only [List.append_assoc, List.cons_append]
    rw [scanMembers?, hb.skipSpace_append, skipSpace_quoted, scanName?_append hw.1]
    dsimp only
    rw [scanDocument?_blanks hb', hdoc]
    dsimp only
    rw [hb''.skipSpace_append, skipSpace_cons (c := '}') rfl]
    rfl
  | (k, d) :: m :: members, _, fuel, limit, rest, _, hts, hw, hd, hf => by
    obtain ⟨b, b', t, b'', ts, hb, hb', ht, hb'', hts, rfl⟩ := hts
    obtain ⟨fuel, rfl⟩ : ∃ k, fuel = k + 1 := ⟨fuel - 1, by omega⟩
    simp only [List.length_append, List.length_cons] at hf
    rw [Document.depthMembers] at hd
    have hdoc := scanDocument?_laidOut d fuel limit (b'' ++ ',' :: (ts ++ '}' :: rest)) ht hw.2.1
      (by omega) (by omega) (hb''.endsNumber (endsNumber_comma _))
    have hmembers := scanMembers?_laidOut (m :: members) fuel limit rest
      (List.cons_ne_nil m members) hts hw.2.2 (by omega) (by omega)
    simp only [List.append_assoc, List.cons_append]
    rw [scanMembers?, hb.skipSpace_append, skipSpace_quoted, scanName?_append hw.1]
    dsimp only
    rw [scanDocument?_blanks hb', hdoc]
    dsimp only
    rw [hb''.skipSpace_append, skipSpace_cons (c := ',') rfl]
    show (scanMembers? fuel limit _).map _ = _
    rw [hmembers]
    rfl

end

/-! ## Whole texts -/

namespace Document

variable {d : Document} {limit : Nat}

/-- **Every text of a document is read back**, with blanks before it and after it, if the document
nests no deeper than the limit. -/
theorem read?_laidOut {b t b' : List Char} (hb : Blanks b) (ht : d.LaidOut t) (hb' : Blanks b')
    (hw : d.WellFormed) (hd : d.depth ≤ limit) : read? limit (b ++ (t ++ b')) = some d := by
  have hfuel : 2 * t.length ≤ 2 * (b ++ (t ++ b')).length + 2 := by
    simp only [List.length_append]
    omega
  have hends : EndsNumber (b' ++ []) := hb'.endsNumber endsNumber_nil
  rw [List.append_nil] at hends
  have hrest : skipSpace b' = [] := by
    have h := hb'.skipSpace_append []
    rwa [List.append_nil] at h
  rw [read?, scanDocument?_blanks hb, scanDocument?_laidOut d _ limit b' ht hw hd hfuel hends]
  dsimp only
  rw [hrest]
  rfl

/-- **The text of a document is read back**, if the document nests no deeper than the limit. -/
theorem read?_chars (hw : d.WellFormed) (hd : d.depth ≤ limit) : read? limit d.chars = some d := by
  have h := read?_laidOut blanks_nil (laidOut_chars d) blanks_nil hw hd
  rwa [List.append_nil, List.nil_append] at h

/-- A whole text of a document, with blanks before it and after it. -/
def HasText (d : Document) (cs : List Char) : Prop :=
  ∃ b t b', Blanks b ∧ d.LaidOut t ∧ Blanks b' ∧ cs = b ++ (t ++ b')

/-- The indented text is a whole text. -/
theorem hasText_pretty (d : Document) : d.HasText d.pretty.toList := by
  refine ⟨[], prettyChars 0 d, [], blanks_nil, laidOut_prettyChars 0 d, blanks_nil, ?_⟩
  rw [pretty, String.toList_ofList, List.append_nil, List.nil_append]

/-- **Every whole text of a document is read back**: its length is limit enough. -/
theorem HasText.read?_length {cs : List Char} (h : d.HasText cs) (hw : d.WellFormed) :
    read? cs.length cs = some d := by
  obtain ⟨b, t, b', hb, ht, hb', rfl⟩ := h
  have hdepth := ht.depth_le_length
  exact read?_laidOut hb ht hb' hw (by simp only [List.length_append]; omega)

end Document

end Json

end RpcDaemon
