import RpcDaemon.Text.Glob

/-!
# What a glob pattern covers

`Glob.Covers` says which texts a pattern covers, and `Glob.Takes` which the search accepts: the
same, but that a star of the pattern takes a star of the text for itself alone. The search comes
back to its last star only. That is enough, because a star that is reached leaves open every later
place of the text that an earlier star could have led to. Main statements: `matchBytes_iff_takes`,
`matchBytes_iff` for a text without the byte of a star, and `covers_law`.
-/

namespace RpcDaemon

namespace Glob

/-- **The texts that a pattern covers.** A star stands for a run of bytes, possibly an empty one, a
question mark for one byte, and every other byte for itself. -/
inductive Covers : List UInt8 → List UInt8 → Prop
  /-- The empty pattern covers the empty text. -/
  | nil : Covers [] []
  /-- A star stands for any run. -/
  | star (run : List UInt8) {pattern text : List UInt8} (h : Covers pattern text) :
      Covers (star :: pattern) (run ++ text)
  /-- A question mark stands for any byte. -/
  | question (b : UInt8) {pattern text : List UInt8} (h : Covers pattern text) :
      Covers (question :: pattern) (b :: text)
  /-- Any other byte stands for itself. -/
  | byte {b : UInt8} (hstar : b ≠ Glob.star) (hquestion : b ≠ Glob.question)
      {pattern text : List UInt8} (h : Covers pattern text) : Covers (b :: pattern) (b :: text)

/-! ## The first byte of a pattern -/

/-- A byte of a pattern that is no star takes one byte of the text. -/
theorem covers_cons_iff {b : UInt8} (hb : b ≠ star) {pattern text : List UInt8} :
    Covers (b :: pattern) text ↔
      ∃ c rest, text = c :: rest ∧ (b = question ∨ b = c) ∧ Covers pattern rest := by
  constructor
  · intro h
    cases h with
    | star run h => exact absurd rfl hb
    | question c h => exact ⟨c, _, rfl, Or.inl rfl, h⟩
    | byte _ _ h => exact ⟨b, _, rfl, Or.inr rfl, h⟩
  · rintro ⟨c, rest, rfl, hc, h⟩
    by_cases hq : b = question
    · exact hq ▸ .question c h
    · exact (hc.resolve_left hq) ▸ .byte hb hq h

/-- A byte that fits the first byte of the text may be passed over, a star too. -/
theorem Covers.cons {b c : UInt8} (hc : b = Glob.question ∨ b = c) {pattern text : List UInt8}
    (h : Covers pattern text) : Covers (b :: pattern) (c :: text) := by
  by_cases hb : b = Glob.star
  · rcases hc with rfl | rfl
    · cases hb
    · exact hb ▸ .star [b] h
  · exact (covers_cons_iff hb).mpr ⟨c, text, rfl, hc, h⟩

/-- A pattern that leaves no choice: it has neither of the two special bytes. -/
def Literal (pattern : List UInt8) : Prop :=
  star ∉ pattern ∧ question ∉ pattern

/-- Bytes without a choice stand for themselves at the front of a pattern. -/
theorem covers_append_iff {literal : List UInt8} (h : Literal literal)
    {pattern text : List UInt8} :
    Covers (literal ++ pattern) text ↔ ∃ rest, text = literal ++ rest ∧ Covers pattern rest := by
  induction literal generalizing text with
  | nil => simp
  | cons b literal ih =>
    have hrest : Literal literal :=
      ⟨fun hm => h.1 (List.mem_cons_of_mem b hm), fun hm => h.2 (List.mem_cons_of_mem b hm)⟩
    have hstar : b ≠ star := fun heq => h.1 (heq ▸ List.mem_cons_self)
    have hquestion : b ≠ question := fun heq => h.2 (heq ▸ List.mem_cons_self)
    rw [List.cons_append, covers_cons_iff hstar]
    constructor
    · rintro ⟨c, tail, rfl, hc, htail⟩
      obtain ⟨rest, rfl, hcovers⟩ := (ih hrest).mp htail
      exact ⟨rest, by rw [hc.resolve_left hquestion, List.cons_append], hcovers⟩
    · rintro ⟨rest, rfl, hcovers⟩
      exact ⟨b, literal ++ rest, rfl, Or.inr rfl, (ih hrest).mpr ⟨rest, rfl, hcovers⟩⟩

/-- **A pattern without a choice** covers itself alone. -/
theorem covers_literal_iff {literal text : List UInt8} (h : Literal literal) :
    Covers literal text ↔ text = literal := by
  have hend : Covers (literal ++ []) text ↔ _ := covers_append_iff h
  rw [List.append_nil] at hend
  rw [hend]
  constructor
  · rintro ⟨rest, rfl, hrest⟩
    cases hrest
    rw [List.append_nil]
  · rintro rfl
    exact ⟨[], (List.append_nil text).symm, .nil⟩

/-- **With a star behind it** it covers whatever starts with it. -/
theorem covers_literal_star_iff {literal text : List UInt8} (h : Literal literal) :
    Covers (literal ++ [star]) text ↔ literal <+: text := by
  rw [covers_append_iff h]
  constructor
  · rintro ⟨rest, rfl, -⟩
    exact List.prefix_append literal rest
  · rintro ⟨rest, rfl⟩
    refine ⟨rest, rfl, ?_⟩
    have hstar := Covers.star rest .nil
    rwa [List.append_nil] at hstar

/-! ## What the search accepts -/

/-- **The texts that the search accepts.** A byte of the pattern that fits the next byte of the text
takes it, and so does a star that meets a star. A star that meets anything else stands for a run of
bytes, possibly an empty one. -/
inductive Takes : List UInt8 → List UInt8 → Prop
  /-- The empty pattern takes the empty text. -/
  | nil : Takes [] []
  /-- A byte that fits the next one takes it. -/
  | byte {b c : UInt8} (hfits : b = question ∨ b = c) {pattern text : List UInt8}
      (h : Takes pattern text) : Takes (b :: pattern) (c :: text)
  /-- A star that meets no star stands for any run. -/
  | run (run : List UInt8) {pattern text : List UInt8}
      (hfree : (run ++ text).head? ≠ some star) (h : Takes pattern text) :
      Takes (star :: pattern) (run ++ text)

section First

variable {b c : UInt8} {pattern text : List UInt8}

/-- What the first byte of the pattern can do. -/
theorem Takes.cons_cases (h : Takes (b :: pattern) text) :
    (∃ c rest, text = c :: rest ∧ (b = question ∨ b = c) ∧ Takes pattern rest) ∨
      (b = star ∧ text.head? ≠ some star ∧ ∃ n, Takes pattern (text.drop n)) := by
  cases h with
  | byte hfits h => exact Or.inl ⟨_, _, rfl, hfits, h⟩
  | run run hfree h => exact Or.inr ⟨rfl, hfree, run.length, by rwa [List.drop_left]⟩

/-- A byte that fits is passed over, and nothing else can be done with it. -/
theorem takes_cons_iff_of_fits (hfits : b = question ∨ b = c) :
    Takes (b :: pattern) (c :: text) ↔ Takes pattern text := by
  refine ⟨fun h => ?_, .byte hfits⟩
  rcases h.cons_cases with ⟨d, rest, heq, -, h⟩ | ⟨rfl, hfree, -⟩
  · cases heq
    exact h
  · rcases hfits with hq | rfl
    · cases hq
    · exact absurd rfl hfree

/-- A byte that does not fit ends the search, unless it is a star. -/
theorem not_takes_cons (hb : b ≠ star) (hfits : ¬(b = question ∨ b = c)) :
    ¬Takes (b :: pattern) (c :: text) := by
  intro h
  rcases h.cons_cases with ⟨d, rest, heq, hfits', -⟩ | ⟨hstar, -⟩
  · cases heq
    exact hfits hfits'
  · exact hb hstar

/-- A star that meets no star leaves some end of the text to the rest of the pattern. -/
theorem takes_star_iff (hfree : text.head? ≠ some star) :
    Takes (star :: pattern) text ↔ ∃ n, Takes pattern (text.drop n) := by
  constructor
  · intro h
    rcases h.cons_cases with ⟨d, rest, rfl, hq | rfl, -⟩ | ⟨-, -, h⟩
    · cases hq
    · exact absurd rfl hfree
    · exact h
  · rintro ⟨n, h⟩
    rw [← List.take_append_drop n text] at hfree ⊢
    exact .run _ hfree h

/-- Every byte of the pattern leaves some end of the text to the others. -/
theorem Takes.rest (h : Takes (b :: pattern) text) : ∃ n, Takes pattern (text.drop n) := by
  rcases h.cons_cases with ⟨d, rest, rfl, -, h⟩ | ⟨-, -, h⟩
  · exact ⟨1, h⟩
  · exact h

/-- The empty text is left to stars only. -/
theorem takes_nil_iff : Takes pattern [] ↔ pattern.all (fun b => b == star) = true := by
  induction pattern with
  | nil => exact ⟨fun _ => rfl, fun _ => .nil⟩
  | cons b pattern ih =>
    rw [List.all_cons, Bool.and_eq_true, beq_iff_eq, ← ih]
    constructor
    · intro h
      rcases h.cons_cases with ⟨d, rest, hnil, -⟩ | ⟨hstar, -, n, h⟩
      · cases hnil
      · rw [List.drop_nil] at h
        exact ⟨hstar, h⟩
    · rintro ⟨rfl, h⟩
      exact .run [] (by simp) h

end First

/-! ## Places of the text and of the pattern -/

/-- The end of a byte string from a place on. -/
abbrev suffix (bytes : Array UInt8) (n : Nat) : List UInt8 :=
  bytes.toList.drop n

theorem suffix_eq_cons {bytes : Array UInt8} {n : Nat} (h : n < bytes.size) :
    suffix bytes n = bytes[n] :: suffix bytes (n + 1) := by
  rw [suffix, List.drop_eq_getElem_cons (by simpa using h), Array.getElem_toList]

theorem suffix_eq_nil {bytes : Array UInt8} {n : Nat} (h : bytes.size ≤ n) :
    suffix bytes n = [] :=
  List.drop_eq_nil_of_le (by simpa using h)

theorem drop_suffix (bytes : Array UInt8) (n k : Nat) :
    (suffix bytes k).drop n = suffix bytes (k + n) :=
  List.drop_drop

/-! ## The search -/

section Search

variable {text pattern : Array UInt8} {c : Cursor}

/-- Whether the text can still be accepted: from the cursor on if there is no star before it, and
else from some place on to which the last star can lead. -/
def Cursor.Open (text pattern : Array UInt8) (c : Cursor) : Prop :=
  match c.lastStar with
  | none => Takes (suffix pattern c.pattern) (suffix text c.text)
  | some (p, t) => ∃ k, t ≤ k ∧ Takes (suffix pattern (p + 1)) (suffix text k)

/-- **What a search keeps up.** Since the last star every byte of the pattern has fitted one of the
text. So from where the run of the star ends now the search can go on as it can from the cursor; and
where a longer run leads to, the pattern comes to the place of the cursor no earlier in the text. -/
structure Cursor.Sound (text pattern : Array UInt8) (c : Cursor) : Prop where
  /-- The cursor is within the text. -/
  text_le : c.text ≤ text.size
  /-- The cursor is within the pattern. -/
  pattern_le : c.pattern ≤ pattern.size
  /-- The last star stands before the cursor. -/
  star_lt : ∀ p t, c.lastStar = some (p, t) → p < c.pattern ∧ t ≤ c.text
  /-- From the end of its run on the search can go on as from the cursor. -/
  here : ∀ p t, c.lastStar = some (p, t) →
    (Takes (suffix pattern (p + 1)) (suffix text t) ↔
      Takes (suffix pattern c.pattern) (suffix text c.text))
  /-- A longer run leads to no earlier place. -/
  later : ∀ p t, c.lastStar = some (p, t) → ∀ k, t ≤ k →
    Takes (suffix pattern (p + 1)) (suffix text k) →
      ∃ k', c.text ≤ k' ∧ Takes (suffix pattern c.pattern) (suffix text k')

/-- How far a search has come: first by the end of the run of the last star. -/
def Cursor.progress (pattern : Array UInt8) (c : Cursor) : Nat :=
  (c.lastStar.elim 0 Prod.snd) * (pattern.size + 1) + c.pattern

/-- What one step does: it keeps up the invariant, comes further, and decides nothing. -/
structure Cursor.Leads (text pattern : Array UInt8) (c c' : Cursor) : Prop where
  /-- The invariant holds again. -/
  sound : c'.Sound text pattern
  /-- The search has come further. -/
  progress_lt : c.progress pattern < c'.progress pattern
  /-- Nothing was gained or lost. -/
  open_iff : c'.Open text pattern ↔ c.Open text pattern

theorem Cursor.sound_start (text pattern : Array UInt8) : Cursor.start.Sound text pattern where
  text_le := Nat.zero_le _
  pattern_le := Nat.zero_le _
  star_lt := by
    intro p t h
    cases h
  here := by
    intro p t h
    cases h
  later := by
    intro p t h
    cases h

/-- **A byte that fits is passed over.** -/
theorem Cursor.Sound.leads_of_fits (h : c.Sound text pattern) (ht : c.text < text.size)
    (hp : c.pattern < pattern.size)
    (hfits : pattern[c.pattern] = question ∨ pattern[c.pattern] = text[c.text]) :
    c.Leads text pattern { c with text := c.text + 1, pattern := c.pattern + 1 } := by
  have hiff : Takes (suffix pattern c.pattern) (suffix text c.text) ↔
      Takes (suffix pattern (c.pattern + 1)) (suffix text (c.text + 1)) := by
    rw [suffix_eq_cons hp, suffix_eq_cons ht, takes_cons_iff_of_fits hfits]
  refine ⟨⟨ht, hp, ?_, ?_, ?_⟩, ?_, ?_⟩
  · intro p t hlast
    obtain ⟨hlt, hle⟩ := h.star_lt p t hlast
    exact ⟨Nat.lt_succ_of_lt hlt, Nat.le_succ_of_le hle⟩
  · intro p t hlast
    exact (h.here p t hlast).trans hiff
  · intro p t hlast k hk htakes
    obtain ⟨k', hk', htakes⟩ := h.later p t hlast k hk htakes
    rcases Nat.eq_or_lt_of_le hk' with rfl | hlt
    · exact ⟨c.text + 1, Nat.le_refl _, hiff.mp htakes⟩
    · -- A star may come to stand for nothing here, but then the place is a later one already.
      rw [suffix_eq_cons hp] at htakes
      obtain ⟨n, htakes⟩ := htakes.rest
      rw [drop_suffix] at htakes
      exact ⟨k' + n, Nat.le_add_right_of_le hlt, htakes⟩
  · simp only [Cursor.progress]
    omega
  · unfold Cursor.Open
    cases c.lastStar with
    | none => exact hiff.symm
    | some s => exact Iff.rfl

/-- **A star that meets no star is remembered**, with an empty run. -/
theorem Cursor.Sound.leads_of_star (h : c.Sound text pattern) (ht : c.text < text.size)
    (hp : c.pattern < pattern.size) (hstar : pattern[c.pattern] = star)
    (hfree : text[c.text] ≠ star) :
    c.Leads text pattern
      { c with pattern := c.pattern + 1, lastStar := some (c.pattern, c.text) } := by
  have hhead : (suffix text c.text).head? ≠ some star := by
    rw [suffix_eq_cons ht, List.head?_cons]
    exact fun heq => hfree (Option.some.inj heq)
  have hrest : ∀ k, c.text ≤ k → Takes (suffix pattern c.pattern) (suffix text k) →
      ∃ k', c.text ≤ k' ∧ Takes (suffix pattern (c.pattern + 1)) (suffix text k') := by
    intro k hk htakes
    rw [suffix_eq_cons hp] at htakes
    obtain ⟨n, htakes⟩ := htakes.rest
    rw [drop_suffix] at htakes
    exact ⟨k + n, Nat.le_add_right_of_le hk, htakes⟩
  have hback : ∀ k, c.text ≤ k → Takes (suffix pattern (c.pattern + 1)) (suffix text k) →
      Takes (suffix pattern c.pattern) (suffix text c.text) := by
    intro k hk htakes
    rw [suffix_eq_cons hp, hstar, takes_star_iff hhead]
    refine ⟨k - c.text, ?_⟩
    rwa [drop_suffix, Nat.add_sub_cancel' hk]
  refine ⟨⟨h.text_le, hp, ?_, ?_, ?_⟩, ?_, ?_⟩
  · intro p t hlast
    cases hlast
    exact ⟨Nat.lt_succ_self _, Nat.le_refl _⟩
  · intro p t hlast
    cases hlast
    exact Iff.rfl
  · intro p t hlast k hk htakes
    cases hlast
    exact ⟨k, hk, htakes⟩
  · cases hlast : c.lastStar with
    | none =>
      simp only [Cursor.progress, hlast, Option.elim]
      omega
    | some s =>
      have hle := Nat.mul_le_mul_right (pattern.size + 1) (h.star_lt s.1 s.2 hlast).2
      simp only [Cursor.progress, hlast, Option.elim] at hle ⊢
      omega
  · unfold Cursor.Open
    cases hlast : c.lastStar with
    | none =>
      constructor
      · rintro ⟨k, hk, htakes⟩
        exact hback k hk htakes
      · exact hrest c.text (Nat.le_refl _)
    | some s =>
      constructor
      · rintro ⟨k, hk, htakes⟩
        exact ⟨s.2, Nat.le_refl _, (h.here s.1 s.2 hlast).mpr (hback k hk htakes)⟩
      · -- The run of the earlier star may end later; the new star takes up what is between.
        rintro ⟨k, hk, htakes⟩
        obtain ⟨k', hk', htakes⟩ := h.later s.1 s.2 hlast k hk htakes
        exact hrest k' hk' htakes

/-- **The run of the last star is made longer** where the search cannot go on from the cursor. -/
theorem Cursor.Sound.leads_of_backtrack {p t : Nat} (h : c.Sound text pattern)
    (ht : c.text < text.size) (hlast : c.lastStar = some (p, t))
    (hstuck : ¬Takes (suffix pattern c.pattern) (suffix text c.text)) :
    c.Leads text pattern ⟨t + 1, p + 1, some (p, t + 1)⟩ := by
  obtain ⟨hp, hle⟩ := h.star_lt p t hlast
  have hpattern := h.pattern_le
  refine ⟨⟨by dsimp only; omega, by dsimp only; omega, ?_, ?_, ?_⟩, ?_, ?_⟩
  · intro p' t' heq
    cases heq
    exact ⟨Nat.lt_succ_self _, Nat.le_refl _⟩
  · intro p' t' heq
    cases heq
    exact Iff.rfl
  · intro p' t' heq k hk htakes
    cases heq
    exact ⟨k, hk, htakes⟩
  · simp only [Cursor.progress, hlast, Option.elim]
    rw [Nat.succ_mul]
    omega
  · rw [Cursor.Open, Cursor.Open, hlast]
    constructor
    · rintro ⟨k, hk, htakes⟩
      exact ⟨k, Nat.le_of_succ_le hk, htakes⟩
    · rintro ⟨k, hk, htakes⟩
      -- With the run as it was, the search would have to go on from the cursor.
      have hne : t ≠ k := by
        rintro rfl
        exact hstuck ((h.here p t hlast).mp htakes)
      exact ⟨k, Nat.lt_of_le_of_ne hk hne, htakes⟩

/-- **What one step does**: before the end of the text it goes on, or the text is not accepted. -/
theorem Cursor.Sound.step_cases (h : c.Sound text pattern) (ht : c.text < text.size) :
    (∃ c', step text pattern c = .next c' ∧ c.Leads text pattern c') ∨
      (step text pattern c = .mismatch ∧ ¬c.Open text pattern) := by
  have hbacktrack : ¬Takes (suffix pattern c.pattern) (suffix text c.text) →
      (∃ c', c.backtrack = .next c' ∧ c.Leads text pattern c') ∨
        (c.backtrack = .mismatch ∧ ¬c.Open text pattern) := by
    intro hstuck
    unfold Cursor.backtrack
    cases hlast : c.lastStar with
    | none =>
      refine Or.inr ⟨rfl, ?_⟩
      rwa [Cursor.Open, hlast]
    | some s => exact Or.inl ⟨_, rfl, h.leads_of_backtrack ht hlast hstuck⟩
  unfold step
  rw [dif_pos ht]
  by_cases hp : c.pattern < pattern.size
  · rw [dif_pos hp]
    by_cases hfits : pattern[c.pattern] = question ∨ pattern[c.pattern] = text[c.text]
    · rw [if_pos hfits]
      exact Or.inl ⟨_, rfl, h.leads_of_fits ht hp hfits⟩
    · rw [if_neg hfits]
      by_cases hstar : pattern[c.pattern] = star
      · rw [if_pos hstar]
        have hfree : text[c.text] ≠ star := fun heq => hfits (Or.inr (hstar.trans heq.symm))
        exact Or.inl ⟨_, rfl, h.leads_of_star ht hp hstar hfree⟩
      · rw [if_neg hstar]
        refine hbacktrack ?_
        rw [suffix_eq_cons hp, suffix_eq_cons ht]
        exact not_takes_cons hstar hfits
  · -- The pattern is used up and the text is not.
    rw [dif_neg hp]
    refine hbacktrack ?_
    rw [suffix_eq_nil (Nat.not_lt.mp hp), suffix_eq_cons ht]
    intro htakes
    cases htakes

/-- Progress ends with the star at the end of the text and the cursor at the end of the pattern. -/
theorem Cursor.Sound.progress_lt (h : c.Sound text pattern) :
    c.progress pattern < (text.size + 1) * (pattern.size + 1) := by
  have hpattern := h.pattern_le
  have hstar : c.lastStar.elim 0 Prod.snd ≤ text.size := by
    cases hlast : c.lastStar with
    | none => exact Nat.zero_le _
    | some s => exact Nat.le_trans (h.star_lt s.1 s.2 hlast).2 h.text_le
  have hle := Nat.mul_le_mul_right (pattern.size + 1) hstar
  rw [Cursor.progress, Nat.succ_mul]
  omega

/-- At the end of the text the rest of the pattern has to be stars. -/
theorem Cursor.Sound.open_iff (h : c.Sound text pattern) (ht : ¬c.text < text.size) :
    c.Open text pattern ↔ (pattern.toList.drop c.pattern).all (fun b => b == star) = true := by
  have hnil : ∀ k, c.text ≤ k → suffix text k = [] := fun k hk => suffix_eq_nil (by omega)
  rw [← takes_nil_iff, Cursor.Open]
  cases hlast : c.lastStar with
  | none =>
    dsimp only
    rw [hnil c.text (Nat.le_refl _)]
  | some s =>
    constructor
    · -- A longer run leads to no earlier place, and there is nothing behind the end.
      rintro ⟨k, hk, htakes⟩
      obtain ⟨k', hk', htakes⟩ := h.later s.1 s.2 hlast k hk htakes
      rwa [hnil k' hk'] at htakes
    · intro htakes
      rw [← hnil c.text (Nat.le_refl _)] at htakes
      exact ⟨s.2, Nat.le_refl _, (h.here s.1 s.2 hlast).mpr htakes⟩

/-- **The loop of a search**, whose passes may break off: from a cursor it comes to an end after the
given number of passes, at the end of the text with the cursor that it has then, or without one on a
mismatch. -/
inductive Loop (pass : Cursor → Option Step) : Nat → Cursor → Option Cursor → Prop
  /-- At the end of the text no pass is made. -/
  | done {c : Cursor} (h : pass c = some .endOfText) : Loop pass 0 c (some c)
  /-- A mismatch leaves the loop in the middle of a pass. -/
  | refused {c : Cursor} (h : pass c = some .mismatch) : Loop pass 1 c none
  /-- Any other pass is followed by the next one. -/
  | again {c c' : Cursor} {n : Nat} {r : Option Cursor} (h : pass c = some (.next c'))
      (hrest : Loop pass n c' r) : Loop pass (n + 1) c r

/-- **A search is the loop** of its steps, if it is allowed more of them than the loop has passes. -/
theorem Loop.search_eq {n : Nat} {r : Option Cursor}
    (h : Loop (fun c => some (step text pattern c)) n c r) {fuel : Nat} (hfuel : n < fuel) :
    search text pattern fuel c = r := by
  induction h generalizing fuel with
  | done h =>
    cases fuel with
    | zero => omega
    | succ fuel => rw [search, Option.some.inj h]
  | refused h =>
    cases fuel with
    | zero => omega
    | succ fuel => rw [search, Option.some.inj h]
  | again h hrest ih =>
    cases fuel with
    | zero => omega
    | succ fuel =>
      rw [search, Option.some.inj h]
      exact ih (Nat.lt_of_succ_lt_succ hfuel)

/-- **The loop comes to an end**: it makes no more passes than there is progress to make, and decides
whether the text can be accepted. -/
theorem Cursor.Sound.exists_loop (h : c.Sound text pattern) :
    ∃ n r, Loop (fun c => some (step text pattern c)) n c r ∧
      n + c.progress pattern ≤ (text.size + 1) * (pattern.size + 1) ∧
      ((∃ c', r = some c' ∧ c'.Sound text pattern ∧ ¬c'.text < text.size ∧
          (c'.Open text pattern ↔ c.Open text pattern)) ∨
        (r = none ∧ ¬c.Open text pattern)) := by
  -- What is left of the progress becomes less with every pass.
  obtain ⟨left, hleft⟩ := Nat.exists_eq_add_of_lt h.progress_lt
  induction left using Nat.strongRecOn generalizing c with
  | ind left ih =>
    by_cases ht : c.text < text.size
    · rcases h.step_cases ht with ⟨c', hstep, hlead⟩ | ⟨hstep, hopen⟩
      · have hlt := hlead.progress_lt
        obtain ⟨left', hleft'⟩ := Nat.exists_eq_add_of_lt hlead.sound.progress_lt
        obtain ⟨n, r, hloop, hn, hr⟩ := ih left' (by omega) hlead.sound hleft'
        rw [hlead.open_iff] at hr
        exact ⟨n + 1, r, .again (congrArg some hstep) hloop, by omega, hr⟩
      · exact ⟨1, none, .refused (congrArg some hstep), by omega, Or.inr ⟨rfl, hopen⟩⟩
    · have hstep : step text pattern c = .endOfText := by
        unfold step
        rw [dif_neg ht]
      exact ⟨0, some c, .done (congrArg some hstep), by omega, Or.inl ⟨c, rfl, h, ht, Iff.rfl⟩⟩

/-- **What a search comes to**, given a step for every bit of progress that can be made. -/
theorem search_spec (fuel : Nat) (h : c.Sound text pattern)
    (hfuel : bound text pattern ≤ fuel + c.progress pattern) :
    (∃ c', search text pattern fuel c = some c' ∧ c'.Sound text pattern ∧
        ¬c'.text < text.size ∧ (c'.Open text pattern ↔ c.Open text pattern)) ∨
      (search text pattern fuel c = none ∧ ¬c.Open text pattern) := by
  obtain ⟨n, r, hloop, hn, hr⟩ := h.exists_loop
  unfold bound at hfuel
  rw [hloop.search_eq (by omega : n < fuel)]
  exact hr

end Search

/-! ## Patterns and texts -/

section Language

variable {pattern text : List UInt8}

/-- **The search decides what a pattern takes.** -/
theorem matchBytes_iff_takes (text pattern : List UInt8) :
    matchBytes text pattern = true ↔ Takes pattern text := by
  have hspec := search_spec _ (Cursor.sound_start text.toArray pattern.toArray)
    (Nat.le_add_right (bound text.toArray pattern.toArray) _)
  have hopen : Cursor.start.Open text.toArray pattern.toArray ↔ Takes pattern text := Iff.rfl
  rw [hopen] at hspec
  unfold matchBytes
  rcases hspec with ⟨c, hc, hsound, hend, hiff⟩ | ⟨hc, hnot⟩
  · rw [hc, ← hiff, hsound.open_iff hend]
  · rw [hc]
    exact iff_of_false Bool.false_ne_true hnot

/-- What a pattern takes it covers. -/
theorem Takes.covers (h : Takes pattern text) : Covers pattern text := by
  induction h with
  | nil => exact .nil
  | byte hfits _ ih => exact ih.cons hfits
  | run run _ _ ih => exact .star run ih

/-- No star meets a star where the text or the pattern is without one. -/
theorem Covers.takes (h : Covers pattern text) (hplain : Glob.star ∉ text ∨ Glob.star ∉ pattern) :
    Takes pattern text := by
  have hrest : ∀ {b c : UInt8} {pattern text : List UInt8},
      Glob.star ∉ c :: text ∨ Glob.star ∉ b :: pattern →
        Glob.star ∉ text ∨ Glob.star ∉ pattern :=
    fun hp => hp.imp (fun h hm => h (List.mem_cons_of_mem _ hm))
      fun h hm => h (List.mem_cons_of_mem _ hm)
  induction h with
  | nil => exact .nil
  | star run h ih =>
    have htext := hplain.resolve_right fun hpattern => hpattern List.mem_cons_self
    refine .run run (fun hhead => htext (List.mem_of_mem_head? hhead)) (ih (Or.inl ?_))
    exact fun hm => htext (List.mem_append_right run hm)
  | question b h ih => exact .byte (Or.inl rfl) (ih (hrest hplain))
  | byte hstar hquestion h ih => exact .byte (Or.inr rfl) (ih (hrest hplain))

/-- **The search decides what a pattern covers**, for a text without the byte of a star. -/
theorem matchBytes_iff (htext : star ∉ text) (pattern : List UInt8) :
    matchBytes text pattern = true ↔ Covers pattern text :=
  (matchBytes_iff_takes text pattern).trans ⟨Takes.covers, fun h => h.takes (Or.inl htext)⟩

/-- Nothing is left to the empty pattern. -/
theorem takes_empty_iff : Takes [] text ↔ text = [] := by
  constructor
  · intro h
    cases h
    rfl
  · rintro rfl
    exact .nil

/-- A single star takes every text but those that go on behind a star. -/
theorem takes_single_star_iff : Takes [star] text ↔ text.head? ≠ some star ∨ text = [star] := by
  by_cases hhead : text.head? = some star
  · obtain ⟨rest, rfl⟩ := List.head?_eq_some_iff.mp hhead
    rw [takes_cons_iff_of_fits (Or.inr rfl), takes_empty_iff]
    simp
  · rw [takes_star_iff hhead]
    exact iff_of_true ⟨text.length, takes_empty_iff.mpr List.drop_length⟩ (Or.inl hhead)

/-- **What the search says of patterns and texts**, byte by byte of their UTF-8. A byte of the
pattern that fits the next byte of the text takes it, a star that meets a star too, and any other
star stands for a run. So nothing is accepted that the pattern does not cover, and all that it
covers is accepted if the text or the pattern is without a star. The pattern `*` accepts every text
but those that go on behind a star at their front. -/
theorem covers_law (pattern text : String) :
    (covers pattern text = true ↔ Takes (Utf8.ofString pattern) (Utf8.ofString text)) ∧
      (covers pattern text = true → Covers (Utf8.ofString pattern) (Utf8.ofString text)) ∧
      (star ∉ Utf8.ofString text ∨ star ∉ Utf8.ofString pattern →
        (covers pattern text = true ↔ Covers (Utf8.ofString pattern) (Utf8.ofString text))) ∧
      (covers "*" text = true ↔
        (Utf8.ofString text).head? ≠ some star ∨ Utf8.ofString text = [star]) := by
  have htakes : ∀ p, covers p text = true ↔ Takes (Utf8.ofString p) (Utf8.ofString text) :=
    fun p => matchBytes_iff_takes (Utf8.ofString text) (Utf8.ofString p)
  refine ⟨htakes pattern, fun h => ((htakes pattern).mp h).covers, ?_, ?_⟩
  · intro hplain
    exact (htakes pattern).trans ⟨Takes.covers, fun h => h.takes hplain⟩
  · have hstar : Utf8.ofString "*" = [star] := by decide
    rw [htakes, hstar, takes_single_star_iff]

/-- **A pattern that covers a text may refuse it**: the star of the pattern takes the star of the
text, and then there is none left for what follows. -/
theorem not_covers_iff_of_leading_star :
    ¬(covers "*" "*a" = true ↔ Covers (Utf8.ofString "*") (Utf8.ofString "*a")) := by
  have hpattern : Utf8.ofString "*" = [star] := by decide
  have htext : Utf8.ofString "*a" = [star, 97] := by decide
  have hcovers : Covers [star] [star, 97] := .star [star, 97] .nil
  have hrefused : covers "*" "*a" = false := by decide
  rw [hpattern, htext, hrefused]
  exact fun h => Bool.false_ne_true (h.mpr hcovers)

end Language

end Glob

end RpcDaemon
