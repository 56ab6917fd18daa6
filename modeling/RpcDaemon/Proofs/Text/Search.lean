import RpcDaemon.Proofs.Text.Glob

/-!
# The work of a search

A search is a loop that goes back: to the last star of the pattern, and to where the run of that
star ends in the text. It comes to an end all the same, because the run of the last star never ends
earlier than before, and until it is made longer the pattern is passed over at most once. Here every
place that a pass reads is checked, `pass?`. Main statement: `loop_bounded`.
-/

namespace RpcDaemon

namespace Glob

/-! ## Places that may be out of range -/

section Reads

variable (text pattern : Array UInt8) (c : Cursor)

/-- Whether the byte of the pattern fits the byte of the text. The pattern is read first, and the
text only if the byte is no question mark. There is no answer if a place is out of range. -/
def fits? : Option Bool :=
  if c.pattern < pattern.size then do
    let b ← pattern[c.pattern]?
    if b = question then return true
    else return decide (b = (← text[c.text]?))
  else return false

/-- Whether the byte of the pattern is a star. There is no answer if the place is out of range. -/
def atStar? : Option Bool :=
  if c.pattern < pattern.size then return decide ((← pattern[c.pattern]?) = star)
  else return false

/-- **One pass through the loop**, with every place that is read checked. -/
def pass? : Option Step :=
  if c.text < text.size then do
    if ← fits? text pattern c then
      return .next { c with text := c.text + 1, pattern := c.pattern + 1 }
    else if ← atStar? pattern c then
      return .next { c with pattern := c.pattern + 1, lastStar := some (c.pattern, c.text) }
    else return c.backtrack
  else return .endOfText

/-- What is left of a pattern from a place on, if the place is in range. -/
def rest? (pattern : List UInt8) (n : Nat) : Option (List UInt8) :=
  if n ≤ pattern.length then some (pattern.drop n) else none

/-- The answer at the end of the loop: the text is used up and only stars are left. -/
def answer? (pattern : List UInt8) : Option Cursor → Option Bool
  | some c => do return (← rest? pattern c.pattern).all fun b => b == star
  | none => some false

variable {text pattern c}

theorem fits?_eq (ht : c.text < text.size) (hp : c.pattern < pattern.size) :
    fits? text pattern c =
      some (decide (pattern[c.pattern] = question ∨ pattern[c.pattern] = text[c.text])) := by
  unfold fits?
  rw [if_pos hp, Array.getElem?_eq_getElem hp, Array.getElem?_eq_getElem ht]
  simp only [Option.bind_eq_bind, Option.bind_some]
  by_cases hquestion : pattern[c.pattern] = question
  · rw [if_pos hquestion, decide_eq_true (Or.inl hquestion)]
    rfl
  · rw [if_neg hquestion, decide_eq_decide.mpr (or_iff_right hquestion)]
    rfl

theorem atStar?_eq (hp : c.pattern < pattern.size) :
    atStar? pattern c = some (decide (pattern[c.pattern] = star)) := by
  unfold atStar?
  rw [if_pos hp, Array.getElem?_eq_getElem hp, Option.bind_eq_bind, Option.bind_some]
  rfl

/-- **A pass reads no place that is out of range.** -/
theorem pass?_eq (text pattern : Array UInt8) (c : Cursor) :
    pass? text pattern c = some (step text pattern c) := by
  unfold pass? step
  by_cases ht : c.text < text.size
  · rw [if_pos ht, dif_pos ht]
    by_cases hp : c.pattern < pattern.size
    · rw [dif_pos hp, fits?_eq ht hp, atStar?_eq hp]
      simp only [Option.bind_eq_bind, Option.bind_some, decide_eq_true_eq]
      split
      · rfl
      · split <;> rfl
    · have hfits : fits? text pattern c = some false := if_neg hp
      have hstar : atStar? pattern c = some false := if_neg hp
      rw [dif_neg hp, hfits, hstar]
      rfl
  · rw [if_neg ht, dif_neg ht]
    rfl

end Reads

/-! ## The loop -/

/-- A loop runs in one way. -/
theorem Loop.unique {pass : Cursor → Option Step} {c : Cursor} {n n' : Nat} {r r' : Option Cursor}
    (h : Loop pass n c r) (h' : Loop pass n' c r') : n = n' ∧ r = r' := by
  induction h generalizing n' r' with
  | done h =>
    cases h' with
    | done h' => exact ⟨rfl, rfl⟩
    | refused h' => cases h.symm.trans h'
    | again h' _ => cases h.symm.trans h'
  | refused h =>
    cases h' with
    | done h' => cases h.symm.trans h'
    | refused h' => exact ⟨rfl, rfl⟩
    | again h' _ => cases h.symm.trans h'
  | again h hrest ih =>
    cases h' with
    | done h' => cases h.symm.trans h'
    | refused h' => cases h.symm.trans h'
    | again h' hrest' =>
      cases h.symm.trans h'
      obtain ⟨rfl, rfl⟩ := ih hrest'
      exact ⟨rfl, rfl⟩

/-- **A search is bounded work and stays in range.** For every text and pattern the loop that starts
at the front of both comes to an end, in one way only, after at most
`(|text| + 1) * (|pattern| + 1)` passes; every pass of it finds the places that it reads in range.
If it ends with the text, its place in the pattern is in range too, so that the rest of the pattern
can be taken. The answer is the one that the search gives. -/
theorem loop_bounded (text pattern : List UInt8) :
    ∃ n r, Loop (pass? text.toArray pattern.toArray) n .start r ∧
      (∀ n' r', Loop (pass? text.toArray pattern.toArray) n' .start r' → n' = n ∧ r' = r) ∧
      n ≤ (text.length + 1) * (pattern.length + 1) ∧
      (∀ c, r = some c → c.pattern ≤ pattern.length) ∧
      answer? pattern r = some (matchBytes text pattern) := by
  have hpass : pass? text.toArray pattern.toArray =
      fun c => some (step text.toArray pattern.toArray c) :=
    funext (pass?_eq text.toArray pattern.toArray)
  obtain ⟨n, r, hloop, hn, hend⟩ :=
    (Cursor.sound_start text.toArray pattern.toArray).exists_loop
  have hbound : n ≤ (text.length + 1) * (pattern.length + 1) := Nat.le_of_add_right_le hn
  have hpattern : ∀ c, r = some c → c.pattern ≤ pattern.length := by
    intro c hc
    rcases hend with ⟨c', hc', hsound, -⟩ | ⟨hnone, -⟩
    · cases hc.symm.trans hc'
      exact hsound.pattern_le
    · cases hc.symm.trans hnone
  have hsearch :
      search text.toArray pattern.toArray (bound text.toArray pattern.toArray) .start = r :=
    hloop.search_eq (Nat.lt_succ_of_le hbound)
  rw [hpass]
  refine ⟨n, r, hloop, fun n' r' h => h.unique hloop, hbound, hpattern, ?_⟩
  rw [matchBytes, hsearch]
  cases r with
  | none => rfl
  | some c =>
    rw [answer?, rest?, if_pos (hpattern c rfl)]
    rfl

end Glob

end RpcDaemon
