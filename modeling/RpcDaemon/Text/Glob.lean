import RpcDaemon.Text.Utf8

/-!
# Glob patterns over bytes

A pattern byte `*` stands for a run of bytes, `?` for one byte, any other byte for itself. The
search keeps one cursor in the text and one in the pattern and remembers the last star; when a
byte does not fit, that star absorbs one byte more. A byte of the text that equals the pattern
byte is taken before a star is considered.
-/

namespace RpcDaemon

namespace Glob

/-- The byte `*`. -/
def star : UInt8 := 42

/-- The byte `?`. -/
def question : UInt8 := 63

/-- The positions of a search. -/
structure Cursor where
  /-- Position in the text. -/
  text : Nat
  /-- Position in the pattern. -/
  pattern : Nat
  /-- Position of the last star in the pattern, and where its run ends in the text. -/
  lastStar : Option (Nat × Nat)
deriving DecidableEq

/-- The cursor a search starts from. -/
def Cursor.start : Cursor := ⟨0, 0, none⟩

/-- What one step of a search comes to. -/
inductive Step where
  /-- The search goes on. -/
  | next (c : Cursor)
  /-- The text is used up. -/
  | endOfText
  /-- The text does not match. -/
  | mismatch

/-- The last star absorbs one byte more; without a star there is no match. -/
def Cursor.backtrack (c : Cursor) : Step :=
  match c.lastStar with
  | some (p, t) => .next ⟨t + 1, p + 1, some (p, t + 1)⟩
  | none => .mismatch

/-- One step of the search. -/
def step (text pattern : Array UInt8) (c : Cursor) : Step :=
  if ht : c.text < text.size then
    if hp : c.pattern < pattern.size then
      if pattern[c.pattern] = question ∨ pattern[c.pattern] = text[c.text] then
        .next { c with text := c.text + 1, pattern := c.pattern + 1 }
      else if pattern[c.pattern] = star then
        .next { c with pattern := c.pattern + 1, lastStar := some (c.pattern, c.text) }
      else c.backtrack
    else c.backtrack
  else .endOfText

/-- Runs at most `fuel` steps: the cursor at the end of the text, or nothing on a mismatch. -/
def search (text pattern : Array UInt8) : Nat → Cursor → Option Cursor
  | 0, _ => none
  | fuel + 1, c =>
      match step text pattern c with
      | .next c' => search text pattern fuel c'
      | .endOfText => some c
      | .mismatch => none

/-- A number of steps that every search fits in. -/
def bound (text pattern : Array UInt8) : Nat :=
  (text.size + 1) * (pattern.size + 1) + 1

/-- Whether the pattern covers the text: the search reaches the end of the text and what is left
of the pattern is stars. -/
def matchBytes (text pattern : List UInt8) : Bool :=
  match search text.toArray pattern.toArray (bound text.toArray pattern.toArray) .start with
  | some c => (pattern.drop c.pattern).all fun b => b == star
  | none => false

/-- Whether the pattern covers the text, byte by byte of their UTF-8. -/
def covers (pattern text : String) : Bool :=
  matchBytes (Utf8.ofString text) (Utf8.ofString pattern)

end Glob

end RpcDaemon
