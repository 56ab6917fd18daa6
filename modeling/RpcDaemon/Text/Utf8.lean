/-!
# UTF-8

Encoding of characters as bytes, and two readings of bytes as characters: the strict one refuses
every malformed sequence, the forgiving one puts U+FFFD in the place of each maximal malformed
piece. Both are read off one function, `Utf8.pieces`, which cuts a byte string into characters
and malformed pieces.
-/

namespace RpcDaemon

namespace Utf8

/-- The bytes of one character. -/
def encodeChar (c : Char) : List UInt8 :=
  let n := c.toNat
  if n < 0x80 then [UInt8.ofNat n]
  else if n < 0x800 then [UInt8.ofNat (0xC0 + n / 64), UInt8.ofNat (0x80 + n % 64)]
  else if n < 0x10000 then
    [UInt8.ofNat (0xE0 + n / 4096), UInt8.ofNat (0x80 + n / 64 % 64),
      UInt8.ofNat (0x80 + n % 64)]
  else
    [UInt8.ofNat (0xF0 + n / 262144), UInt8.ofNat (0x80 + n / 4096 % 64),
      UInt8.ofNat (0x80 + n / 64 % 64), UInt8.ofNat (0x80 + n % 64)]

/-- The bytes of a run of characters. -/
def encode (cs : List Char) : List UInt8 :=
  cs.flatMap encodeChar

/-- The bytes of a string. -/
def ofString (s : String) : List UInt8 :=
  encode s.toList

/-- What the first byte of a longer sequence promises: how many bytes follow, the range of the
next one, and the bits the first byte contributes. -/
structure Lead where
  /-- Number of bytes that follow. -/
  follow : Nat
  /-- Least value of the next byte. -/
  low : Nat
  /-- Greatest value of the next byte. -/
  high : Nat
  /-- Bits taken from the first byte. -/
  bits : Nat

/-- The promise of a byte that can start a sequence of two to four bytes. The ranges of the second
byte rule out overlong forms, surrogates and code points above U+10FFFF. -/
def lead? (b : Nat) : Option Lead :=
  if 0xC2 ≤ b ∧ b ≤ 0xDF then some ⟨1, 0x80, 0xBF, b - 0xC0⟩
  else if b = 0xE0 then some ⟨2, 0xA0, 0xBF, 0⟩
  else if b = 0xED then some ⟨2, 0x80, 0x9F, 0xD⟩
  else if 0xE1 ≤ b ∧ b ≤ 0xEF then some ⟨2, 0x80, 0xBF, b - 0xE0⟩
  else if b = 0xF0 then some ⟨3, 0x90, 0xBF, 0⟩
  else if 0xF1 ≤ b ∧ b ≤ 0xF3 then some ⟨3, 0x80, 0xBF, b - 0xF0⟩
  else if b = 0xF4 then some ⟨3, 0x80, 0x8F, 4⟩
  else none

/-- Reads `n` continuation bytes after the bits `acc`. A byte that does not continue the sequence
ends it there and is left unread. -/
def tails : Nat → Nat → List UInt8 → Option Char × List UInt8
  | 0, acc, s => (some (Char.ofNat acc), s)
  | _ + 1, _, [] => (none, [])
  | n + 1, acc, b :: s =>
      if 0x80 ≤ b.toNat ∧ b.toNat ≤ 0xBF then tails n (acc * 64 + (b.toNat - 0x80)) s
      else (none, b :: s)

/-- Reads the character or the malformed piece that starts with `b`. -/
def piece (b : UInt8) (s : List UInt8) : Option Char × List UInt8 :=
  if b.toNat < 0x80 then (some (Char.ofNat b.toNat), s)
  else
    match lead? b.toNat, s with
    | some l, c :: s' =>
        if l.low ≤ c.toNat ∧ c.toNat ≤ l.high then
          tails (l.follow - 1) (l.bits * 64 + (c.toNat - 0x80)) s'
        else (none, s)
    | _, _ => (none, s)

/-- Continuation bytes are only taken away. -/
theorem length_tails_le (n acc : Nat) (s : List UInt8) :
    (tails n acc s).2.length ≤ s.length := by
  induction n generalizing acc s with
  | zero => simp [tails]
  | succ n ih =>
    cases s with
    | nil => simp [tails]
    | cons b s =>
      simp only [tails]
      split
      · exact Nat.le_succ_of_le (ih _ s)
      · simp

/-- A piece leaves no more than stood after its first byte. -/
theorem length_piece_le (b : UInt8) (s : List UInt8) : (piece b s).2.length ≤ s.length := by
  unfold piece
  split
  · simp
  · split
    · split
      · rename_i c s' _ _
        exact Nat.le_succ_of_le (length_tails_le _ _ s')
      · simp
    · simp

/-- A byte string cut into characters and malformed pieces (`none`). -/
def pieces : List UInt8 → List (Option Char)
  | [] => []
  | b :: s => (piece b s).1 :: pieces (piece b s).2
termination_by s => s.length
decreasing_by exact Nat.lt_succ_of_le (length_piece_le b s)

/-- The characters of a well-formed byte string. -/
def decode? (s : List UInt8) : Option (List Char) :=
  (pieces s).mapM id

/-- The characters of any byte string, with U+FFFD for each malformed piece. -/
def decodeLossy (s : List UInt8) : List Char :=
  (pieces s).map fun p => p.getD (Char.ofNat 0xFFFD)

/-- The string of a well-formed byte string. -/
def toString? (s : List UInt8) : Option String :=
  (decode? s).map String.ofList

end Utf8

end RpcDaemon
