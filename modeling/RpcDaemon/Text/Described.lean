import RpcDaemon.Text.Hex

/-!
# Descriptions for people

Strings in double quotes as they appear in descriptions: control characters, blanks other than the
space, format characters, private characters and combining marks are written by their code points.
-/

namespace RpcDaemon

namespace Described

/-- Ranges of code points that have no glyph of their own: controls, blanks, format characters,
private and reserved characters. -/
def unseen : List (Nat × Nat) :=
  [(0x0, 0x1F), (0x7F, 0xA0), (0xAD, 0xAD), (0x600, 0x605), (0x61C, 0x61C), (0x6DD, 0x6DD),
    (0x70F, 0x70F), (0x890, 0x891), (0x8E2, 0x8E2), (0x1680, 0x1680), (0x180E, 0x180E),
    (0x2000, 0x200F), (0x2028, 0x202F), (0x205F, 0x206F), (0x3000, 0x3000), (0xE000, 0xF8FF),
    (0xFDD0, 0xFDEF), (0xFEFF, 0xFEFF), (0xFFF0, 0xFFFB), (0xFFFE, 0xFFFF), (0x110BD, 0x110BD),
    (0x110CD, 0x110CD), (0x13430, 0x1343F), (0x1BCA0, 0x1BCA3), (0x1D173, 0x1D17A),
    (0x1FFFE, 0x1FFFF), (0x323B0, 0x10FFFF)]

/-- Ranges of code points that attach to the character before them. -/
def attached : List (Nat × Nat) :=
  [(0x300, 0x36F), (0x483, 0x489), (0x591, 0x5BD), (0x5BF, 0x5BF), (0x5C1, 0x5C2), (0x5C4, 0x5C5),
    (0x5C7, 0x5C7), (0x610, 0x61A), (0x64B, 0x65F), (0x670, 0x670), (0x6D6, 0x6DC),
    (0x6DF, 0x6E4), (0x6E7, 0x6E8), (0x6EA, 0x6ED), (0x711, 0x711), (0x730, 0x74A),
    (0x7A6, 0x7B0), (0x7EB, 0x7F3), (0x900, 0x902), (0x93C, 0x93C), (0x941, 0x948),
    (0x94D, 0x94D), (0x951, 0x957), (0xE31, 0xE31), (0xE34, 0xE3A), (0xE47, 0xE4E),
    (0x1AB0, 0x1ACE), (0x1DC0, 0x1DFF), (0x20D0, 0x20F0), (0x302A, 0x302F), (0x3099, 0x309A),
    (0xFE00, 0xFE0F), (0xFE20, 0xFE2F), (0xFF9E, 0xFF9F)]

/-- Whether a code point lies in one of the ranges. -/
def inRanges (ranges : List (Nat × Nat)) (n : Nat) : Bool :=
  ranges.any fun r => decide (r.1 ≤ n) && decide (n ≤ r.2)

/-- A character within a description. -/
def charText (c : Char) : List Char :=
  let n := c.toNat
  if c = '"' then ['\\', '"']
  else if c = '\\' then ['\\', '\\']
  else if n = 0 then ['\\', '0']
  else if n = 9 then ['\\', 't']
  else if n = 10 then ['\\', 'n']
  else if n = 13 then ['\\', 'r']
  else if inRanges unseen n || inRanges attached n then
    ['\\', 'u', '{'] ++ Hex.ofNat n ++ ['}']
  else [c]

/-- A string in quotes. -/
def string (s : String) : String :=
  String.ofList ('"' :: s.toList.flatMap charText ++ ['"'])

/-- A list of strings in brackets. -/
def strings (ss : List String) : String :=
  "[" ++ ", ".intercalate (ss.map string) ++ "]"

/-- A truth value. -/
def bool (b : Bool) : String :=
  if b then "true" else "false"

end Described

end RpcDaemon
