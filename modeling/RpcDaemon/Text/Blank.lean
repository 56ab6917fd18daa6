/-!
# Blank characters

The characters with the Unicode property White_Space, trimming, and splitting a text into words.
-/

namespace RpcDaemon

/-- The property White_Space of Unicode. -/
def isBlank (c : Char) : Bool :=
  let n := c.toNat
  (0x09 ≤ n && n ≤ 0x0D) || n == 0x20 || n == 0x85 || n == 0xA0 || n == 0x1680
    || (0x2000 ≤ n && n ≤ 0x200A) || n == 0x2028 || n == 0x2029 || n == 0x202F || n == 0x205F
    || n == 0x3000

namespace Chars

/-- `cs` without the characters of `p` at its end. -/
def trimEndWhile (p : Char → Bool) (cs : List Char) : List Char :=
  (cs.reverse.dropWhile p).reverse

/-- `cs` without blanks at either end. -/
def trim (cs : List Char) : List Char :=
  trimEndWhile isBlank (cs.dropWhile isBlank)

/-- The maximal runs of characters that are not blank, in order; `word` is the run being read. -/
def wordsFrom (word : List Char) : List Char → List (List Char)
  | [] => if word.isEmpty then [] else [word.reverse]
  | c :: cs =>
      if isBlank c then
        if word.isEmpty then wordsFrom [] cs else word.reverse :: wordsFrom [] cs
      else wordsFrom (c :: word) cs

/-- The words of a text: its maximal runs of characters that are not blank. -/
def words (cs : List Char) : List (List Char) :=
  wordsFrom [] cs

/-- The pieces between the separators of a text; a text without separator is one piece. -/
def splitOn (sep : Char) : List Char → List (List Char)
  | [] => [[]]
  | c :: cs =>
      if c = sep then [] :: splitOn sep cs
      else
        match splitOn sep cs with
        | [] => [[c]]
        | piece :: pieces => (c :: piece) :: pieces

/-- The text before and after the first separator, if there is one. -/
def splitFirst? (sep : Char) : List Char → Option (List Char × List Char)
  | [] => none
  | c :: cs =>
      if c = sep then some ([], cs)
      else (splitFirst? sep cs).map fun p => (c :: p.1, p.2)

/-- What follows the leading `head` of `cs`, if `cs` starts with it. -/
def dropHead? : List Char → List Char → Option (List Char)
  | [], cs => some cs
  | _ :: _, [] => none
  | h :: head, c :: cs => if h = c then dropHead? head cs else none

/-- What follows the first occurrence of `mark` in `cs`. -/
def after? (mark : List Char) (cs : List Char) : Option (List Char) :=
  match dropHead? mark cs with
  | some rest => some rest
  | none =>
      match cs with
      | [] => none
      | _ :: cs => after? mark cs

/-- Letters A to Z in lower case, all else unchanged. -/
def lower (cs : List Char) : List Char :=
  cs.map Char.toLower

end Chars

/-- `s` without blanks at either end. -/
def trimmed (s : String) : String :=
  String.ofList (Chars.trim s.toList)

/-- `s` with the letters A to Z in lower case. -/
def lowered (s : String) : String :=
  String.ofList (Chars.lower s.toList)

/-- Equality of texts up to the case of the letters A to Z. -/
def sameIgnoringCase (a b : String) : Bool :=
  Chars.lower a.toList == Chars.lower b.toList

end RpcDaemon
