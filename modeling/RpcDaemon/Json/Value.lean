import RpcDaemon.Decimal.Shortest
import RpcDaemon.Json.Document

/-!
# Values and documents

`Json.document` writes a value down; `Document.value?` reads the value that a document denotes.
A document denotes no value if it nests too deeply, if a surrogate stands alone, or if a number is
too large. Numbers with a point or an exponent are not rounded correctly: the digits that fit a
word are scaled by one power of ten, with one rounding for the digits, one for the power and one
for the product.
-/

namespace RpcDaemon

namespace Json

/-- Which numbers are written without an exponent: those whose leading digit stands for a power of
ten from `lowest` to `highest`. -/
structure FloatLayout where
  /-- The least positional power. -/
  lowest : Int
  /-- The greatest positional power. -/
  highest : Int

/-- Numbers from 0.00001 to below 10000000000000000 are positional; a point always has a digit on
either side, and an exponent has no plus sign. -/
def layout : FloatLayout := ⟨-5, 15⟩

/-- The text of a positive decimal whose digits are `ds`, scaled by ten to the power `e`. -/
def NumberText.ofDigits (negative : Bool) (ds : List Digit) (e : Int) : NumberText :=
  let lead := e + ds.length - 1
  if layout.lowest ≤ lead ∧ lead ≤ layout.highest then
    if 0 ≤ e then ⟨negative, ds ++ List.replicate e.toNat .zero, some [.zero], none⟩
    else if 0 ≤ lead then
      ⟨negative, ds.take (lead + 1).toNat, some (ds.drop (lead + 1).toNat), none⟩
    else ⟨negative, [.zero], some (List.replicate (-lead - 1).toNat .zero ++ ds), none⟩
  else
    let rest := ds.drop 1
    ⟨negative, ds.take 1, if rest.isEmpty then none else some rest,
      some (decide (lead < 0), Numeral.digits lead.natAbs)⟩

/-- The text of a finite floating point number: the fewest digits that read back. -/
def NumberText.ofBinary64 (x : Binary64) : NumberText :=
  if x.isZero then ⟨x.negative, [.zero], some [.zero], none⟩
  else
    let d := x.shortest
    NumberText.ofDigits x.negative (Numeral.digits d.digits) d.exponent

/-- A number as a document; what is no rational number is `null`. -/
def Number.document : Number → Document
  | .int n => Document.ofInt n.val
  | .float x => if x.isFinite then .number (NumberText.ofBinary64 x) else .null

mutual

/-- A value as a document. -/
def document : Json → Document
  | .null => .null
  | .bool b => .bool b
  | .number n => Number.document n
  | .string s => Document.ofString s
  | .array items => .array (documentItems items)
  | .object members => .object (documentMembers members)

/-- Items as documents. -/
def documentItems : List Json → List Document
  | [] => []
  | v :: rest => document v :: documentItems rest

/-- Members as documents. -/
def documentMembers : List (String × Json) → List (List Piece × Document)
  | [] => []
  | (k, v) :: rest => (Document.pieces k, document v) :: documentMembers rest

end

/-- The compact text of a value. -/
def text (v : Json) : String :=
  v.document.text

/-! ## Reading numbers -/

/-- The greatest unsigned integer of 64 bits, and one. -/
def wordLimit : Nat := 18446744073709551616

/-- The digits gathered in a word: the leading ones whose number stays below the limit, and the
number of those that are left. -/
def gather : Nat → List Digit → Nat × Nat
  | n, [] => (n, 0)
  | n, d :: ds =>
      if n * 10 + d.val < wordLimit then gather (n * 10 + d.val) ds else (n, ds.length + 1)

/-- Scales down by powers of ten, of which the greatest is ten to the power 308. -/
def scaleDown (f : Binary64) (e : Nat) : Binary64 :=
  if e ≤ 308 then f.div (Binary64.ofNat (Nat.pow 10 e))
  else if f.isZero then f
  else scaleDown (f.div (Binary64.ofNat (Nat.pow 10 308))) (e - 308)
termination_by e
decreasing_by omega

/-- `significand` times ten to the power `e`; nothing if it is too large. -/
def scaled? (significand : Nat) (e : Int) : Option Binary64 :=
  let f := Binary64.ofNat significand
  if e < 0 then some (scaleDown f e.natAbs)
  else if e ≤ 308 then
    let p := f.mul (Binary64.ofNat (Nat.pow 10 e.toNat))
    if p.isInfinite then none else some p
  else if f.isZero then some f
  else none

/-- The greatest exponent that is counted. -/
def exponentLimit : Nat := 2147483647

/-- An exponent kept within the signed integers of 32 bits. -/
def saturate (e : Int) : Int :=
  if e < -2147483648 then -2147483648 else if 2147483647 < e then 2147483647 else e

/-- The size of a number with a point, with an exponent, or too large for a word. -/
def NumberText.float? (n : NumberText) : Option Binary64 :=
  let (s, left) := gather 0 n.whole
  let fraction := n.fraction.getD []
  let (s, after) :=
    match gather s fraction with
    | (s', unread) => (s', fraction.length - unread)
  let start : Int := (left : Int) - (after : Int)
  match n.exponent with
  | none => scaled? s start
  | some (neg, ds) =>
      let e := Digit.value ds
      if exponentLimit < e then
        if s = 0 ∨ neg then some Binary64.zero else none
      else scaled? s (saturate (if neg then start - e else start + e))

/-- The number that a text denotes. Without point and exponent it is an integer if it fits, but
minus zero is a floating point number. -/
def NumberText.value? (n : NumberText) : Option Number :=
  let float := (n.float?).map fun x => Number.float (if n.negative then x.neg else x)
  if n.fraction.isNone ∧ n.exponent.isNone then
    let m := Digit.value n.whole
    if n.negative then
      if h : 0 < m ∧ m ≤ 9223372036854775808 then
        some (.int ⟨-(m : Int), by omega, by omega⟩)
      else float
    else if h : m < 18446744073709551616 then some (.int ⟨m, by omega, by omega⟩)
    else float
  else float

/-! ## Reading strings -/

/-- The characters of a string; two halves of a surrogate pair that follow one another make one
character, any other half makes none. -/
def Piece.decode? : List Piece → Option (List Char)
  | [] => some []
  | .char c :: rest => (decode? rest).map (c :: ·)
  | .surrogate high :: .surrogate low :: rest =>
      if 0xD800 ≤ high ∧ high < 0xDC00 ∧ 0xDC00 ≤ low ∧ low < 0xE000 then
        (decode? rest).map
          (Char.ofNat (0x10000 + (high - 0xD800) * 0x400 + (low - 0xDC00)) :: ·)
      else none
  | _ => none

/-- The string of a piece list. -/
def Piece.string? (s : List Piece) : Option String :=
  (Piece.decode? s).map String.ofList

/-! ## Reading documents -/

mutual

/-- The value of a document whose arrays and objects nest at most `limit` deep. -/
def Document.value? (limit : Nat) : Document → Option Json
  | .null => some .null
  | .bool b => some (.bool b)
  | .number n => (n.value?).map .number
  | .string s => (Piece.string? s).map .string
  | .array items =>
      match limit with
      | 0 => none
      | limit + 1 => (itemValues? limit items).map .array
  | .object members =>
      match limit with
      | 0 => none
      | limit + 1 => (memberValues? limit members []).map .object

/-- The values of items. -/
def itemValues? (limit : Nat) : List Document → Option (List Json)
  | [] => some []
  | d :: rest =>
      match d.value? limit, itemValues? limit rest with
      | some v, some vs => some (v :: vs)
      | _, _ => none

/-- The members put one by one into the sorted list `acc`. -/
def memberValues? (limit : Nat) :
    List (List Piece × Document) → List (String × Json) → Option (List (String × Json))
  | [], acc => some acc
  | (k, d) :: rest, acc =>
      match Piece.string? k, d.value? limit with
      | some name, some v => memberValues? limit rest (Members.insert name v acc)
      | _, _ => none

end

end Json

end RpcDaemon
