import RpcDaemon.Decimal.Binary64
import RpcDaemon.Text.Numeral

/-!
# Shortest decimal text of a floating point number

The digits are the fewest that read back as the number, and of those the nearest to it. A grid of
decimals with `n` digits holds such a decimal exactly when one of the two grid points next to the
number reads back, so `n` goes up from one until the first grid with a hit.
-/

namespace RpcDaemon

/-- A positive decimal: an integer of digits times a power of ten. -/
structure Decimal where
  /-- The digits as an integer. -/
  digits : Nat
  /-- The power of ten that scales them. -/
  exponent : Int
deriving DecidableEq

namespace Decimal

/-- The decimal as a numerator and a denominator. -/
def ratio (d : Decimal) : Nat × Nat :=
  (d.digits * Nat.pow 10 d.exponent.toNat, Nat.pow 10 (-d.exponent).toNat)

/-- The same decimal without zeros at the end of its digits; `fuel` bounds their number. -/
def stripZeros : Nat → Decimal → Decimal
  | 0, d => d
  | fuel + 1, d =>
      if d.digits % 10 = 0 ∧ d.digits ≠ 0 then
        stripZeros fuel ⟨d.digits / 10, d.exponent + 1⟩
      else d

end Decimal

namespace Binary64

/-- The rationals that round to a positive finite number: twice-scaled bounds over a common
denominator, both included or both excluded. -/
structure Interval where
  /-- Numerator of the lower bound. -/
  low : Nat
  /-- Numerator of the number itself. -/
  value : Nat
  /-- Numerator of the upper bound. -/
  high : Nat
  /-- The common denominator. -/
  den : Nat
  /-- Whether the bounds belong to the interval. -/
  closed : Bool

/-- The rationals that round to `x`. Below a power of two the next number is half as far away. -/
def interval (x : Binary64) : Interval :=
  let m := x.significand
  let unit4 := Nat.pow 2 x.scale
  let below := if m = unit ∧ 0 < x.scale then 1 else 2
  { low := (4 * m - below) * unit4
    value := 4 * m * unit4
    high := (4 * m + 2) * unit4
    den := 4 * Nat.pow 2 1074
    closed := m % 2 == 0 }

/-- Whether the rational `num / den` lies in the interval. -/
def Interval.contains (i : Interval) (num den : Nat) : Bool :=
  let a := num * i.den
  if i.closed then decide (i.low * den ≤ a ∧ a ≤ i.high * den)
  else decide (i.low * den < a ∧ a < i.high * den)

/-- The greatest power of ten not above `num / den`, for a positive quotient. -/
def floorLog10 (num den : Nat) : Int :=
  if den ≤ num then ((Numeral.digits (num / den)).length : Int) - 1
  else
    let k := (Numeral.digits (den / num)).length
    if den ≤ num * Nat.pow 10 (k - 1) then 1 - (k : Int) else -(k : Int)

/-- The grid point with exponent `e` that reads back and is nearest to the number, if there is
one; a tie goes to the even digit. -/
def Interval.onGrid? (i : Interval) (e : Int) : Option Decimal :=
  let up := Nat.pow 10 (-e).toNat
  let down := Nat.pow 10 e.toNat
  let num := i.value * up
  let den := i.den * down
  let q := num / den
  let hit := fun n : Nat => decide (0 < n) && i.contains (n * down) up
  match hit q, hit (q + 1) with
  | false, false => none
  | true, false => some ⟨q, e⟩
  | false, true => some ⟨q + 1, e⟩
  | true, true => some ⟨roundQuotient num den, e⟩

/-- Tries grids of finer and finer exponents. -/
def Interval.shortestFrom (i : Interval) : Nat → Int → Option Decimal
  | 0, _ => none
  | fuel + 1, e =>
      match i.onGrid? e with
      | some d => some d
      | none => i.shortestFrom fuel (e - 1)

/-- The shortest decimal that reads back as the positive finite number `x`. -/
def shortest (x : Binary64) : Decimal :=
  let i := x.interval
  match i.shortestFrom 18 (floorLog10 i.value i.den) with
  | some d => d.stripZeros 20
  | none => ⟨0, 0⟩

end Binary64

end RpcDaemon
