/-!
# Binary floating point with 64 bits

A number is its 64 bits. Every operation is the exact rational result, rounded to the nearest
representable number, a tie going to the even one; `Binary64.roundRatio` is that rounding.
-/

namespace RpcDaemon

/-- A floating point number by its bits: sign, 11 bits of exponent, 52 bits of fraction. -/
structure Binary64 where
  /-- The bits. -/
  bits : UInt64
deriving DecidableEq

namespace Binary64

/-- The weight of the exponent field. -/
def unit : Nat := 4503599627370496

/-- The bits of positive infinity. -/
def infinityBits : Nat := 2047 * unit

/-- The bits without the sign. -/
def magnitude (x : Binary64) : Nat :=
  x.bits.toNat % 9223372036854775808

/-- Whether the sign bit is set. -/
def negative (x : Binary64) : Bool :=
  decide (9223372036854775808 ≤ x.bits.toNat)

/-- The number with the given sign and bits. -/
def ofMagnitude (negative : Bool) (magnitude : Nat) : Binary64 :=
  ⟨UInt64.ofNat (if negative then 9223372036854775808 + magnitude else magnitude)⟩

/-- Whether `x` is no number. -/
def isNaN (x : Binary64) : Bool :=
  decide (infinityBits < x.magnitude)

/-- Whether `x` is one of the two infinities. -/
def isInfinite (x : Binary64) : Bool :=
  decide (x.magnitude = infinityBits)

/-- Whether `x` is a rational number. -/
def isFinite (x : Binary64) : Bool :=
  decide (x.magnitude < infinityBits)

/-- Whether `x` is one of the two zeros. -/
def isZero (x : Binary64) : Bool :=
  decide (x.magnitude = 0)

/-- Positive zero. -/
def zero : Binary64 := ofMagnitude false 0

/-- The quiet NaN. -/
def nan : Binary64 := ofMagnitude false (infinityBits + unit / 2)

/-- The infinity of a sign. -/
def infinity (negative : Bool) : Binary64 := ofMagnitude negative infinityBits

/-- The number with the other sign. -/
def neg (x : Binary64) : Binary64 :=
  ofMagnitude (!x.negative) x.magnitude

/-- The integer significand of a finite number. -/
def significand (x : Binary64) : Nat :=
  if x.magnitude < unit then x.magnitude else x.magnitude % unit + unit

/-- The exponent that goes with the significand: the number is significand times 2 to it, less
1074. -/
def scale (x : Binary64) : Nat :=
  x.magnitude / unit - 1

/-- The absolute value of a finite number as a numerator and a denominator. -/
def ratio (x : Binary64) : Nat × Nat :=
  (x.significand * Nat.pow 2 x.scale, Nat.pow 2 1074)

/-- The quotient of `num` and `den` to the nearest integer, a tie going to the even one. -/
def roundQuotient (num den : Nat) : Nat :=
  let q := num / den
  let twice := 2 * (num % den)
  if twice < den then q
  else if den < twice then q + 1
  else if q % 2 = 0 then q
  else q + 1

/-- The least scale at which `num / den` has no more than 53 bits before the point; scale `s`
counts units of 2 to the power `s - 1074`. -/
def scaleOf (num den : Nat) : Nat :=
  let up := Nat.log2 num + 1074
  let down := Nat.log2 den + 52
  let s := up - down
  if num * Nat.pow 2 1074 / (den * Nat.pow 2 s) < unit then s - 1 else s

/-- The number nearest to `num / den`, with the given sign. -/
def roundRatio (negative : Bool) (num den : Nat) : Binary64 :=
  if num = 0 then ofMagnitude negative 0
  else
    let s := scaleOf num den
    let m := s * unit + roundQuotient (num * Nat.pow 2 1074) (den * Nat.pow 2 s)
    ofMagnitude negative (if infinityBits ≤ m then infinityBits else m)

/-- The number nearest to `n`. -/
def ofNat (n : Nat) : Binary64 :=
  roundRatio false n 1

/-- The product. -/
def mul (x y : Binary64) : Binary64 :=
  let sign := x.negative != y.negative
  if x.isNaN || y.isNaN then nan
  else if x.isInfinite || y.isInfinite then
    if x.isZero || y.isZero then nan else infinity sign
  else
    let (a, b) := x.ratio
    let (c, d) := y.ratio
    roundRatio sign (a * c) (b * d)

/-- The quotient. -/
def div (x y : Binary64) : Binary64 :=
  let sign := x.negative != y.negative
  if x.isNaN || y.isNaN then nan
  else if x.isInfinite then if y.isInfinite then nan else infinity sign
  else if y.isInfinite then ofMagnitude sign 0
  else if y.isZero then if x.isZero then nan else infinity sign
  else
    let (a, b) := x.ratio
    let (c, d) := y.ratio
    roundRatio sign (a * d) (b * c)

end Binary64

end RpcDaemon
