import RpcDaemon.Decimal.Reading
import RpcDaemon.Json.Basic

/-!
# Amounts

Amounts count base units, of which a coin has a hundred million. A reply shows an amount in coins,
as the floating point number nearest to its exact decimal text.
-/

namespace RpcDaemon

namespace Amount

/-- Base units in a coin. -/
def coin : Nat := 100000000

/-- The amount in coins: an optional minus sign, the whole coins, a point and eight digits. -/
def chars (amount : Int64) : List Char :=
  let n := amount.toInt
  (if n < 0 then ['-'] else []) ++ Numeral.ofNat (n.natAbs / coin) ++ '.' ::
    Numeral.padded 8 (n.natAbs % coin)

/-- The JSON number for an amount. -/
def toJson (amount : Int64) : Json :=
  match Binary64.ofText? (chars amount) with
  | some x => Json.ofBinary64 x
  | none => .null

end Amount

end RpcDaemon
