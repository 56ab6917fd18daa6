/-!
# Suggested passwords

A password of letters and digits made from random numbers. With 44 characters of 62 it carries about
256 bits.
-/

namespace RpcDaemon

namespace Password

/-- The characters of a password. -/
def alphabet : List Char :=
  "ABCDEFGHIJKLMNOPQRSTUVWXYZabcdefghijklmnopqrstuvwxyz0123456789".toList

/-- The number of characters. -/
def length : Nat := 44

/-- The character that a random number stands for. -/
def char (n : Nat) : Char :=
  alphabet.getD (n % alphabet.length) 'A'

/-- The password made from the random numbers `draw 0`, `draw 1` and so on. -/
def ofDraws (draw : Nat → Nat) : String :=
  String.ofList ((List.range length).map fun i => char (draw i))

end Password

end RpcDaemon
