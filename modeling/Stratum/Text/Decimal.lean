import Stratum.Bytes

/-!
# Decimal numbers

A number is written with ASCII digits only: no sign, no blank, leading zeros allowed, any length.
-/

namespace Stratum.Decimal

/-- Whether a character is an ASCII digit. -/
def isDigit (c : UInt8) : Bool := 0x30 ≤ c && c ≤ 0x39

/-- The number that a string of digits denotes. -/
def value (digits : Bytes) : Nat :=
  digits.foldl (fun n c => 10 * n + (c.toNat - 0x30)) 0

/-- The number that a text denotes, if it is a non-empty string of digits. -/
def parse? (text : Bytes) : Option Nat :=
  if text ≠ [] ∧ text.all isDigit then some (value text) else none

end Stratum.Decimal
