/-!
# The field of the curves

Arithmetic modulo `2 ^ 255 - 19`, the field over which both curves of the protocol are defined.
-/

namespace Stratum.Field25519

/-- The modulus. -/
def prime : Nat := Nat.pow 2 255 - 19

/-- The sum of two elements. -/
def add (x y : Nat) : Nat := (x + y) % prime

/-- The difference of two elements, of which the second is reduced. -/
def sub (x y : Nat) : Nat := (x + (prime - y)) % prime

/-- The product of two elements. -/
def mul (x y : Nat) : Nat := x * y % prime

/-- A power of an element, by squaring. -/
def pow (x n : Nat) : Nat :=
  if n = 0 then 1
  else
    let h := pow x (n / 2)
    if n % 2 = 1 then mul (mul h h) x else mul h h
termination_by n
decreasing_by omega

/-- The inverse of an element, and zero for zero. -/
def inv (x : Nat) : Nat := pow x (prime - 2)

/-- A square root of -1. -/
def sqrtMinusOne : Nat := pow 2 ((prime - 1) / 4)

end Stratum.Field25519
