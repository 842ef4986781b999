import Stratum.Bytes

/-!
# Poly1305

The one-time authenticator: the pieces of a text are the coefficients of a polynomial, which
is evaluated at a secret point modulo `2 ^ 130 - 5` and hidden by a secret summand.
-/

namespace Stratum.Poly1305

/-- The modulus. -/
def prime : Nat := Nat.pow 2 130 - 5

/-- The bits of the secret point that may be set. -/
def clampMask : Nat := 0x0ffffffc0ffffffc0ffffffc0fffffff

/-- The value of the polynomial whose coefficients are the 16-byte pieces of a text, each with a 1 set
behind its last byte. -/
def evaluate (point : Nat) (text : Bytes) : Nat :=
  (Bytes.chunks 16 text).foldl
    (fun acc piece => (acc + Bytes.toNatLE (piece ++ [1])) * point % prime) 0

/-- The tag of a text under a one-time key. -/
def tag (key : Key) (text : Bytes) : FixedBytes 16 :=
  let point := Bytes.toNatLE (key.toBytes.take 16) &&& clampMask
  let summand := Bytes.toNatLE (key.toBytes.drop 16)
  FixedBytes.ofNatLE 16 (evaluate point text + summand)

end Stratum.Poly1305
