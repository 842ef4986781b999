import Stratum.Bytes
import Stratum.Crypto.Field25519

/-!
# X25519

The Diffie-Hellman function of RFC 7748: scalar multiplication on a Montgomery curve by its x-coordinate
alone. A public key of small order gives the all-zero secret, which is refused.
-/

namespace Stratum.X25519

open Field25519

/-- A scalar as it is used: a multiple of 8 between `2 ^ 254` and `2 ^ 255`. -/
def clamp (key : Key) : Key :=
  FixedBytes.padded 32
    ((key.toBytes.mapIdx fun i b =>
      if i = 0 then b &&& 248 else if i = 31 then (b &&& 127) ||| 64 else b))

/-- A point of the ladder: numerator and denominator of its x-coordinate. -/
abbrev Ratio := Nat × Nat

/-- One step of the ladder: of two points whose difference has x-coordinate `x`, doubles the first and
adds the second to it. -/
def step (x : Nat) (p q : Ratio) : Ratio × Ratio :=
  let a := add p.1 p.2
  let aa := mul a a
  let b := sub p.1 p.2
  let bb := mul b b
  let e := sub aa bb
  let da := mul (sub q.1 q.2) a
  let cb := mul (add q.1 q.2) b
  let sum := add da cb
  let difference := sub da cb
  ((mul aa bb, mul e (add aa (mul 121665 e))), (mul sum sum, mul x (mul difference difference)))

/-- The x-coordinate of a multiple of a point, from the top bit of the scalar down. -/
def multiply (scalar x : Nat) : Nat :=
  let start : Ratio × Ratio := ((1, 0), (x, 1))
  let result := (List.range 255).reverse.foldl (fun (s : Ratio × Ratio) i =>
    if scalar.testBit i then (step x s.2 s.1).swap else step x s.1 s.2) start
  mul result.1.1 (inv result.1.2)

/-- The function itself: a private key applied to a coordinate, of which the top bit does not count. -/
def scalarMult (key : Key) (u : Key) : Key :=
  FixedBytes.ofNatLE 32
    (multiply (Bytes.toNatLE (clamp key).toBytes) (Bytes.toNatLE u.toBytes % Nat.pow 2 255 % prime))

/-- The public key of a private key. -/
def publicKey (key : Key) : Key := scalarMult key (FixedBytes.ofNatLE 32 9)

/-- The secret shared with the owner of a public key, unless it is all zeros. -/
def agree (key : Key) (peer : Key) : Option Key :=
  let secret := scalarMult key peer
  if secret = FixedBytes.replicate 32 0 then none else some secret

end Stratum.X25519
