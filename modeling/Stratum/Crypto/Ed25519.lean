import Stratum.Crypto.Field25519
import Stratum.Crypto.Sha512

/-!
# Ed25519

The signature scheme of RFC 8032 on the twisted Edwards curve `-x² + y² = 1 + d x² y²`. A verifier computes
the commitment of a signature from its second half and compares it with the first half byte by byte; the
second half has to be below the group order.
-/

namespace Stratum.Ed25519

open Field25519

/-- The order of the base point. -/
def order : Nat := Nat.pow 2 252 + 27742317777372353535851937790883648493

/-- The constant of the curve: `-121665 / 121666`. -/
def d : Nat := sub 0 (mul 121665 (inv 121666))

/-- A point as `(X : Y : Z)` with `T = X Y / Z`. -/
structure Point where
  /-- Numerator of the x-coordinate. -/
  x : Nat
  /-- Numerator of the y-coordinate. -/
  y : Nat
  /-- Common denominator. -/
  z : Nat
  /-- Product of the coordinates times the denominator. -/
  t : Nat

namespace Point

/-- The neutral element. -/
def zero : Point := ⟨0, 1, 1, 0⟩

/-- The point with the given coordinates. -/
def ofAffine (x y : Nat) : Point := ⟨x, y, 1, mul x y⟩

/-- The inverse of a point. -/
def neg (p : Point) : Point := ⟨sub 0 p.x, p.y, p.z, sub 0 p.t⟩

/-- The sum of two points. The formula has no exceptions. -/
def add (p q : Point) : Point :=
  let a := mul (sub p.y p.x) (sub q.y q.x)
  let b := mul (Field25519.add p.y p.x) (Field25519.add q.y q.x)
  let c := mul (mul p.t q.t) (mul 2 d)
  let e := mul 2 (mul p.z q.z)
  let f := sub b a
  let g := sub e c
  let h := Field25519.add e c
  let i := Field25519.add b a
  ⟨mul f g, mul h i, mul g h, mul f i⟩

/-- A multiple of a point, by doubling. -/
def smul (n : Nat) (p : Point) : Point :=
  if n = 0 then zero
  else
    let h := smul (n / 2) p
    if n % 2 = 1 then add (add h h) p else add h h
termination_by n
decreasing_by omega

/-- The 32 bytes of a point: its y-coordinate, with the parity of x in the top bit. -/
def encode (p : Point) : Key :=
  let r := inv p.z
  FixedBytes.ofNatLE 32 (mul p.y r + (mul p.x r % 2) * Nat.pow 2 255)

/-- The x-coordinate that belongs to a y-coordinate, of the given parity unless it is zero. -/
def recoverX (y parity : Nat) : Option Nat :=
  let yy := mul y y
  let u := sub yy 1
  let v := Field25519.add (mul d yy) 1
  let v3 := mul (mul v v) v
  let x := mul (mul u v3) (pow (mul u (mul (mul v3 v3) v)) ((prime - 5) / 8))
  let square := mul v (mul x x)
  let root :=
    if square = u then some x
    else if square = sub 0 u then some (mul x sqrtMinusOne)
    else none
  root.map fun x => if x % 2 = parity then x else sub 0 x

/-- The point that 32 bytes write. A y-coordinate need not be reduced. -/
def decode? (bs : Key) : Option Point :=
  let n := Bytes.toNatLE bs.toBytes
  let y := n % Nat.pow 2 255 % prime
  (recoverX y (n / Nat.pow 2 255)).map fun x => ofAffine x y

/-- The base point, whose y-coordinate is `4 / 5` and whose x-coordinate is even. -/
def base : Point :=
  let y := mul 4 (inv 5)
  ofAffine ((recoverX y 0).getD 0) y

end Point

/-- The scalar of a private key, and the secret that its signatures are derived from. -/
def expandKey (key : Key) : Nat × Bytes :=
  let h := (Sha512.hash key.toBytes).toBytes
  let n := Bytes.toNatLE (h.take 32)
  (n % Nat.pow 2 254 / 8 * 8 + Nat.pow 2 254, h.drop 32)

/-- The public key of a private key. -/
def publicKey (key : Key) : Key := (Point.base.smul (expandKey key).1).encode

/-- The digest of a text as a scalar. -/
def hashScalar (text : Bytes) : Nat := Bytes.toNatLE (Sha512.hash text).toBytes % order

/-- The signature of a text. -/
def sign (key : Key) (text : Bytes) : Signature :=
  let (a, secret) := expandKey key
  let r := hashScalar (secret ++ text)
  let commitment := (Point.base.smul r).encode.toBytes
  let k := hashScalar (commitment ++ (publicKey key).toBytes ++ text)
  FixedBytes.padded 64 (commitment ++ Bytes.ofNatLE 32 ((r + k * a) % order))

/-- Whether a signature of a text is right under a public key. -/
def verify (key : Key) (text : Bytes) (signature : Signature) : Bool :=
  let commitment := signature.toBytes.take 32
  let s := Bytes.toNatLE (signature.toBytes.drop 32)
  match Point.decode? key with
  | none => false
  | some a =>
    let k := hashScalar (commitment ++ key.toBytes ++ text)
    s < order && ((Point.base.smul s).add (a.neg.smul k)).encode.toBytes == commitment

end Stratum.Ed25519
