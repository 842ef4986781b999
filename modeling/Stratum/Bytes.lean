/-!
# Byte strings

Byte strings are lists of bytes. This module holds what every layer above needs of them: numbers in
little-endian order, strings of a fixed length, and the cut of a string into pieces of a fixed size.

* `toNatLE_ofNatLE`, `ofNatLE_toNatLE`: the little-endian form is a bijection between the numbers below
  `capacity n` and the strings of `n` bytes.
* `flatten_chunks`: the pieces of a string, one after another, are the string.
-/

namespace Stratum

/-- A byte string. -/
abbrev Bytes := List UInt8

namespace Bytes

/-! ### Little-endian numbers -/

/-- How many numbers `n` bytes can write. -/
def capacity : Nat → Nat
  | 0 => 1
  | n + 1 => 256 * capacity n

/-- The `n` low bytes of a number, least significant first. -/
def ofNatLE : Nat → Nat → Bytes
  | 0, _ => []
  | n + 1, v => UInt8.ofNat v :: ofNatLE n (v / 256)

/-- The number that a byte string denotes, least significant byte first. -/
def toNatLE : Bytes → Nat
  | [] => 0
  | b :: bs => b.toNat + 256 * toNatLE bs

@[simp] theorem length_ofNatLE (n v : Nat) : (ofNatLE n v).length = n := by
  induction n generalizing v with
  | zero => rfl
  | succ n ih => simp [ofNatLE, ih]

theorem toNatLE_lt (bs : Bytes) : toNatLE bs < capacity bs.length := by
  induction bs with
  | nil => simp [toNatLE, capacity]
  | cons b bs ih =>
    have hb : b.toNat < 256 := b.toNat_lt
    simp only [toNatLE, List.length_cons, capacity]
    omega

theorem toNatLE_ofNatLE {n v : Nat} (h : v < capacity n) : toNatLE (ofNatLE n v) = v := by
  induction n generalizing v with
  | zero => simp [capacity] at h; simp [ofNatLE, toNatLE, h]
  | succ n ih =>
    have hv : v / 256 < capacity n := by rw [capacity] at h; omega
    simp only [ofNatLE, toNatLE, ih hv, UInt8.toNat_ofNat']
    omega

theorem ofNatLE_toNatLE (bs : Bytes) : ofNatLE bs.length (toNatLE bs) = bs := by
  induction bs with
  | nil => rfl
  | cons b bs ih =>
    have hb : b.toNat < 256 := b.toNat_lt
    have hq : (b.toNat + 256 * toNatLE bs) / 256 = toNatLE bs := by omega
    have hr : UInt8.ofNat (b.toNat + 256 * toNatLE bs) = b := by
      apply UInt8.toNat_inj.1
      rw [UInt8.toNat_ofNat']
      omega
    simp only [List.length_cons, toNatLE, ofNatLE, hq, hr, ih]

/-! ### Pieces of a fixed size -/

/-- Cuts a string into pieces of `n` bytes; the last piece holds what is left, and is never empty.
Nothing is cut when `n` is zero. -/
def chunks (n : Nat) (bs : Bytes) : List Bytes :=
  if _h : bs = [] ∨ n = 0 then [] else bs.take n :: chunks n (bs.drop n)
termination_by bs.length
decreasing_by
  have : bs.length ≠ 0 := fun h0 => _h (.inl (List.length_eq_zero_iff.1 h0))
  simp only [List.length_drop]
  omega

theorem flatten_chunks {n : Nat} (hn : n ≠ 0) (bs : Bytes) : (chunks n bs).flatten = bs := by
  fun_induction chunks n bs with
  | case1 bs h => simpa [hn, eq_comm] using h
  | case2 bs h ih => simp [ih, List.take_append_drop]

/-- The bytewise exclusive or of two strings, as long as the shorter one. -/
def xor (a b : Bytes) : Bytes := List.zipWith (· ^^^ ·) a b

end Bytes

/-! ### Strings of a fixed length -/

/-- A string of exactly `n` bytes. -/
structure FixedBytes (n : Nat) where
  /-- The bytes. -/
  toBytes : Bytes
  /-- There are `n` of them. -/
  length_eq : toBytes.length = n
  deriving DecidableEq

namespace FixedBytes

/-- The string itself, if it has the length. -/
def ofBytes? {n : Nat} (bs : Bytes) : Option (FixedBytes n) :=
  if h : bs.length = n then some ⟨bs, h⟩ else none

/-- The first `n` bytes, filled up with zeros. -/
def padded (n : Nat) (bs : Bytes) : FixedBytes n :=
  ⟨bs.take n ++ List.replicate (n - bs.length) 0, by simp; omega⟩

/-- `n` times the same byte. -/
def replicate (n : Nat) (b : UInt8) : FixedBytes n :=
  ⟨List.replicate n b, List.length_replicate⟩

/-- The little-endian form of a number. -/
def ofNatLE (n v : Nat) : FixedBytes n :=
  ⟨Bytes.ofNatLE n v, Bytes.length_ofNatLE n v⟩

instance {n : Nat} : Inhabited (FixedBytes n) := ⟨replicate n 0⟩

@[ext] theorem ext {n : Nat} {a b : FixedBytes n} (h : a.toBytes = b.toBytes) : a = b := by
  cases a; cases b; simp_all

@[simp] theorem ofBytes?_toBytes {n : Nat} (a : FixedBytes n) : ofBytes? a.toBytes = some a := by
  simp [ofBytes?, a.length_eq]

end FixedBytes

/-- A key of 32 bytes: of a cipher, of a Diffie-Hellman exchange or of a signature scheme. -/
abbrev Key := FixedBytes 32

/-- A digest of 32 bytes. -/
abbrev Digest := FixedBytes 32

/-- A signature of 64 bytes. -/
abbrev Signature := FixedBytes 64

end Stratum
