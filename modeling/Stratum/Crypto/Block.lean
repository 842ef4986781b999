import Stratum.Bytes

/-!
# Blocks of words

The cipher and the hash functions work on blocks of words. A word of a block is chosen by its number, counted
from zero. Blocks of words of 32 bits are read from bytes and written to bytes in little-endian order.
-/

namespace Stratum

/-- A block of `n` words. -/
abbrev Block (α : Type) (n : Nat) := Vector α n

namespace Block

variable {α : Type} {n : Nat}

/-- The word with a number; the default one if there are not so many. -/
def get [Inhabited α] (b : Block α n) (i : Nat) : α := b.toArray.getD i default

/-- A block with another word in the place of one; the same block if there are not so many. -/
def put (b : Block α n) (i : Nat) (w : α) : Block α n := b.setIfInBounds i w

/-- The first `n` words of a byte string. -/
def ofBytes (n : Nat) (bs : Bytes) : Block UInt32 n :=
  Vector.ofFn fun i => UInt32.ofNat (Bytes.toNatLE ((bs.drop (4 * i.val)).take 4))

/-- The bytes of a block. -/
def toBytes (b : Block UInt32 n) : Bytes :=
  b.toList.flatMap fun w => Bytes.ofNatLE 4 w.toNat

end Block

end Stratum
