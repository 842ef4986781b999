import Stratum.Bytes
import Stratum.Text.Utf8
import Stratum.Wire.Fault

/-!
# Wire values

The types of the values that messages are made of. Numbers of 8, 16, 32 and 64 bits and truth values are
those of the language; the others are here, each with the bound that makes it writable:

* `U24`: numbers of 24 bits;
* `Binary32`: floating-point numbers, kept as their 32 bits, so that every NaN is itself;
* `ByteString b`, `Text b`, `Sequence α b`: byte strings, UTF-8 strings and sequences, whose length is
  written in front of them within the bound `b`.

A value that breaks its bound cannot be built; the checked constructors say why.
-/

namespace Stratum

/-- A number below `2 ^ 24`. -/
structure U24 where
  /-- The number. -/
  val : UInt32
  /-- It takes at most three bytes. -/
  le : val ≤ 0xFFFFFF
  deriving DecidableEq

/-- The number, if it is below `2 ^ 24`. -/
def U24.ofUInt32 (v : UInt32) : Except CodecFault U24 :=
  if h : v ≤ 0xFFFFFF then .ok ⟨v, h⟩ else .error .u24Range

/-- A floating-point number of the IEEE format binary32, as its bits. -/
structure Binary32 where
  /-- Sign, eight bits of exponent and 23 bits of fraction, from the top. -/
  bits : UInt32
  deriving DecidableEq

namespace Binary32

instance : Inhabited Binary32 := ⟨⟨0⟩⟩

/-- The bits without the sign. -/
def magnitude (x : Binary32) : UInt32 := x.bits &&& 0x7FFFFFFF

/-- Whether the value is no number. -/
def isNaN (x : Binary32) : Bool := 0x7F800000 < x.magnitude

/-- Whether the value is a finite number. -/
def isFinite (x : Binary32) : Bool := x.magnitude < 0x7F800000

/-- Whether the value is zero, of either sign. -/
def isZero (x : Binary32) : Bool := x.magnitude == 0

/-- Whether the value is a number and not below zero. -/
def isNonNegative (x : Binary32) : Bool := !x.isNaN && (x.bits < 0x80000000 || x.isZero)

/-- Equality of numbers: the two zeros are equal, and a NaN equals nothing. -/
def equal (x y : Binary32) : Bool :=
  !x.isNaN && !y.isNaN && (x.bits == y.bits || (x.isZero && y.isZero))

end Binary32

/-- How the length of a value is bounded and written: at most `max`, in `width` bytes. -/
structure LengthBound where
  /-- The greatest length. -/
  max : Nat
  /-- The number of bytes of the length prefix. -/
  width : Nat
  /-- Prefixes have one, two or three bytes. -/
  width_mem : 1 ≤ width ∧ width ≤ 3 := by decide
  /-- The prefix can hold every length up to `max`. -/
  max_lt : max < Bytes.capacity width := by decide
  deriving DecidableEq

namespace LengthBound

/-- At most 32, in one byte. -/
def upTo32 : LengthBound := { max := 32, width := 1 }

/-- At most 255, in one byte. -/
def upTo255 : LengthBound := { max := 255, width := 1 }

/-- At most 65 535, in two bytes. -/
def upTo64K : LengthBound := { max := 65535, width := 2 }

/-- At most 16 777 215, in three bytes. -/
def upTo16M : LengthBound := { max := 16777215, width := 3 }

end LengthBound

/-- A byte string within a bound. -/
structure ByteString (b : LengthBound) where
  /-- The bytes. -/
  toBytes : Bytes
  /-- There are not too many of them. -/
  length_le : toBytes.length ≤ b.max
  deriving DecidableEq

namespace ByteString

variable {b : LengthBound}

/-- The byte string, if it is within the bound. -/
def ofBytes (bs : Bytes) : Except CodecFault (ByteString b) :=
  if h : bs.length ≤ b.max then .ok ⟨bs, h⟩ else .error .bytesTooLong

instance : Inhabited (ByteString b) := ⟨[], Nat.zero_le _⟩

end ByteString

/-- A UTF-8 string within a bound on its bytes. -/
structure Text (b : LengthBound) where
  /-- The bytes. -/
  toBytes : Bytes
  /-- There are not too many of them. -/
  length_le : toBytes.length ≤ b.max
  /-- They are UTF-8. -/
  valid : Utf8.isValid toBytes = true
  deriving DecidableEq

namespace Text

variable {b : LengthBound}

/-- The string, if it is within the bound and UTF-8. -/
def ofBytes (bs : Bytes) : Except CodecFault (Text b) :=
  if hl : bs.length ≤ b.max then
    if hv : Utf8.isValid bs = true then .ok ⟨bs, hl, hv⟩ else .error .textNotUtf8
  else .error .textTooLong

instance : Inhabited (Text b) := ⟨[], Nat.zero_le _, rfl⟩

/-- A text that is known to be within the bound. -/
def ofString (s : String) (length_le : (Utf8.ofString s).length ≤ b.max := by decide)
    (valid : Utf8.isValid (Utf8.ofString s) = true := by decide) : Text b :=
  ⟨Utf8.ofString s, length_le, valid⟩

end Text

/-- A sequence within a bound on its number of items. -/
structure Sequence (α : Type) (b : LengthBound) where
  /-- The items. -/
  toList : List α
  /-- There are not too many of them. -/
  length_le : toList.length ≤ b.max
  deriving DecidableEq

namespace Sequence

variable {α : Type} {b : LengthBound}

/-- The sequence, if it is within the bound. -/
def ofList (items : List α) : Except CodecFault (Sequence α b) :=
  if h : items.length ≤ b.max then .ok ⟨items, h⟩ else .error .sequenceTooLong

instance : Inhabited (Sequence α b) := ⟨[], Nat.zero_le _⟩

end Sequence

end Stratum
