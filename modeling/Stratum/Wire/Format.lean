import Stratum.Wire.Value

/-!
# Wire formats

A format is a description of a type of values and of the bytes that write them. The formats are closed
under sequences, and a message is a list of fields, each with its format; encoding, decoding and equality
are defined once, by recursion on the format.
-/

namespace Stratum

/-- The formats of the protocol. Numbers are little-endian. -/
inductive WireFormat where
  /-- A number of 8 bits. -/
  | u8
  /-- A number of 16 bits. -/
  | u16
  /-- A number of 24 bits. -/
  | u24
  /-- A number of 32 bits. -/
  | u32
  /-- A number of 64 bits. -/
  | u64
  /-- A floating-point number, as its 32 bits. -/
  | f32
  /-- A truth value: one byte, 0 or 1. -/
  | bool
  /-- 32 bytes. -/
  | u256
  /-- 64 bytes. -/
  | signature
  /-- A byte string behind its length. -/
  | bytes (b : LengthBound)
  /-- A UTF-8 string behind its length in bytes. -/
  | text (b : LengthBound)
  /-- A sequence behind its number of items. -/
  | sequence (item : WireFormat) (b : LengthBound)
  deriving DecidableEq

namespace WireFormat

/-- The names of the formats, as messages are specified with them. -/
def names : List (String × WireFormat) :=
  [("u8", u8), ("u16", u16), ("U24", u24), ("u32", u32), ("u64", u64), ("f32", f32), ("bool", bool),
   ("U256", u256), ("Signature64", signature),
   ("B0_32", bytes .upTo32), ("B0_255", bytes .upTo255), ("B0_64K", bytes .upTo64K),
   ("B0_16M", bytes .upTo16M), ("STR0_32", text .upTo32), ("STR0_255", text .upTo255),
   ("SEQ0_255[u8]", sequence u8 .upTo255), ("SEQ0_255[U256]", sequence u256 .upTo255),
   ("SEQ0_64K[u32]", sequence u32 .upTo64K), ("SEQ0_64K[B0_255]", sequence (bytes .upTo255) .upTo64K),
   ("SEQ0_255[STR0_32]", sequence (text .upTo32) .upTo255)]

/-- The format with a given name. -/
def ofName? (name : String) : Option WireFormat := names.lookup name

/-- The values that a format writes. -/
def Value : WireFormat → Type
  | u8 => UInt8
  | u16 => UInt16
  | u24 => U24
  | u32 => UInt32
  | u64 => UInt64
  | f32 => Binary32
  | bool => Bool
  | u256 => FixedBytes 32
  | signature => FixedBytes 64
  | bytes b => ByteString b
  | text b => Text b
  | sequence item b => Sequence item.Value b

/-- Equality of values, with floating-point numbers compared as numbers: a value that holds a NaN is not
equal to itself. -/
def equal : (f : WireFormat) → f.Value → f.Value → Bool
  | u8, (x : UInt8), (y : UInt8) => x == y
  | u16, (x : UInt16), (y : UInt16) => x == y
  | u24, (x : U24), (y : U24) => x.val == y.val
  | u32, (x : UInt32), (y : UInt32) => x == y
  | u64, (x : UInt64), (y : UInt64) => x == y
  | f32, (x : Binary32), (y : Binary32) => x.equal y
  | bool, (x : Bool), (y : Bool) => x == y
  | u256, (x : FixedBytes 32), (y : FixedBytes 32) => x.toBytes == y.toBytes
  | signature, (x : FixedBytes 64), (y : FixedBytes 64) => x.toBytes == y.toBytes
  | bytes _, (x : ByteString _), (y : ByteString _) => x.toBytes == y.toBytes
  | text _, (x : Text _), (y : Text _) => x.toBytes == y.toBytes
  | sequence item _, (x : Sequence _ _), (y : Sequence _ _) =>
    x.toList.length == y.toList.length
      && (List.zipWith item.equal x.toList y.toList).all id

end WireFormat

/-- A value for each of a list of formats, in order. -/
def Fields : List WireFormat → Type
  | [] => Unit
  | f :: fs => f.Value × Fields fs

/-- Equality of all fields. -/
def Fields.equal : (fs : List WireFormat) → Fields fs → Fields fs → Bool
  | [], _, _ => true
  | f :: fs, (x, xs), (y, ys) => f.equal x y && Fields.equal fs xs ys

end Stratum
