import Stratum.Wire.Format

/-!
# Encoding

The bytes that write a value of a given format, and those of a list of fields one after another. A
length that does not fit into its prefix is refused; the bounds of the value types keep that from
happening.
-/

namespace Stratum

/-- The bytes of a number below `2 ^ 24`. -/
def encodeU24 (v : Nat) : Except CodecFault Bytes :=
  if v ≤ 0xFFFFFF then .ok (Bytes.ofNatLE 3 v) else .error .u24Range

/-- The bytes of a length in a prefix of one, two or three bytes. -/
def encodeLength (n width : Nat) : Except CodecFault Bytes :=
  match width with
  | 1 => if n ≤ 0xFF then .ok (Bytes.ofNatLE 1 n) else .error (.lengthOverPrefix 1)
  | 2 => if n ≤ 0xFFFF then .ok (Bytes.ofNatLE 2 n) else .error (.lengthOverPrefix 2)
  | 3 => encodeU24 n
  | _ => .error .prefixWidth

/-- The bytes of a value. -/
def WireFormat.encode : (f : WireFormat) → f.Value → Except CodecFault Bytes
  | .u8, (v : UInt8) => .ok [v]
  | .u16, (v : UInt16) => .ok (Bytes.ofNatLE 2 v.toNat)
  | .u24, (v : U24) => encodeU24 v.val.toNat
  | .u32, (v : UInt32) => .ok (Bytes.ofNatLE 4 v.toNat)
  | .u64, (v : UInt64) => .ok (Bytes.ofNatLE 8 v.toNat)
  | .f32, (v : Binary32) => .ok (Bytes.ofNatLE 4 v.bits.toNat)
  | .bool, (v : Bool) => .ok [if v then 1 else 0]
  | .u256, (v : FixedBytes 32) => .ok v.toBytes
  | .signature, (v : FixedBytes 64) => .ok v.toBytes
  | .bytes b, (v : ByteString b) => do return (← encodeLength v.toBytes.length b.width) ++ v.toBytes
  | .text b, (v : Text b) => do return (← encodeLength v.toBytes.length b.width) ++ v.toBytes
  | .sequence item b, (v : Sequence item.Value b) => do
    let count ← encodeLength v.toList.length b.width
    let items ← v.toList.mapM item.encode
    return count ++ items.flatten

/-- The bytes of a list of fields. -/
def Fields.encode : (fs : List WireFormat) → Fields fs → Except CodecFault Bytes
  | [], _ => .ok []
  | f :: fs, (v, vs) => do return (← f.encode v) ++ (← Fields.encode fs vs)

end Stratum
