import Stratum.Wire.Cursor
import Stratum.Wire.Format

/-!
# Decoding

Reading a value of a given format at a cursor. A number, a truth value and a length prefix are read whole
or not at all; a value made of parts may have moved the cursor over the parts before the one that failed.
-/

namespace Stratum

namespace Decoder

/-- A checked constructor as a step of a decoder. -/
def ofExcept {α : Type} (x : Except CodecFault α) : Decoder α := fun c =>
  match x with
  | .ok a => .ok a c
  | .error e => .error e c

/-- `n` values one after another, behind those already read, which are kept last first. -/
def items {α : Type} (item : Decoder α) : (n : Nat) → (before : List α) → Decoder (List α)
  | 0, before => return before.reverse
  | n + 1, before => do
    let a ← item
    items item n (a :: before)

/-- The UTF-8 string in the next `n` bytes. -/
def utf8 (n : Nat) : Decoder Bytes := fun c =>
  if Utf8.isValid (c.rest.take n) then take n c else .error .wireTextNotUtf8 c

end Decoder

/-- Reads a value. -/
def WireFormat.decode : (f : WireFormat) → Decoder f.Value
  | .u8 => return UInt8.ofNat (← Decoder.number 1)
  | .u16 => return UInt16.ofNat (← Decoder.number 2)
  | .u24 => do Decoder.ofExcept (U24.ofUInt32 (UInt32.ofNat (← Decoder.number 3)))
  | .u32 => return UInt32.ofNat (← Decoder.number 4)
  | .u64 => return UInt64.ofNat (← Decoder.number 8)
  | .f32 => return (⟨UInt32.ofNat (← Decoder.number 4)⟩ : Binary32)
  | .bool => Decoder.bool
  | .u256 => return FixedBytes.padded 32 (← Decoder.take 32)
  | .signature => return FixedBytes.padded 64 (← Decoder.take 64)
  | .bytes b => do
    let n ← Decoder.length b.width b.max
    Decoder.ofExcept (ByteString.ofBytes (← Decoder.take n))
  | .text b => do
    let n ← Decoder.length b.width b.max
    Decoder.ofExcept (Text.ofBytes (← Decoder.utf8 n))
  | .sequence item b => do
    let n ← Decoder.length b.width b.max
    Decoder.ofExcept (Sequence.ofList (← Decoder.items item.decode n []))

/-- Reads a list of fields one after another. -/
def Fields.decode : (fs : List WireFormat) → Decoder (Fields fs)
  | [] => return ()
  | f :: fs => do
    let v ← f.decode
    let vs ← Fields.decode fs
    return (v, vs)

end Stratum
