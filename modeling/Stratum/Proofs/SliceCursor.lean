import Stratum.Proofs.Utf8Validation

/-!
# A cursor over memory

The decoders again, for bytes that lie in memory. A slice is a place in memory and a number of bytes from
there on; what is behind it can be looked at as well as what is in it, and only the checks of the reader keep
it from doing so. Places, lengths and numbers of bytes are words of 64 bits, and sums and differences of them
wrap around.

A reader has a position in the slice, and keeps a record of all places that it looked at. When it fails, it says
why, where it was left, and what it had looked at by then.

What a program can do with a cursor is a `Call`: one of the readers below, or the decoding of a format or of a list
of fields. A program goes on after a call that failed (`Slice.run`).
-/

namespace Stratum

/-- Bytes in memory. -/
structure Slice where
  /-- The byte at a place, counted from the start of the slice. The memory goes on behind its end. -/
  memory : UInt64 → UInt8
  /-- The number of bytes that belong to the slice. -/
  length : UInt64

/-- Where a reader of a slice is. -/
structure SliceCursor where
  /-- The number of bytes before it. -/
  position : UInt64
  /-- The places that were looked at, the last one first. -/
  inspected : List UInt64
  deriving DecidableEq

namespace SliceCursor

/-- Before the first call. -/
def start : SliceCursor := ⟨0, []⟩

end SliceCursor

/-- A reader of values of type `α` from a slice. -/
abbrev SliceReader (α : Type) := EStateM CodecFault SliceCursor α

namespace SliceReader

/-- Moves on by `n` bytes. -/
def advance (n : UInt64) : SliceReader Unit := modify fun c => { c with position := c.position + n }

/-- Moves to a place. -/
def moveTo (place : UInt64) : SliceReader Unit := modify fun c => { c with position := place }

/-- `n` values one after another, behind those already read, which are kept last first. -/
def items {α : Type} (item : SliceReader α) : (n : Nat) → (before : List α) → SliceReader (List α)
  | 0, before => return before.reverse
  | n + 1, before => do
    let a ← item
    items item n (a :: before)

end SliceReader

/-! ### Sums of words that do not wrap -/

namespace Word

theorem toNat_add {a b : UInt64} (h : a.toNat + b.toNat < UInt64.size) : (a + b).toNat = a.toNat + b.toNat := by
  rw [UInt64.toNat_add]
  exact Nat.mod_eq_of_lt h

/-- Where a place lies before the end, the next one is no more than one further on. -/
theorem toNat_add_one {i n : UInt64} (h : i < n) : (i + 1).toNat = i.toNat + 1 := by
  have hi : i.toNat < n.toNat := UInt64.lt_iff_toNat_lt.1 h
  have hn : n.toNat < UInt64.size := n.toNat_lt
  exact toNat_add (by rw [UInt64.toNat_one]; omega)

/-- Where more than `e` bytes lie between a place and the end, the place behind `e + 1` bytes is that far on. -/
theorem toNat_add_succ {i n e : UInt64} (h : i < n) (room : ¬ n - i ≤ e) :
    (i + (e + 1)).toNat = i.toNat + (e.toNat + 1) := by
  have hroom : e.toNat < n.toNat - i.toNat := by
    rw [← UInt64.toNat_sub_of_le _ _ (UInt64.le_of_lt h)]
    exact Nat.lt_of_not_le room
  have hn : n.toNat < UInt64.size := n.toNat_lt
  have he : (e + 1).toNat = e.toNat + 1 := toNat_add (by rw [UInt64.toNat_one]; omega)
  rw [← he]
  exact toNat_add (by rw [he]; omega)

end Word

namespace Slice

open SliceReader (advance moveTo)

variable (sl : Slice)

/-! ### Looking at bytes -/

/-- The byte at a place. -/
def look (place : UInt64) : SliceReader UInt8 := do
  modify fun c => { c with inspected := place :: c.inspected }
  return sl.memory place

/-- The `n` bytes from a place on. -/
def copy : (n : Nat) → (place : UInt64) → SliceReader Bytes
  | 0, _ => return []
  | n + 1, place => do
    let b ← sl.look place
    return b :: (← copy n (place + 1))

/-- The number that the first `n` bytes from a place on write below the digits of `v`, the last byte first. -/
def digits (place : UInt64) : (n : Nat) → (v : UInt64) → SliceReader UInt64
  | 0, v => return v
  | n + 1, v => do
    let b ← sl.look (place + UInt64.ofNat n)
    digits place n (v <<< 8 ||| b.toUInt64)

/-- The code point `v` with the bits of the `n` bytes from a place on, if all of them are continuation bytes. -/
def continuation : (n : Nat) → (place : UInt64) → (v : UInt32) → SliceReader (Option UInt32)
  | 0, _, v => return some v
  | n + 1, place, v => do
    let b ← sl.look place
    if Utf8.isContinuation b then continuation n (place + 1) (v <<< 6 ||| (b &&& 0x3F).toUInt32)
    else return none

/-- Whether the bytes at the places `i` to `n`, counted from `place`, are UTF-8. -/
def isUtf8 (place n i : UInt64) : SliceReader Bool :=
  if _h : i < n then do
    let b ← sl.look (place + i)
    if b < 0x80 then isUtf8 place n (i + 1)
    else
      match Utf8.announcement? b with
      | none => return false
      | some a =>
        if _room : n - i ≤ UInt64.ofNat a.extra then return false
        else
          match ← sl.continuation a.extra (place + (i + 1)) a.bits with
          | none => return false
          | some v =>
            if v < a.least ∨ (0xD800 ≤ v ∧ v ≤ 0xDFFF) ∨ 0x10FFFF < v then return false
            else isUtf8 place n (i + (UInt64.ofNat a.extra + 1))
  else return true
termination_by n.toNat - i.toNat
decreasing_by
  · have hi : i.toNat < n.toNat := UInt64.lt_iff_toNat_lt.1 _h
    rw [Word.toNat_add_one _h]
    omega
  · have hi : i.toNat < n.toNat := UInt64.lt_iff_toNat_lt.1 _h
    rw [Word.toNat_add_succ _h _room]
    omega

/-! ### Readers -/

/-- The number of bytes from a cursor on. -/
def remaining (c : SliceCursor) : UInt64 := sl.length - c.position

/-- Checks that `n` bytes are left. -/
def need (n : UInt64) : SliceReader Unit := do
  if n ≤ sl.remaining (← get) then return () else throw .truncated

/-- What `body` makes of the next `n` bytes: it is given the place where they start. -/
def consume {α : Type} (n : UInt64) (body : UInt64 → SliceReader α) : SliceReader α := do
  sl.need n
  let a ← body (← get).position
  advance n
  return a

/-- The next `n` bytes. -/
def take (n : UInt64) : SliceReader Bytes := sl.consume n fun place => sl.copy n.toNat place

/-- The next `n` bytes, for a buffer of the caller. -/
def readInto (n : UInt64) : SliceReader Bytes :=
  sl.consume n fun place => if n ≠ 0 then sl.copy n.toNat place else return []

/-- Passes over `n` bytes. -/
def skip (n : UInt64) : SliceReader Unit := sl.consume n fun _ => return ()

/-- The little-endian number in the next `n` bytes. -/
def number (n : Nat) : SliceReader UInt64 := sl.consume (UInt64.ofNat n) fun place => sl.digits place n 0

/-- A number of 8 bits. -/
def u8 : SliceReader UInt8 := return (← sl.number 1).toUInt8

/-- A number of 16 bits. -/
def u16 : SliceReader UInt16 := return (← sl.number 2).toUInt16

/-- A number of 24 bits. -/
def u24 : SliceReader UInt32 := return (← sl.number 3).toUInt32

/-- A number of 32 bits. -/
def u32 : SliceReader UInt32 := return (← sl.number 4).toUInt32

/-- A number of 64 bits. -/
def u64 : SliceReader UInt64 := sl.number 8

/-- A floating-point number. -/
def f32 : SliceReader Binary32 := return ⟨← sl.u32⟩

/-- The next byte, which has to be 0 or 1. -/
def boolean : SliceReader Bool := do
  sl.need 1
  let b ← sl.look (← get).position
  if b ≤ 1 then
    advance 1
    return b == 1
  else throw .boolByte

/-- The number in front of what it counts. -/
def prefixNumber (width : UInt64) : SliceReader UInt64 :=
  if width = 1 then do return (← sl.u8).toUInt64
  else if width = 2 then do return (← sl.u16).toUInt64
  else if width = 3 then do return (← sl.u24).toUInt64
  else throw .prefixWidth

/-- A length that may not be over `max`, and not over the number of bytes behind it. The cursor goes back to
where it was if it is. -/
def lengthPrefix (width max : UInt64) : SliceReader UInt64 := do
  let start := (← get).position
  let n ← sl.prefixNumber width
  if max < n then
    moveTo start
    throw .lengthOverBound
  else if sl.remaining (← get) < n then
    moveTo start
    throw .lengthOverInput
  else return n

/-- Succeeds where nothing is left. -/
def expectEnd : SliceReader Unit := do
  if (← get).position = sl.length then return () else throw .trailingBytes

/-- The UTF-8 string in the next `n` bytes, which are looked at before it is read. -/
def utf8 (n : UInt64) : SliceReader Bytes := do
  if ← sl.isUtf8 (← get).position n 0 then sl.take n else throw .wireTextNotUtf8

/-- Reads a value. -/
def decode : (f : WireFormat) → SliceReader f.Value
  | .u8 => sl.u8
  | .u16 => sl.u16
  | .u24 => do MonadExcept.ofExcept (U24.ofUInt32 (← sl.u24))
  | .u32 => sl.u32
  | .u64 => sl.u64
  | .f32 => sl.f32
  | .bool => sl.boolean
  | .u256 => return FixedBytes.padded 32 (← sl.readInto 32)
  | .signature => return FixedBytes.padded 64 (← sl.readInto 64)
  | .bytes b => do
    let n ← sl.lengthPrefix (.ofNat b.width) (.ofNat b.max)
    MonadExcept.ofExcept (ByteString.ofBytes (← sl.take n))
  | .text b => do
    let n ← sl.lengthPrefix (.ofNat b.width) (.ofNat b.max)
    MonadExcept.ofExcept (Text.ofBytes (← sl.utf8 n))
  | .sequence item b => do
    let n ← sl.lengthPrefix (.ofNat b.width) (.ofNat b.max)
    MonadExcept.ofExcept (Sequence.ofList (← SliceReader.items (decode item) n.toNat []))

/-- Reads a list of fields one after another. -/
def decodeFields : (fs : List WireFormat) → SliceReader (Fields fs)
  | [] => return ()
  | f :: fs => do
    let v ← sl.decode f
    let vs ← decodeFields fs
    return (v, vs)

end Slice

/-! ### Calls -/

/-- What a program can do with a cursor. -/
inductive Call where
  /-- Reads a number of 8 bits. -/
  | u8
  /-- Reads a number of 16 bits. -/
  | u16
  /-- Reads a number of 24 bits. -/
  | u24
  /-- Reads a number of 32 bits. -/
  | u32
  /-- Reads a number of 64 bits. -/
  | u64
  /-- Reads a floating-point number. -/
  | f32
  /-- Reads a truth value. -/
  | boolean
  /-- Reads `n` bytes. -/
  | take (n : UInt64)
  /-- Reads `n` bytes into a buffer. -/
  | readInto (n : UInt64)
  /-- Passes over `n` bytes. -/
  | skip (n : UInt64)
  /-- Reads a length. -/
  | lengthPrefix (width max : UInt64)
  /-- Checks that nothing is left. -/
  | expectEnd
  /-- Reads a value of a format. -/
  | value (f : WireFormat)
  /-- Reads a list of fields. -/
  | fields (fs : List WireFormat)
  deriving DecidableEq

namespace Call

/-- What a call gives. -/
def Value : Call → Type
  | u8 => UInt8
  | u16 => UInt16
  | u24 | u32 => UInt32
  | u64 => UInt64
  | f32 => Binary32
  | boolean => Bool
  | take _ | readInto _ => Bytes
  | skip _ | expectEnd => Unit
  | lengthPrefix _ _ => UInt64
  | value f => f.Value
  | fields fs => Fields fs

/-- Whether a call is one reader, and no decoding of a format. -/
def isPrimitive : Call → Bool
  | value _ | fields _ => false
  | _ => true

/-- The decoder that gives the value of a call at a cursor in a byte string. -/
def decoder : (call : Call) → Decoder call.Value
  | u8 => WireFormat.u8.decode
  | u16 => WireFormat.u16.decode
  | u24 => return UInt32.ofNat (← Decoder.number 3)
  | u32 => WireFormat.u32.decode
  | u64 => WireFormat.u64.decode
  | f32 => WireFormat.f32.decode
  | boolean => Decoder.bool
  | take n | readInto n => Decoder.take n.toNat
  | skip n => do
    let _ ← Decoder.take n.toNat
    return ()
  | lengthPrefix width max => return UInt64.ofNat (← Decoder.length width.toNat max.toNat)
  | expectEnd => Decoder.expectEnd
  | value f => f.decode
  | fields fs => Fields.decode fs

end Call

namespace Slice

variable (sl : Slice)

/-- Makes a call. -/
def perform : (call : Call) → SliceReader call.Value
  | .u8 => sl.u8
  | .u16 => sl.u16
  | .u24 => sl.u24
  | .u32 => sl.u32
  | .u64 => sl.u64
  | .f32 => sl.f32
  | .boolean => sl.boolean
  | .take n => sl.take n
  | .readInto n => sl.readInto n
  | .skip n => sl.skip n
  | .lengthPrefix width max => sl.lengthPrefix width max
  | .expectEnd => sl.expectEnd
  | .value f => sl.decode f
  | .fields fs => sl.decodeFields fs

/-- Where a call leaves the cursor, whether it succeeds or fails. -/
def after (c : SliceCursor) (call : Call) : SliceCursor :=
  match sl.perform call c with
  | .ok _ c' => c'
  | .error _ c' => c'

/-- Where calls one after another leave the cursor. -/
def run (calls : List Call) : SliceCursor := calls.foldl sl.after .start

end Slice

end Stratum
