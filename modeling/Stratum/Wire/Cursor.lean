import Stratum.Bytes
import Stratum.Wire.Fault

/-!
# Cursors

A cursor is a place in a byte string: how many bytes lie before it, and the bytes that follow. A decoder
reads at a cursor and moves it forward; when it fails it says why and where the cursor was left. The
decoders of this module fail without moving.
-/

namespace Stratum

/-- A place in a byte string. -/
structure Cursor where
  /-- The number of bytes before the place. -/
  position : Nat
  /-- The bytes from the place on. -/
  rest : Bytes
  deriving DecidableEq

namespace Cursor

/-- The start of a byte string. -/
def ofBytes (bs : Bytes) : Cursor := ⟨0, bs⟩

/-- The number of bytes from the place on. -/
def remaining (c : Cursor) : Nat := c.rest.length

/-- Whether nothing is left. -/
def atEnd (c : Cursor) : Bool := c.rest.isEmpty

/-- Whether at least `n` bytes are left. This looks at `n` bytes and not at all that follow. -/
def has (c : Cursor) (n : Nat) : Bool := (c.rest.take n).length == n

/-- The place `n` bytes further on. -/
def advance (c : Cursor) (n : Nat) : Cursor := ⟨c.position + n, c.rest.drop n⟩

theorem has_iff {c : Cursor} {n : Nat} : c.has n = true ↔ n ≤ c.remaining := by
  simp only [has, remaining, List.length_take, beq_iff_eq]
  omega

end Cursor

/-- A reader of values of type `α` at a cursor. -/
abbrev Decoder (α : Type) := EStateM CodecFault Cursor α

namespace Decoder

/-- The next `n` bytes. -/
def take (n : Nat) : Decoder Bytes := fun c =>
  if c.has n then .ok (c.rest.take n) (c.advance n) else .error .truncated c

/-- The little-endian number in the next `n` bytes. -/
def number (n : Nat) : Decoder Nat := return Bytes.toNatLE (← take n)

/-- The next byte, which has to be 0 or 1. -/
def bool : Decoder Bool := fun c =>
  match c.rest with
  | [] => .error .truncated c
  | b :: _ => if b ≤ 1 then .ok (b == 1) (c.advance 1) else .error .boolByte c

/-- A length prefix of one, two or three bytes. The length is within `max` and within the bytes that
follow the prefix. -/
def length (width max : Nat) : Decoder Nat := fun c =>
  if 1 ≤ width ∧ width ≤ 3 then
    match number width c with
    | .error e _ => .error e c
    | .ok n c' =>
      if max < n then .error .lengthOverBound c
      else if c'.has n then .ok n c'
      else .error .lengthOverInput c
  else .error .prefixWidth c

/-- Succeeds where nothing is left. -/
def expectEnd : Decoder Unit := fun c =>
  if c.atEnd then .ok () c else .error .trailingBytes c

end Decoder

end Stratum
