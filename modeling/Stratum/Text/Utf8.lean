import Stratum.Bytes

/-!
# UTF-8

Which byte strings are UTF-8 text: those made of the shortest forms of Unicode scalar values, that is of
the code points up to `0x10FFFF` without the surrogates `0xD800` to `0xDFFF`.
-/

namespace Stratum.Utf8

/-- Whether a byte continues a character: its two high bits are `10`. -/
def isContinuation (b : UInt8) : Bool := b &&& 0xC0 == 0x80

/-- The six low bits that a continuation byte carries. -/
def continuationBits (b : UInt8) : Nat := (b &&& 0x3F).toNat

/-- The code point of a character of two bytes. -/
def codePoint2 (b₀ b₁ : UInt8) : Nat :=
  (b₀ &&& 0x1F).toNat * 64 + continuationBits b₁

/-- The code point of a character of three bytes. -/
def codePoint3 (b₀ b₁ b₂ : UInt8) : Nat :=
  ((b₀ &&& 0x0F).toNat * 64 + continuationBits b₁) * 64 + continuationBits b₂

/-- The code point of a character of four bytes. -/
def codePoint4 (b₀ b₁ b₂ b₃ : UInt8) : Nat :=
  (((b₀ &&& 0x07).toNat * 64 + continuationBits b₁) * 64 + continuationBits b₂) * 64 + continuationBits b₃

/-- Whether a code point is a Unicode scalar value: in range and no surrogate. -/
def isScalar (c : Nat) : Bool := c ≤ 0x10FFFF && !(0xD800 ≤ c && c ≤ 0xDFFF)

/-- Whether a byte string is UTF-8: each character has the number of continuation bytes its first byte
announces, is no longer than it need be, and is a scalar value. -/
def isValid : Bytes → Bool
  | [] => true
  | b₀ :: rest =>
    if b₀ < 0x80 then isValid rest
    else if b₀ &&& 0xE0 == 0xC0 then
      match rest with
      | b₁ :: rest => isContinuation b₁ && 0x80 ≤ codePoint2 b₀ b₁ && isValid rest
      | _ => false
    else if b₀ &&& 0xF0 == 0xE0 then
      match rest with
      | b₁ :: b₂ :: rest =>
        isContinuation b₁ && isContinuation b₂ && 0x800 ≤ codePoint3 b₀ b₁ b₂
          && isScalar (codePoint3 b₀ b₁ b₂) && isValid rest
      | _ => false
    else if b₀ &&& 0xF8 == 0xF0 then
      match rest with
      | b₁ :: b₂ :: b₃ :: rest =>
        isContinuation b₁ && isContinuation b₂ && isContinuation b₃
          && 0x10000 ≤ codePoint4 b₀ b₁ b₂ b₃ && isScalar (codePoint4 b₀ b₁ b₂ b₃) && isValid rest
      | _ => false
    else false

/-- The UTF-8 form of a text. -/
def ofString (s : String) : Bytes := s.toUTF8.data.toList

end Stratum.Utf8
