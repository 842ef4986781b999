import Stratum.Bytes
import Stratum.Text.Radix

/-!
# Base 58

Byte strings as text over 58 letters and digits: the string is read as a number in base 256 and written
in base 58, and each zero byte in front is written as the digit `1`. Reading allows blanks in front and
blanks and line ends behind.
-/

namespace Stratum.Base58

/-- The 58 digits in order: no `0`, `O`, `I` and `l`, which are easily confused. -/
def alphabet : Bytes :=
  "123456789ABCDEFGHJKLMNPQRSTUVWXYZabcdefghijkmnopqrstuvwxyz".toList.map fun c => UInt8.ofNat c.toNat

/-- The digit of value zero, which stands for a zero byte in front. -/
def zeroDigit : UInt8 := 0x31

/-- The digit with a given value. -/
def digit (value : Nat) : UInt8 := alphabet.getD value zeroDigit

/-- The value of a digit. -/
def value? (c : UInt8) : Option Nat := alphabet.idxOf? c

/-- The room kept for the base 58 digits of `n` bytes. It takes `log 256 / log 58`, about 1.366, digits
to write one byte. -/
def encodedCapacity (n : Nat) : Nat := n * 138 / 100 + 1

/-- The room kept for the bytes of `n` base 58 digits. It takes `log 58 / log 256`, about 0.733, bytes
to hold one digit. -/
def decodedCapacity (n : Nat) : Nat := n * 733 / 1000 + 1

/-- The base 58 text of a byte string. -/
def encode (bs : Bytes) : Bytes :=
  let zeros := bs.takeWhile (· == 0)
  let number := (bs.drop zeros.length).map UInt8.toNat
  let digits := Radix.significant (Radix.convert 256 58 (encodedCapacity number.length) number)
  List.replicate zeros.length zeroDigit ++ digits.map digit

/-- Whether a character may stand in front of the digits: a space or a tab. -/
def isBlank (c : UInt8) : Bool := c == 0x20 || c == 0x09

/-- Whether a character may stand behind the digits: a blank or a line end. -/
def isBlankOrLineEnd (c : UInt8) : Bool := isBlank c || c == 0x0A || c == 0x0D

/-- The digits of a text: without blanks in front and without blanks and line ends behind. -/
def trim (text : Bytes) : Bytes :=
  ((text.dropWhile isBlank).reverse.dropWhile isBlankOrLineEnd).reverse

/-- The byte string that a base 58 text denotes. There is none if the text holds any other character. -/
def decode? (text : Bytes) : Option Bytes := do
  let text := trim text
  let zeros := text.takeWhile (· == zeroDigit)
  let number ← (text.drop zeros.length).mapM value?
  let bytes := Radix.significant (Radix.convert 58 256 (decodedCapacity number.length) number)
  return List.replicate zeros.length 0 ++ bytes.map UInt8.ofNat

end Stratum.Base58
