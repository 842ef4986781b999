import Stratum.Config

/-!
# Numbers on the command line

A number on the command line is read by a reader that is made for any text with a number in front. It
skips blanks, takes a sign, goes on to the first character that is no digit, and says how many characters
it has read; a number with a minus sign is counted back from `2 ^ 64`. None of this is wanted in a setting,
so a check before the reader and one behind it refuse what is more than digits.
-/

namespace Stratum

namespace Decimal

/-- Why there is no number in front of a text. -/
inductive LeadingFault where
  /-- No digit is where the first one should be. -/
  | noDigits
  /-- The number does not fit into 64 bits. -/
  | outOfRange
  deriving DecidableEq, Repr

/-- Whether a character is skipped in front of a number: a space, a tab, or an end of a line or a page. -/
def isSpace (c : UInt8) : Bool := c == 0x20 || (0x09 ≤ c && c ≤ 0x0D)

/-- Whether a character is a sign. -/
def isSign (c : UInt8) : Bool := c == 0x2B || c == 0x2D

/-- The number in front of a text, in 64 bits, and how many characters were read. -/
def leading (text : Bytes) : Except LeadingFault (UInt64 × Nat) :=
  let spaces := text.takeWhile isSpace
  let signed := text.drop spaces.length
  let sign := (signed.take 1).takeWhile isSign
  let digits := (signed.drop sign.length).takeWhile isDigit
  if digits = [] then .error .noDigits
  else if UInt64.size ≤ value digits then .error .outOfRange
  else
    let number := UInt64.ofNat (value digits)
    .ok (if sign = [0x2D] then -number else number, spaces.length + sign.length + digits.length)

end Decimal

/-- A number from 1 to `max` that is the whole of a text. -/
def readSetting (cause : ConfigFault) (max : UInt64) (text : Bytes) : Except Fault UInt64 :=
  match text with
  | [] => .error (.config cause)
  | first :: _ =>
    if first < 0x30 || 0x39 < first then .error (.config cause)
    else
      match Decimal.leading text with
      | .error _ => .error (.config cause)
      | .ok (v, used) =>
        if used ≠ text.length || v == 0 || max < v then .error (.config cause) else .ok v

/-- A port, narrowed to its 16 bits. -/
def readPort (text : Bytes) : Except Fault UInt16 :=
  return (← readSetting .portText 65535 text).toUInt16

/-- A validity in seconds, narrowed to its 32 bits. -/
def readValidity (text : Bytes) : Except Fault UInt32 :=
  return (← readSetting .validityText 4294967295 text).toUInt32

end Stratum
