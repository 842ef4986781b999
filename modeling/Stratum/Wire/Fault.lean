import Stratum.ErrorKind

/-!
# Codec faults

Why a value cannot be built, written or read in the binary format of the protocol.
-/

namespace Stratum

/-- A reason why a value cannot be built, written or read. -/
inductive CodecFault where
  /-- Fewer bytes are left than a value of fixed size takes. -/
  | truncated
  /-- A declared length is over the bound of its type. -/
  | lengthOverBound
  /-- A declared length is over the number of bytes left. -/
  | lengthOverInput
  /-- A length cannot be written in a prefix of one or two bytes. -/
  | lengthOverPrefix (width : Nat)
  /-- A length prefix has one, two or three bytes. -/
  | prefixWidth
  /-- A number does not fit into 24 bits. -/
  | u24Range
  /-- A truth value is written as 0 or 1. -/
  | boolByte
  /-- A string read from the wire is not UTF-8. -/
  | wireTextNotUtf8
  /-- A string given by the caller is not UTF-8. -/
  | textNotUtf8
  /-- A byte string is longer than its type allows. -/
  | bytesTooLong
  /-- A string is longer than its type allows. -/
  | textTooLong
  /-- A sequence has more items than its type allows. -/
  | sequenceTooLong
  /-- Bytes are left after the last field. -/
  | trailingBytes
  deriving DecidableEq, Repr

namespace CodecFault

/-- The kind of a fault. -/
def kind : CodecFault → ErrorKind
  | truncated | lengthOverInput => .truncated
  | lengthOverBound | lengthOverPrefix _ | u24Range | bytesTooLong | textTooLong | sequenceTooLong
  | trailingBytes => .tooLong
  | boolByte | wireTextNotUtf8 => .malformedMessage
  | prefixWidth | textNotUtf8 => .invalidArgument

/-- What went wrong, in words. -/
def text : CodecFault → String
  | truncated => "input truncated"
  | lengthOverBound => "declared length exceeds type bound"
  | lengthOverInput => "declared length exceeds remaining input"
  | lengthOverPrefix width => "length exceeds " ++ toString width ++ "-byte prefix"
  | prefixWidth => "unsupported length prefix width"
  | u24Range => "U24 value out of range"
  | boolByte => "bool must be 0 or 1"
  | wireTextNotUtf8 | textNotUtf8 => "string is not valid UTF-8"
  | bytesTooLong => "byte string exceeds its bound"
  | textTooLong => "string exceeds its bound"
  | sequenceTooLong => "sequence exceeds its bound"
  | trailingBytes => "trailing bytes"

/-- A fault as it is reported: its kind and what went wrong. -/
def message (f : CodecFault) : String := f.kind.name ++ ": " ++ f.text

end CodecFault

end Stratum
