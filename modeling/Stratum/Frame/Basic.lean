import Stratum.Config
import Stratum.Wire.Encode

/-!
# Frames

A frame carries one message: a header of six bytes, and a payload. The header names an extension, the
message type within it, and the length of the payload. The top bit of the extension field, the channel
bit, says that the message is about one open channel.
-/

namespace Stratum

/-- The number of bytes of a frame header. -/
def frameHeaderLength : Nat := 6

/-- The bit of the extension field that marks messages about a channel. -/
def channelBit : UInt16 := 0x8000

/-- The bits of the extension field that name the extension. -/
def extensionMask : UInt16 := 0x7FFF

/-- The extension field made of an extension and a channel bit. -/
def makeExtensionType (extension : UInt16) (channel : Bool) : UInt16 :=
  (extension &&& extensionMask) ||| (if channel then channelBit else 0)

/-- What the first six bytes of a frame say. -/
structure FrameHeader where
  /-- The extension, with the channel bit. -/
  extensionType : UInt16
  /-- The message type within the extension. -/
  messageType : UInt8
  /-- The number of bytes of the payload. -/
  payloadLength : UInt32
  deriving DecidableEq, Repr

namespace FrameHeader

/-- The extension without the channel bit. -/
def extension (h : FrameHeader) : UInt16 := h.extensionType &&& extensionMask

/-- Whether the channel bit is set. -/
def isChannelMessage (h : FrameHeader) : Bool := h.extensionType &&& channelBit != 0

/-- The six bytes of a header. A payload of `2 ^ 24` bytes or more cannot be declared. -/
def encode (h : FrameHeader) : Except Fault Bytes :=
  if h.payloadLength.toNat ≤ maxPayloadLength then
    .ok (Bytes.ofNatLE 2 h.extensionType.toNat ++ h.messageType :: Bytes.ofNatLE 3 h.payloadLength.toNat)
  else .error (.frame .lengthOverHeader)

/-- The header at the start of a byte string, if six bytes are there. -/
def peek? (bs : Bytes) : Option FrameHeader :=
  match bs with
  | e₀ :: e₁ :: t :: l₀ :: l₁ :: l₂ :: _ =>
    some
      { extensionType := UInt16.ofNat (Bytes.toNatLE [e₀, e₁])
        messageType := t
        payloadLength := UInt32.ofNat (Bytes.toNatLE [l₀, l₁, l₂]) }
  | _ => none

end FrameHeader

/-- A message type and its payload, which is no longer than a header can declare. -/
structure Frame where
  /-- The extension, with the channel bit. -/
  extensionType : UInt16
  /-- The message type within the extension. -/
  messageType : UInt8
  /-- The payload. -/
  payload : Bytes
  /-- The payload's length fits into a header. -/
  payload_le : payload.length ≤ maxPayloadLength
  deriving DecidableEq

namespace Frame

/-- The frame with the given parts, if its payload is within the cap. -/
def make (extensionType : UInt16) (messageType : UInt8) (payload : Bytes) (limits : FrameLimits := {}) :
    Except Fault Frame :=
  if h : payload.length ≤ maxPayloadLength ∧ payload.length ≤ limits.maxPayload.toNat then
    .ok ⟨extensionType, messageType, payload, h.1⟩
  else .error (.frame .payloadOverCap)

/-- The header of a frame. -/
def header (f : Frame) : FrameHeader where
  extensionType := f.extensionType
  messageType := f.messageType
  payloadLength := UInt32.ofNat f.payload.length

/-- The extension without the channel bit. -/
def extension (f : Frame) : UInt16 := f.header.extension

/-- Whether the channel bit is set. -/
def isChannelMessage (f : Frame) : Bool := f.header.isChannelMessage

/-- The bytes of a frame: its header and its payload. -/
def encode (f : Frame) : Except Fault Bytes :=
  return (← f.header.encode) ++ f.payload

end Frame

/-- The bytes of the frame with the given parts, if its payload is within the cap. -/
def encodeFrame (extensionType : UInt16) (messageType : UInt8) (payload : Bytes)
    (limits : FrameLimits := {}) : Except Fault Bytes := do
  (← Frame.make extensionType messageType payload limits).encode

end Stratum
