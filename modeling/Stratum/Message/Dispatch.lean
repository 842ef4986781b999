import Stratum.Frame.Basic
import Stratum.Message.Basic

/-!
# Messages in frames

Every message of the catalogue has one frame: extension 0, the channel bit that its type asks for, its
code and its payload. A frame of another extension or with another code is not read but handed back as it
is; a frame of the catalogue is read, or refused as malformed.

The range of a code says whether the catalogue has it. What reads the payload is found by a walk through the
decoders of all types.
-/

namespace Stratum

/-- What a frame holds. -/
inductive Decoded where
  /-- A message of the catalogue. -/
  | message (m : Message)
  /-- Something else, which is handed back as it is. -/
  | unsupported (extensionType : UInt16) (messageType : UInt8) (payload : Bytes)

/-- The frame that carries a message. -/
def Message.toFrame (m : Message) : Except Fault Frame := do
  Frame.make (makeExtensionType 0 m.type.isChannelMessage) m.type.code (← m.serialize)

/-- Fails unless the channel bit is what the type asks for. -/
def MessageType.checkChannelBit (t : MessageType) (bit : Bool) : Except Fault Unit :=
  if bit == t.isChannelMessage then .ok ()
  else if bit then .error (.message t .channelBitUnexpected)
  else .error (.message t .channelBitMissing)

/-- The message of a type that a payload writes. Of the decoders the first is taken that is for the type. -/
def Message.decodeAlternative (t : MessageType) (payload : Bytes) : (decoders : List MessageType) → Except Fault Message
  | [] => .error (.noDecoder t)
  | u :: rest => do
    if u = t then return ⟨u, ← Record.deserialize u.Body payload⟩
    decodeAlternative t payload rest

/-- The message that an extension field, a code and a payload write. -/
def Decoded.deserialize (extensionType : UInt16) (messageType : UInt8) (payload : Bytes) :
    Except Fault Decoded :=
  match (if extensionType &&& extensionMask == 0 then MessageType.ofCode? messageType else none) with
  | none => .ok (.unsupported extensionType messageType payload)
  | some t => do
    t.checkChannelBit (extensionType &&& channelBit != 0)
    return .message (← Message.decodeAlternative t payload MessageType.all)

/-- What a frame holds. -/
def Frame.decodeMessage (f : Frame) : Except Fault Decoded :=
  Decoded.deserialize f.extensionType f.messageType f.payload

/-- Whether a frame sets up a connection for a subprotocol that has no name. Such a frame is malformed,
yet it deserves an answer that says so. -/
def Frame.hasUnknownProtocol (f : Frame) : Bool :=
  f.extensionType == 0 && f.messageType == MessageType.setupConnection.code
    && match f.payload with
      | [] => false
      | protocol :: _ => !(Subprotocol.isKnown protocol)

end Stratum
