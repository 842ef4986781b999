import Stratum.Crypto.AeadBuffers
import Stratum.Message.Kind
import Stratum.Wire.Fault

/-!
# Faults

Every way in which an operation of the library can fail, layer by layer. A fault is a cause; its kind, its
wording and the message type it may name are functions of the cause, so that a caller can act on the kind
and a proof can speak of the cause.
-/

namespace Stratum

/-! ### Frames -/

/-- Why a frame cannot be built or read. -/
inductive FrameFault where
  /-- A header cannot declare a payload of `2 ^ 24` bytes or more. -/
  | lengthOverHeader
  /-- A payload is over the cap. -/
  | payloadOverCap
  /-- A header declares a payload over the cap. -/
  | declaredOverCap
  /-- A stream holds a header that declares a payload over the cap. -/
  | streamOverCap
  /-- A stream is not read on after such a header. -/
  | poisoned
  deriving DecidableEq, Repr

namespace FrameFault

/-- The kind of a fault. -/
def kind : FrameFault → ErrorKind
  | lengthOverHeader | payloadOverCap | declaredOverCap => .payloadTooLarge
  | streamOverCap | poisoned => .invalidFrame

/-- What went wrong, in words. -/
def text : FrameFault → String
  | lengthOverHeader => "payload length exceeds U24"
  | payloadOverCap => "frame payload exceeds cap"
  | declaredOverCap | streamOverCap => "declared payload length exceeds cap"
  | poisoned => "frame reader is poisoned"

end FrameFault

/-! ### Messages -/

/-- Why a message breaks its format. -/
inductive MessageFault where
  /-- A field cannot be read, or bytes follow the last field. -/
  | field (cause : CodecFault)
  /-- A connection is set up for an unknown subprotocol. -/
  | unknownProtocol
  /-- A connection is set up for a version before 2. -/
  | minVersionTooLow
  /-- The range of versions is empty. -/
  | versionsReversed
  /-- A connection is set up without a vendor. -/
  | vendorEmpty
  /-- A connection is set up without a firmware version. -/
  | firmwareEmpty
  /-- Unsupported features are refused without saying which. -/
  | flagsMissing
  /-- A frame carries the channel bit though its message is about no channel. -/
  | channelBitUnexpected
  /-- A frame lacks the channel bit. -/
  | channelBitMissing
  deriving DecidableEq, Repr

/-- What went wrong, in words. -/
def MessageFault.text : MessageFault → String
  | field cause => cause.message
  | unknownProtocol => "unknown protocol"
  | minVersionTooLow => "min_version must be at least 2"
  | versionsReversed => "max_version below min_version"
  | vendorEmpty => "vendor is empty"
  | firmwareEmpty => "firmware is empty"
  | flagsMissing => "unsupported-feature-flags without any flags"
  | channelBitUnexpected => "unexpected channel bit"
  | channelBitMissing => "missing channel bit"

/-! ### Configuration -/

/-- Why a configuration is refused. -/
inductive ConfigFault where
  /-- The payload cap of a frame reader is zero or over `2 ^ 24 - 1`. -/
  | frameCap
  /-- The payload cap of a session is zero or over `2 ^ 24 - 1`. -/
  | sessionCap
  /-- Certificates have to be valid for some time. -/
  | validityZero
  /-- A pool needs an address to listen on. -/
  | bindHostEmpty
  /-- Port 0 is no port. -/
  | portZero
  /-- A pool needs a directory for its keys. -/
  | keysDirEmpty
  /-- A miner needs a host to connect to. -/
  | hostEmpty
  /-- A miner needs the authority's public key. -/
  | authorityPathEmpty
  /-- A user identity has 1 to 255 bytes. -/
  | userIdentityLength
  /-- A hash rate is a finite number and not negative. -/
  | hashRate
  /-- A port is a number from 1 to 65 535. -/
  | portText
  /-- A validity is a number of seconds from 1 to `2 ^ 32 - 1`. -/
  | validityText
  deriving DecidableEq, Repr

/-- What went wrong, in words. -/
def ConfigFault.text : ConfigFault → String
  | frameCap => "max_payload_len out of range"
  | sessionCap => "encryptor max_payload_len out of range"
  | validityZero => "validity_secs must be positive"
  | bindHostEmpty => "bind_host is empty"
  | portZero => "port must be non-zero"
  | keysDirEmpty => "keys_dir is empty"
  | hostEmpty => "host is empty"
  | authorityPathEmpty => "authority_pub_path is empty"
  | userIdentityLength => "user_identity must be 1..255 bytes"
  | hashRate => "nominal_hash_rate must be finite and non-negative"
  | portText => "port must be a number in 1..65535"
  | validityText => "validity_secs must be a number in 1..4294967295"

/-! ### Keys, key files and certificates -/

/-- Why a key cannot be made, stored or used. -/
inductive KeyFault where
  /-- A private key has 32 bytes. -/
  | privateLength
  /-- The private key of an authority has 32 bytes. -/
  | authorityLength
  /-- The private key of a pool has 32 bytes. -/
  | staticLength
  /-- The private key of a pool is not all zeros. -/
  | staticZero
  /-- The key of a cipher has 32 bytes. -/
  | cipherLength
  /-- Too few random bytes are left to make a key. -/
  | generation
  /-- Too few random bytes are left. -/
  | entropy
  /-- More random bytes are asked for than one request can give. -/
  | entropyRequest
  /-- A Diffie-Hellman exchange gave the all-zero secret. -/
  | agreement
  /-- More than 8160 bytes of key material are asked for. -/
  | derivationLength
  /-- A public key file cannot be written. -/
  | fileWrite
  /-- A secret key file cannot be written. -/
  | secretFileWrite
  /-- A key file cannot be read. -/
  | fileRead
  /-- A key file holds something else than base 58 text. -/
  | fileText
  /-- A key file holds no 32 bytes. -/
  | fileLength
  deriving DecidableEq, Repr

namespace KeyFault

/-- The kind of a fault. -/
def kind : KeyFault → ErrorKind
  | privateLength | authorityLength | staticLength | staticZero | cipherLength | entropyRequest
  | derivationLength | fileText | fileLength => .invalidArgument
  | generation | entropy | agreement => .cryptoFailure
  | fileWrite | secretFileWrite | fileRead => .ioError

/-- What went wrong, in words. -/
def text : KeyFault → String
  | privateLength => "private key must be 32 bytes"
  | authorityLength => "authority private key must be 32 bytes"
  | staticLength => "static private key must be 32 bytes"
  | staticZero => "static private key is all zeros"
  | cipherLength => "cipher key must be 32 bytes"
  | generation => "keygen failed"
  | entropy => "RAND_bytes failed"
  | entropyRequest => "rand_bytes request too large"
  | agreement => "X25519 derive failed"
  | derivationLength => "HKDF output too long"
  | fileWrite => "failed to write key file"
  | secretFileWrite => "failed to write secret key file"
  | fileRead => "failed to read key file"
  | fileText => "invalid base58 character"
  | fileLength => "key file does not hold 32 bytes"

/-- A fault as it is reported: its kind and what went wrong. -/
def message (f : KeyFault) : String := f.kind.name ++ ": " ++ f.text

end KeyFault

/-- Why a certificate is refused. -/
inductive CertificateFault where
  /-- A certificate is made for an empty window. -/
  | windowReversed
  /-- A certificate is received for an empty window. -/
  | windowEmpty
  /-- The signature is not the authority's. -/
  | signature
  /-- The time is outside the window. -/
  | outsideWindow
  deriving DecidableEq, Repr

namespace CertificateFault

/-- The kind of a fault. -/
def kind : CertificateFault → ErrorKind
  | windowReversed => .invalidArgument
  | windowEmpty | signature | outsideWindow => .authenticationFailed

/-- What went wrong, in words. -/
def text : CertificateFault → String
  | windowReversed => "valid_from must precede not_valid_after"
  | windowEmpty => "certificate validity window is empty"
  | signature => "certificate signature invalid"
  | outsideWindow => "certificate outside validity window"

end CertificateFault

/-! ### Handshake -/

/-- Why a step of a handshake fails. -/
inductive HandshakeFault where
  /-- The handshake failed before. -/
  | failed
  /-- The initiator wrote its message before. -/
  | firstWritten
  /-- The initiator awaits no message. -/
  | secondUnexpected
  /-- The responder read a message before. -/
  | firstProcessed
  /-- The handshake is not complete. -/
  | notEstablished
  /-- The payload of message 1 makes it longer than 65 535 bytes. -/
  | firstPayloadTooLarge
  /-- Message 1 has 32 to 65 535 bytes. -/
  | firstLength
  /-- The payload of message 1 does not decrypt. -/
  | firstPayload
  /-- Message 2 has 170 bytes. -/
  | secondLength
  /-- The static key in message 2 does not decrypt. -/
  | staticKey
  /-- The certificate in message 2 does not decrypt. -/
  | certificate
  /-- A key agreement of the handshake failed. -/
  | agreement (cause : KeyFault)
  /-- A handshake message has more than 65 535 bytes. -/
  | messageTooLarge
  /-- An initiator needs a clock. -/
  | clockMissing
  /-- A responder needs a static key. -/
  | staticKeyMissing
  deriving DecidableEq, Repr

namespace HandshakeFault

/-- The kind of a fault. -/
def kind : HandshakeFault → ErrorKind
  | firstWritten | secondUnexpected | firstProcessed | notEstablished => .unexpectedHandshakeMessage
  | clockMissing | staticKeyMissing => .invalidArgument
  | _ => .handshakeFailed

/-- What went wrong, in words. -/
def text : HandshakeFault → String
  | failed => "handshake has failed"
  | firstWritten => "first message already written"
  | secondUnexpected => "not awaiting the second message"
  | firstProcessed => "first message already processed"
  | notEstablished => "handshake is not established"
  | firstPayloadTooLarge => "first message payload too large"
  | firstLength => "first message has the wrong length"
  | firstPayload => "first message payload rejected"
  | secondLength => "second message has the wrong length"
  | staticKey => "static key decryption failed"
  | certificate => "certificate decryption failed"
  | agreement cause => "DH failed: " ++ cause.message
  | messageTooLarge => "handshake message too large"
  | clockMissing => "clock is empty"
  | staticKeyMissing => "static key is not set"

end HandshakeFault

/-! ### Session -/

/-- Why a session cannot encrypt or decrypt. -/
inductive SessionFault where
  /-- The last nonce for sending is reserved. -/
  | sendNonce
  /-- The last nonce for receiving is reserved. -/
  | receiveNonce
  /-- A cipher without a key has none to replace. -/
  | rekeyUnkeyed
  /-- The session failed before. -/
  | poisoned
  /-- A payload is over the cap. -/
  | payloadOverCap
  /-- The nonces left do not suffice for a whole frame. -/
  | noncesLeft
  /-- A ciphertext does not authenticate. -/
  | tag
  /-- A decrypted header has fewer than six bytes. -/
  | headerShort
  /-- A decrypted header declares a payload over the cap. -/
  | declaredOverCap
  /-- An encrypted frame ends too early. -/
  | frameTruncated
  /-- Bytes follow an encrypted frame. -/
  | frameTrailing
  /-- A frame is partly read from a stream. -/
  | readPending
  deriving DecidableEq, Repr

namespace SessionFault

/-- The kind of a fault. -/
def kind : SessionFault → ErrorKind
  | sendNonce | receiveNonce | noncesLeft => .nonceExhausted
  | payloadOverCap | declaredOverCap => .payloadTooLarge
  | rekeyUnkeyed | readPending => .invalidArgument
  | poisoned | tag | headerShort | frameTruncated | frameTrailing => .decryptionFailed

/-- What went wrong, in words. -/
def text : SessionFault → String
  | sendNonce => "send nonce exhausted"
  | receiveNonce => "receive nonce exhausted"
  | rekeyUnkeyed => "rekey without a key"
  | poisoned => "encryptor is poisoned"
  | payloadOverCap => "frame payload exceeds cap"
  | noncesLeft => "not enough send nonces left for this frame"
  | tag => "authentication tag mismatch"
  | headerShort => "decrypted header is short"
  | declaredOverCap => "declared payload length exceeds cap"
  | frameTruncated => "encrypted frame truncated"
  | frameTrailing => "trailing bytes after encrypted frame"
  | readPending => "a streaming read is in progress"

end SessionFault

/-! ### Transport -/

/-- Why a transport cannot send or receive. -/
inductive TransportFault where
  /-- The transport is closed. -/
  | sendClosed
  /-- The peer takes no more bytes. -/
  | sendFailed
  /-- The transport is closed. -/
  | receiveClosed
  /-- The peer sends no more bytes. -/
  | peerClosed
  /-- Nothing has arrived yet. -/
  | receiveFailed
  /-- There is no socket. -/
  | invalidSocket
  deriving DecidableEq, Repr

/-- What went wrong, in words. -/
def TransportFault.text : TransportFault → String
  | sendClosed => "send on closed transport"
  | sendFailed => "send failed"
  | receiveClosed => "recv on closed transport"
  | peerClosed => "peer closed the connection"
  | receiveFailed => "recv failed"
  | invalidSocket => "invalid socket"

/-! ### All faults -/

/-- A reason for failure. -/
inductive Fault where
  /-- A value cannot be built, written or read. -/
  | codec (cause : CodecFault)
  /-- A frame cannot be built or read. -/
  | frame (cause : FrameFault)
  /-- A message of the given type breaks its format. -/
  | message (type : MessageType) (cause : MessageFault)
  /-- There is no decoder for a message type. -/
  | noDecoder (type : MessageType)
  /-- A configuration is refused. -/
  | config (cause : ConfigFault)
  /-- A key cannot be made, stored or used. -/
  | key (cause : KeyFault)
  /-- A certificate is refused. -/
  | certificate (cause : CertificateFault)
  /-- A step of a handshake fails. -/
  | handshake (cause : HandshakeFault)
  /-- A session cannot encrypt or decrypt. -/
  | session (cause : SessionFault)
  /-- A transport cannot send or receive. -/
  | transport (cause : TransportFault)
  /-- A cipher does not take a buffer. -/
  | cipher (cause : Aead.BufferFault)
  deriving DecidableEq, Repr

namespace Fault

/-- The kind of a fault. -/
def kind : Fault → ErrorKind
  | codec cause => cause.kind
  | frame cause => cause.kind
  | message _ _ => .malformedMessage
  | noDecoder _ => .unsupportedMessage
  | config _ => .invalidConfig
  | key cause => cause.kind
  | certificate cause => cause.kind
  | handshake cause => cause.kind
  | session cause => cause.kind
  | transport _ => .ioError
  | cipher cause => cause.kind

/-- What went wrong, in words. A fault of a message names its type. -/
def text : Fault → String
  | codec cause => cause.text
  | frame cause => cause.text
  | message type cause => type.name ++ ": " ++ cause.text
  | noDecoder _ => "no decoder for message type"
  | config cause => cause.text
  | key cause => cause.text
  | certificate cause => cause.text
  | handshake cause => cause.text
  | session cause => cause.text
  | transport cause => cause.text
  | cipher cause => cause.text

/-- The code of the message type that a fault is about. -/
def messageType? : Fault → Option UInt8
  | message type _ => some type.code
  | noDecoder type => some type.code
  | _ => none

/-- A fault as it is reported: its kind and what went wrong. -/
def report (f : Fault) : String := f.kind.name ++ ": " ++ f.text

end Fault

/-! ### Parts of a state -/

/-- A step on a part of a state. The part is put back, also when the step fails. -/
def onPart {σ τ α : Type} (part : σ → τ) (putBack : σ → τ → σ) (x : EStateM Fault τ α) : EStateM Fault σ α :=
  fun s =>
    match x (part s) with
    | .ok a t => .ok a (putBack s t)
    | .error e t => .error e (putBack s t)

end Stratum
