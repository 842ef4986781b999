/-!
# Kinds of errors

The fifteen kinds under which every failure of the library is reported. A caller decides by the kind what
to do: a malformed message is dropped, a failed decryption ends the session.
-/

namespace Stratum

/-- A kind of error. -/
inductive ErrorKind where
  /-- Input ends too early. -/
  | truncated
  /-- A length or a number is over its bound, or input goes on too long. -/
  | tooLong
  /-- A frame payload is over its cap. -/
  | payloadTooLarge
  /-- A stream of frames cannot be read on. -/
  | invalidFrame
  /-- A handshake message out of turn. -/
  | unexpectedHandshakeMessage
  /-- A handshake failed. -/
  | handshakeFailed
  /-- The peer is not who it claims to be. -/
  | authenticationFailed
  /-- No nonce is left. -/
  | nonceExhausted
  /-- A ciphertext does not belong to the session. -/
  | decryptionFailed
  /-- A message breaks its format. -/
  | malformedMessage
  /-- A message is not in the catalogue. -/
  | unsupportedMessage
  /-- A caller's mistake. -/
  | invalidArgument
  /-- A configuration value out of range. -/
  | invalidConfig
  /-- A cryptographic primitive failed. -/
  | cryptoFailure
  /-- A file or a socket failed. -/
  | ioError
  deriving DecidableEq, Repr

namespace ErrorKind

/-- All kinds, in order. -/
def all : List ErrorKind :=
  [truncated, tooLong, payloadTooLarge, invalidFrame, unexpectedHandshakeMessage, handshakeFailed,
   authenticationFailed, nonceExhausted, decryptionFailed, malformedMessage, unsupportedMessage,
   invalidArgument, invalidConfig, cryptoFailure, ioError]

/-- The name of a kind, as diagnostics print it. -/
def name : ErrorKind → String
  | truncated => "Truncated"
  | tooLong => "TooLong"
  | payloadTooLarge => "PayloadTooLarge"
  | invalidFrame => "InvalidFrame"
  | unexpectedHandshakeMessage => "UnexpectedHandshakeMessage"
  | handshakeFailed => "HandshakeFailed"
  | authenticationFailed => "AuthenticationFailed"
  | nonceExhausted => "NonceExhausted"
  | decryptionFailed => "DecryptionFailed"
  | malformedMessage => "MalformedMessage"
  | unsupportedMessage => "UnsupportedMessage"
  | invalidArgument => "InvalidArgument"
  | invalidConfig => "InvalidConfig"
  | cryptoFailure => "CryptoFailure"
  | ioError => "IoError"

/-- The name for a number: kinds are numbered from zero in their order. -/
def nameOfCode (code : UInt8) : String := all[code.toNat]?.elim "Unknown" name

end ErrorKind

end Stratum
