import Stratum.Frame.Basic
import Stratum.Noise.Cipher

/-!
# Sessions

A session encrypts the frames of a connection after its handshake. A frame becomes a sealed header of 22
bytes, followed by its payload in pieces of up to 65 519 bytes, each sealed with 16 bytes more. Every
piece takes one nonce, and after every so many pieces a direction goes on with the next key.

A frame is encrypted whole or not at all. A byte string that is not what the peer sealed poisons the
session: from then on it neither encrypts nor decrypts. A frame can also be read from the start of a
growing byte string; its header is then opened once and kept until the payload is there.
-/

namespace Stratum

/-- The greatest message of the handshake protocol. -/
def maxNoiseMessage : Nat := 65535

/-- The greatest piece of a payload: with its tag it is a message of the greatest length. -/
def maxPiece : Nat := maxNoiseMessage - Aead.tagLength

/-- The number of bytes of a sealed header. -/
def sealedHeaderLength : Nat := frameHeaderLength + Aead.tagLength

/-- The number of pieces of a payload. -/
def pieceCount (payload : Nat) : Nat := (payload + maxPiece - 1) / maxPiece

/-- The number of bytes of an encrypted frame, counted in words of 64 bits. -/
def encryptedFrameSize (payload : UInt64) : UInt64 :=
  let pieces := (payload + UInt64.ofNat maxPiece - 1) / UInt64.ofNat maxPiece
  UInt64.ofNat sealedHeaderLength + payload + pieces * UInt64.ofNat Aead.tagLength

/-- Which side of the handshake a session came from. -/
inductive Role where
  /-- The side that wrote message 1. -/
  | initiator
  /-- The side that wrote message 2. -/
  | responder
  deriving DecidableEq, Repr

/-- The name of a role. -/
def Role.name : Role → String
  | initiator => "Initiator"
  | responder => "Responder"

/-- The other side. -/
def Role.other : Role → Role
  | initiator => responder
  | responder => initiator

/-- One direction of a session: its cipher and how many pieces have passed. -/
structure Direction where
  /-- The cipher. -/
  cipher : KeyedCipher
  /-- The number of pieces that have passed. -/
  count : UInt64
  deriving DecidableEq

namespace Direction

/-- A direction that nothing has passed. -/
def ofCipher (cipher : KeyedCipher) : Direction := ⟨cipher, 0⟩

/-- Counts a piece, and goes on with the next key if the count is a multiple of the interval. -/
def advance (S : Suite) (interval : UInt64) (d : Direction) : Direction :=
  let count := d.count + 1
  let cipher := if interval ≠ 0 ∧ count % interval = 0 then d.cipher.rekey S else d.cipher
  { cipher, count }

end Direction

/-- The state of a session. -/
structure Session where
  /-- Which side it is. -/
  role : Role
  /-- What is sent. -/
  sending : Direction
  /-- What is received. -/
  receiving : Direction
  /-- The hash of the handshake. -/
  hash : Digest
  /-- The settings. -/
  config : SessionConfig
  /-- The header of the frame that is partly read from a stream. -/
  pendingHeader : Option FrameHeader := none
  /-- Whether the session has failed. -/
  poisoned : Bool := false
  deriving DecidableEq

/-- A step of a session. It says what the session is afterwards, also when it fails. -/
abbrev SessionM (α : Type) := EStateM Fault Session α

/-- What reading a frame from the start of a byte string gives. -/
inductive ReadStep where
  /-- So many bytes are missing to know more. -/
  | incomplete (needed : Nat)
  /-- The frame, and how many bytes it took. -/
  | frame (f : Frame) (consumed : Nat)
  deriving DecidableEq

namespace Session

variable (S : Suite)

/-- Fails with a reason. -/
def fail {α : Type} (cause : SessionFault) : SessionM α := throw (.session cause)

/-- Fails for good. -/
def poison {α : Type} (cause : SessionFault) : SessionM α := do
  modify fun s => { s with poisoned := true, pendingHeader := none }
  fail cause

/-- Fails if the session has failed before. -/
def checkPoison : SessionM Unit := do
  if (← get).poisoned then fail .poisoned

/-! ### Sending -/

/-- Seals one piece. -/
def sealPiece (piece : Bytes) : SessionM Bytes := do
  let s ← get
  match s.sending.cipher.encrypt S [] piece with
  | .error e => throw e
  | .ok (sealed, cipher) =>
    set { s with sending := { s.sending with cipher }.advance S s.config.rekeyInterval }
    return sealed

/-- Seals pieces one after another. -/
def sealPieces : List Bytes → SessionM Bytes
  | [] => return []
  | piece :: pieces => do
    let sealed ← sealPiece S piece
    let rest ← sealPieces pieces
    return sealed ++ rest

/-- Encrypts a frame, if it is within the cap and the nonces left suffice for all its pieces. -/
def encrypt (f : Frame) : SessionM Bytes := do
  checkPoison
  let s ← get
  if s.config.maxPayload.toNat < f.payload.length then fail .payloadOverCap
  if (reservedNonce - s.sending.cipher.nonce).toNat < pieceCount f.payload.length + 1 then
    fail .noncesLeft
  match f.header.encode with
  | .error e => throw e
  | .ok header => sealPieces S (header :: Bytes.chunks maxPiece f.payload)

/-! ### Receiving -/

/-- Opens one piece. -/
def openPiece (sealed : Bytes) : SessionM Bytes := do
  let s ← get
  match s.receiving.cipher.decrypt S [] sealed with
  | .error e => throw e
  | .ok none => poison .tag
  | .ok (some (piece, cipher)) =>
    set { s with receiving := { s.receiving with cipher }.advance S s.config.rekeyInterval }
    return piece

/-- Opens a header and checks it against the cap. -/
def openHeader (sealed : Bytes) : SessionM FrameHeader := do
  let bs ← openPiece S sealed
  match FrameHeader.peek? bs with
  | none => poison .headerShort
  | some h =>
    if (← get).config.maxPayload < h.payloadLength then poison .declaredOverCap
    return h

/-- Opens the pieces of a payload of which `left` bytes are still to come. -/
def openPieces (left : Nat) (sealed : Bytes) : SessionM Bytes := do
  if _h : left = 0 then return []
  else
    let size := min left maxPiece + Aead.tagLength
    if (sealed.take size).length < size then poison .frameTruncated
    else
      let piece ← openPiece S (sealed.take size)
      let rest ← openPieces (left - maxPiece) (sealed.drop size)
      return piece ++ rest
termination_by left
decreasing_by simp only [maxPiece, maxNoiseMessage, Aead.tagLength]; omega

/-- Opens the payload that a header declares. -/
def openPayload (h : FrameHeader) (sealed : Bytes) : SessionM Frame := do
  let payload ← openPieces S h.payloadLength.toNat sealed
  match Frame.make h.extensionType h.messageType payload with
  | .ok f => return f
  | .error e => throw e

/-- The number of bytes of the encrypted frame that a header declares. -/
def frameSize (h : FrameHeader) : Nat := (encryptedFrameSize h.payloadLength.toUInt64).toNat

/-- Decrypts a byte string that is one encrypted frame. -/
def decrypt (data : Bytes) : SessionM Frame := do
  checkPoison
  if (← get).pendingHeader.isSome then fail .readPending
  if data.length < sealedHeaderLength then poison .frameTruncated
  let h ← openHeader S (data.take sealedHeaderLength)
  if data.length < frameSize h then poison .frameTruncated
  if frameSize h < data.length then poison .frameTrailing
  openPayload S h (data.drop sealedHeaderLength)

/-- The header of the frame at the start of a byte string: the one kept, or the one there, which is kept
from now on. There is none before its 22 bytes are. -/
def currentHeader (data : Bytes) : SessionM (Option FrameHeader) := do
  match (← get).pendingHeader with
  | some h => return some h
  | none =>
    if data.length < sealedHeaderLength then return none
    let h ← openHeader S (data.take sealedHeaderLength)
    modify fun s => { s with pendingHeader := some h }
    return some h

/-- Reads the frame at the start of a byte string. While it is not there as a whole, the byte string
given next starts with this one. -/
def read (data : Bytes) : SessionM ReadStep := do
  checkPoison
  match ← currentHeader S data with
  | none => return .incomplete (sealedHeaderLength - data.length)
  | some h =>
    let size := frameSize h
    if data.length < size then return .incomplete (size - data.length)
    modify fun s => { s with pendingHeader := none }
    let f ← openPayload S h ((data.drop sealedHeaderLength).take (size - sealedHeaderLength))
    return .frame f size

/-- Reads a stream piece by piece, at most one frame after each. Gives the frames and the bytes left. -/
def readPieces (buffer : Bytes) : List Bytes → SessionM (List Frame × Bytes)
  | [] => return ([], buffer)
  | piece :: pieces => do
    match ← read S (buffer ++ piece) with
    | .incomplete _ => readPieces (buffer ++ piece) pieces
    | .frame f consumed =>
      let (frames, left) ← readPieces ((buffer ++ piece).drop consumed) pieces
      return (f :: frames, left)

/-- Sets the nonce of the next piece sent. -/
def setSendNonce (n : UInt64) (s : Session) : Session :=
  { s with sending := { s.sending with cipher := { s.sending.cipher with nonce := n } } }

end Session

end Stratum
