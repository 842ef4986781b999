import Stratum.Noise.Handshake

/-!
# The initiator

The side that opens the connection and checks whom it talks to: the certificate that the responder sends
has to be signed by the trusted authority, for the static key that the responder sends, and the time has
to be inside its window. Any error ends the handshake for good.
-/

namespace Stratum

/-- How far an initiator has come. -/
inductive Initiator.Phase where
  /-- Nothing is sent. -/
  | uninitialized
  /-- Message 1 is sent, made with the given key pair. -/
  | awaitingSecondMessage (ss : SymmetricState) (ephemeral : KeyPair)
  /-- The responder is known by its static key and certificate. -/
  | established (send receive : KeyedCipher) (hash : Digest) (remoteStatic : Key)
      (certificate : Certificate)
  /-- The session is handed out. -/
  | consumed
  /-- An error occurred. -/
  | failed
  deriving DecidableEq

/-- The state of an initiator. -/
structure Initiator where
  /-- The public key of the trusted authority. -/
  authority : Key
  /-- The time that its clock shows. -/
  clock : UInt32
  /-- How far it has come. -/
  phase : Initiator.Phase
  deriving DecidableEq

namespace Initiator

/-- The name of a phase. -/
def Phase.name : Phase → String
  | uninitialized => "Uninitialized"
  | awaitingSecondMessage _ _ => "AwaitingSecondMessage"
  | established _ _ _ _ _ => "Established"
  | consumed => "Consumed"
  | failed => "Failed"

/-- An initiator that trusts an authority. It needs a clock. -/
def make (authority : Key) (clock : Option UInt32) : Except Fault Initiator :=
  match clock with
  | some clock => .ok { authority, clock, phase := .uninitialized }
  | none => .error (.handshake .clockMissing)

/-- Whether the handshake is complete. -/
def isEstablished (i : Initiator) : Bool :=
  match i.phase with
  | .established _ _ _ _ _ => true
  | _ => false

/-- Whether an error occurred. -/
def hasFailed (i : Initiator) : Bool :=
  match i.phase with
  | .failed => true
  | _ => false

/-- The initiator after an error. -/
def fail (i : Initiator) : Initiator := { i with phase := .failed }

/-- Message 1 with a payload, the state after it and the key pair it was made with. -/
def firstMessage (S : Suite) (payload : Bytes) : Random (Bytes × SymmetricState × KeyPair) := do
  if maxNoiseMessage < 32 + payload.length then throw (.handshake .firstPayloadTooLarge)
  let ephemeral ← KeyPair.generate S
  let ss := (Handshake.start S).mixHash S ephemeral.publicKey.toBytes
  match ss.encryptAndHash S payload with
  | .error e => throw e
  | .ok (part, ss) => return (ephemeral.publicKey.toBytes ++ part, ss, ephemeral)

/-- Writes message 1. Also says what is left of the random bytes. -/
def writeFirstMessage (S : Suite) (i : Initiator) (payload : Bytes) (entropy : Entropy) :
    Except Fault Bytes × Initiator × Entropy :=
  match i.phase with
  | .failed => (.error (.handshake .failed), i, entropy)
  | .uninitialized =>
    match firstMessage S payload entropy with
    | .ok (message, ss, ephemeral) entropy =>
      (.ok message, { i with phase := .awaitingSecondMessage ss ephemeral }, entropy)
    | .error e entropy => (.error e, i.fail, entropy)
  | _ => (.error (.handshake .firstWritten), i.fail, entropy)

/-- What message 2 establishes at a time: the ciphers, the hash, the responder's key and certificate. -/
def secondMessage (S : Suite) (authority : Key) (now : UInt32) (ss : SymmetricState)
    (ephemeral : KeyPair) (message : Bytes) : Except Fault Phase := do
  if message.length ≠ Handshake.secondMessageLength then throw (.handshake .secondLength)
  let remoteEphemeral := FixedBytes.padded 32 message
  let ss := ss.mixHash S remoteEphemeral.toBytes
  let ss ← Handshake.mixAgreement S ss ephemeral.privateKey remoteEphemeral
  let (key, ss) ← Handshake.decryptOr S .staticKey ss
    ((message.drop 32).take Handshake.sealedKeyLength)
  let remoteStatic := FixedBytes.padded 32 key
  let ss ← Handshake.mixAgreement S ss ephemeral.privateKey remoteStatic
  let (payload, ss) ← Handshake.decryptOr S .certificate ss
    (message.drop (32 + Handshake.sealedKeyLength))
  let signed ← CertificateMessage.decode payload
  let certificate ← signed.verify S authority remoteStatic now
  let (c₁, c₂) := (ss.split S).1
  return .established c₁ c₂ ss.hash remoteStatic certificate

/-- Reads message 2. -/
def readSecondMessage (S : Suite) (i : Initiator) (message : Bytes) : Except Fault Unit × Initiator :=
  match i.phase with
  | .failed => (.error (.handshake .failed), i)
  | .awaitingSecondMessage ss ephemeral =>
    match secondMessage S i.authority i.clock ss ephemeral message with
    | .ok phase => (.ok (), { i with phase })
    | .error e => (.error e, i.fail)
  | _ => (.error (.handshake .secondUnexpected), i.fail)

/-- Hands out the session, once. -/
def intoSession (i : Initiator) (config : SessionConfig) : Except Fault Session × Initiator :=
  match i.phase with
  | .failed => (.error (.handshake .failed), i)
  | .established send receive hash _ _ =>
    match config.validate with
    | .error e => (.error e, i)
    | .ok () =>
      (.ok { role := .initiator, sending := .ofCipher send, receiving := .ofCipher receive, hash, config },
       { i with phase := .consumed })
  | _ => (.error (.handshake .notEstablished), i)

/-- The responder's static key. -/
def remoteStaticKey (i : Initiator) : Except Fault Key :=
  match i.phase with
  | .established _ _ _ remoteStatic _ => .ok remoteStatic
  | _ => .error (.handshake .notEstablished)

/-- The responder's certificate. -/
def remoteCertificate (i : Initiator) : Except Fault Certificate :=
  match i.phase with
  | .established _ _ _ _ certificate => .ok certificate
  | _ => .error (.handshake .notEstablished)

/-- The hash of the handshake. -/
def handshakeHash (i : Initiator) : Except Fault Digest :=
  match i.phase with
  | .established _ _ hash _ _ => .ok hash
  | _ => .error (.handshake .notEstablished)

end Initiator

end Stratum
