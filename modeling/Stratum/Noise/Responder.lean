import Stratum.Noise.Handshake

/-!
# The responder

The side that accepts the connection. It reads message 1, answers with message 2, and has the session at
once. Any error ends the handshake for good.
-/

namespace Stratum

/-- How far a responder has come. -/
inductive Responder.Phase where
  /-- Nothing is received. -/
  | awaitingFirstMessage
  /-- Message 2 is made; message 1 carried the given payload. -/
  | established (send receive : KeyedCipher) (hash : Digest) (firstPayload : Bytes)
  /-- The session is handed out. -/
  | consumed
  /-- An error occurred. -/
  | failed
  deriving DecidableEq

/-- The state of a responder. -/
structure Responder where
  /-- Its static key pair. -/
  staticKeys : KeyPair
  /-- The certificate of its static key. -/
  certificate : CertificateMessage
  /-- How far it has come. -/
  phase : Responder.Phase
  deriving DecidableEq

namespace Responder

/-- The name of a phase. -/
def Phase.name : Phase → String
  | awaitingFirstMessage => "AwaitingFirstMessage"
  | established _ _ _ _ => "Established"
  | consumed => "Consumed"
  | failed => "Failed"

/-- A responder with a certificate. It needs a static key. -/
def make (staticKeys : Option KeyPair) (certificate : CertificateMessage) : Except Fault Responder :=
  match staticKeys with
  | some staticKeys => .ok { staticKeys, certificate, phase := .awaitingFirstMessage }
  | none => .error (.handshake .staticKeyMissing)

/-- Whether the handshake is complete. -/
def isEstablished (r : Responder) : Bool :=
  match r.phase with
  | .established _ _ _ _ => true
  | _ => false

/-- Whether an error occurred. -/
def hasFailed (r : Responder) : Bool :=
  match r.phase with
  | .failed => true
  | _ => false

/-- The responder after an error. -/
def fail (r : Responder) : Responder := { r with phase := .failed }

/-- The part of message 2 behind the fresh key, and what it establishes. -/
def secondMessage (S : Suite) (staticKeys : KeyPair) (certificate : CertificateMessage)
    (ss : SymmetricState) (ephemeral : KeyPair) (remoteEphemeral : Key) (firstPayload : Bytes) :
    Except Fault (Bytes × Phase) := do
  let ss := ss.mixHash S ephemeral.publicKey.toBytes
  let ss ← Handshake.mixAgreement S ss ephemeral.privateKey remoteEphemeral
  let (sealedKey, ss) ← ss.encryptAndHash S staticKeys.publicKey.toBytes
  let ss ← Handshake.mixAgreement S ss staticKeys.privateKey remoteEphemeral
  let (sealedCertificate, ss) ← ss.encryptAndHash S certificate.encode
  let (c₁, c₂) := (ss.split S).1
  return (ephemeral.publicKey.toBytes ++ sealedKey ++ sealedCertificate,
    .established c₂ c₁ ss.hash firstPayload)

/-- The answer to message 1, and what it establishes. The fresh key is drawn once message 1 is read. -/
def answer (S : Suite) (staticKeys : KeyPair) (certificate : CertificateMessage) (message : Bytes) :
    Random (Bytes × Phase) := do
  let lift {α : Type} (x : Except Fault α) : Random α := MonadExcept.ofExcept x
  if message.length < Handshake.firstMessageMin ∨ maxNoiseMessage < message.length then
    throw (.handshake .firstLength)
  let remoteEphemeral := FixedBytes.padded 32 message
  let ss := (Handshake.start S).mixHash S remoteEphemeral.toBytes
  let (firstPayload, ss) ← lift (Handshake.decryptOr S .firstPayload ss (message.drop 32))
  let ephemeral ← KeyPair.generate S
  lift (secondMessage S staticKeys certificate ss ephemeral remoteEphemeral firstPayload)

/-- Reads message 1 and writes message 2. Also says what is left of the random bytes. -/
def respond (S : Suite) (r : Responder) (message : Bytes) (entropy : Entropy) :
    Except Fault Bytes × Responder × Entropy :=
  match r.phase with
  | .failed => (.error (.handshake .failed), r, entropy)
  | .awaitingFirstMessage =>
    match answer S r.staticKeys r.certificate message entropy with
    | .ok (reply, phase) entropy => (.ok reply, { r with phase }, entropy)
    | .error e entropy => (.error e, r.fail, entropy)
  | _ => (.error (.handshake .firstProcessed), r.fail, entropy)

/-- Hands out the session, once. -/
def intoSession (r : Responder) (config : SessionConfig) : Except Fault Session × Responder :=
  match r.phase with
  | .failed => (.error (.handshake .failed), r)
  | .established send receive hash _ =>
    match config.validate with
    | .error e => (.error e, r)
    | .ok () =>
      (.ok { role := .responder, sending := .ofCipher send, receiving := .ofCipher receive, hash, config },
       { r with phase := .consumed })
  | _ => (.error (.handshake .notEstablished), r)

/-- The payload of message 1. -/
def firstMessagePayload (r : Responder) : Except Fault Bytes :=
  match r.phase with
  | .established _ _ _ payload => .ok payload
  | _ => .error (.handshake .notEstablished)

/-- The hash of the handshake. -/
def handshakeHash (r : Responder) : Except Fault Digest :=
  match r.phase with
  | .established _ _ hash _ => .ok hash
  | _ => .error (.handshake .notEstablished)

end Responder

end Stratum
