import Stratum.Certificate
import Stratum.Noise.Symmetric
import Stratum.Session

/-!
# The handshake

The initiator sends a fresh public key, and may add a payload in the clear. The responder answers with a
fresh public key, its static public key and its certificate, the latter two encrypted under secrets that
only the two sides share. Nothing more is sent: both sides then have the two ciphers of the session.

The responder's message has 170 bytes: 32 of a key, 48 of an encrypted key and 90 of an encrypted
certificate.
-/

namespace Stratum.Handshake

/-- The name of the protocol, which both sides hash first. -/
def protocolName : String := "Noise_NX_25519_ChaChaPoly_BLAKE2s"

/-- The least message 1: a public key. -/
def firstMessageMin : Nat := 32

/-- The number of bytes of an encrypted key. -/
def sealedKeyLength : Nat := 32 + Aead.tagLength

/-- The number of bytes of an encrypted certificate. -/
def sealedCertificateLength : Nat := CertificateMessage.encodedLength + Aead.tagLength

/-- The number of bytes of message 2. -/
def secondMessageLength : Nat := 32 + sealedKeyLength + sealedCertificateLength

/-- The state that both sides start from: the name of the protocol and an empty prologue. -/
def start (S : Suite) : SymmetricState :=
  (SymmetricState.start S (Utf8.ofString protocolName)).mixHash S []

/-- The state with the secret that two keys agree on mixed in. -/
def mixAgreement (S : Suite) (ss : SymmetricState) (key peer : Key) : Except Fault SymmetricState :=
  match S.agreement key peer with
  | .ok secret => .ok (ss.mixKey S secret.toBytes)
  | .error cause => .error (.handshake (.agreement cause))

/-- Decrypts a part of a message, or fails with a reason. -/
def decryptOr (S : Suite) (cause : HandshakeFault) (ss : SymmetricState) (sealed : Bytes) :
    Except Fault (Bytes × SymmetricState) := do
  match ← ss.decryptAndHash S sealed with
  | some r => return r
  | none => throw (.handshake cause)

end Stratum.Handshake
