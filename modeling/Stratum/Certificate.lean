import Stratum.Config
import Stratum.KeyPair
import Stratum.Wire.Decode

/-!
# Certificates

A certificate says that an authority vouches for a static key during a window of time. What is signed is
the whole certificate, the key included; what travels is everything but the key, which the other side
learns in the handshake.
-/

namespace Stratum

/-- A static key with the window of time in which it is valid. -/
structure Certificate where
  /-- The version of the certificate. -/
  version : UInt16
  /-- The first second of the window. -/
  validFrom : UInt32
  /-- The first second behind the window. -/
  notValidAfter : UInt32
  /-- The key. -/
  staticKey : Key
  /-- The window is not empty. -/
  validFrom_lt : validFrom < notValidAfter
  deriving DecidableEq

namespace Certificate

/-- The certificate with the given parts, if its window is not empty. -/
def make (version : UInt16) (validFrom notValidAfter : UInt32) (staticKey : Key) :
    Except Fault Certificate :=
  if h : validFrom < notValidAfter then .ok ⟨version, validFrom, notValidAfter, staticKey, h⟩
  else .error (.certificate .windowReversed)

/-- Whether a time is inside the window. -/
def isValidAt (c : Certificate) (now : UInt32) : Bool := c.validFrom ≤ now && now < c.notValidAfter

/-- The 42 bytes that the authority signs. -/
def signedBytes (c : Certificate) : Bytes :=
  Bytes.ofNatLE 2 c.version.toNat ++ Bytes.ofNatLE 4 c.validFrom.toNat
    ++ Bytes.ofNatLE 4 c.notValidAfter.toNat ++ c.staticKey.toBytes

/-- The number of signed bytes. -/
def signedLength : Nat := 2 + 4 + 4 + 32

end Certificate

/-- What travels of a certificate: everything but the key. -/
structure CertificateMessage where
  /-- The version of the certificate. -/
  version : UInt16
  /-- The first second of the window. -/
  validFrom : UInt32
  /-- The first second behind the window. -/
  notValidAfter : UInt32
  /-- The authority's signature. -/
  signature : Signature
  deriving DecidableEq

namespace CertificateMessage

/-- The formats of the parts. -/
def layout : List WireFormat := [.u16, .u32, .u32, .signature]

/-- The number of bytes of a certificate that travels. -/
def encodedLength : Nat := 2 + 4 + 4 + 64

/-- The 74 bytes of a certificate that travels. -/
def encode (m : CertificateMessage) : Bytes :=
  Bytes.ofNatLE 2 m.version.toNat ++ Bytes.ofNatLE 4 m.validFrom.toNat
    ++ Bytes.ofNatLE 4 m.notValidAfter.toNat ++ m.signature.toBytes

/-- The parts of a byte string that holds nothing else. -/
def decodeParts : Decoder (Fields layout) := do
  let v ← Fields.decode layout
  Decoder.expectEnd
  return v

/-- The certificate that a byte string writes. -/
def decode (bs : Bytes) : Except Fault CertificateMessage :=
  match decodeParts (Cursor.ofBytes bs) with
  | .ok (version, validFrom, notValidAfter, signature, ()) _ =>
    .ok { version, validFrom, notValidAfter, signature }
  | .error cause _ => .error (.codec cause)

/-- The certificate as it travels, signed by an authority. -/
def sign (S : Suite) (authority : AuthorityKeyPair) (c : Certificate) : CertificateMessage where
  version := c.version
  validFrom := c.validFrom
  notValidAfter := c.notValidAfter
  signature := S.sign authority.privateKey c.signedBytes

/-- The end of a window that starts now: the greatest time there is, if the sum is greater. -/
def windowEnd (now validity : UInt32) : UInt32 :=
  if 0xFFFFFFFF - now < validity then 0xFFFFFFFF else now + validity

/-- Issues a certificate for a static key, valid from now on. -/
def issue (S : Suite) (authority : AuthorityKeyPair) (staticKey : Key) (config : CertificateConfig)
    (now : UInt32) : Except Fault CertificateMessage := do
  config.validate
  let c ← Certificate.make config.version now (windowEnd now config.validity) staticKey
  return sign S authority c

/-- The certificate of a static key, if the authority signed it and now is inside its window. -/
def verify (S : Suite) (authority staticKey : Key) (m : CertificateMessage) (now : UInt32) :
    Except Fault Certificate :=
  if h : m.validFrom < m.notValidAfter then
    let c : Certificate := ⟨m.version, m.validFrom, m.notValidAfter, staticKey, h⟩
    if S.verify authority c.signedBytes m.signature then
      if c.isValidAt now then .ok c else .error (.certificate .outsideWindow)
    else .error (.certificate .signature)
  else .error (.certificate .windowEmpty)

end CertificateMessage

end Stratum
