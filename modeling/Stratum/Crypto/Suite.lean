import Stratum.Crypto.AeadBuffers
import Stratum.Crypto.Ed25519
import Stratum.Crypto.Hkdf
import Stratum.Crypto.X25519

/-!
# Cipher suites

The primitives that handshake, certificates and sessions are built on. They are a parameter of those
layers: what a layer promises follows from what the suite promises. `standard` is the suite that the
protocol uses.
-/

namespace Stratum

/-- The cryptographic primitives of a connection. -/
structure Suite where
  /-- Encrypts a text under a key, a message number and associated data. -/
  encrypt : Key → UInt64 → (ad text : Bytes) → Bytes
  /-- Decrypts what `encrypt` made, and refuses everything else. -/
  decrypt? : Key → UInt64 → (ad sealed : Bytes) → Option Bytes
  /-- The digest of a text. -/
  hash : Bytes → Digest
  /-- Two keys derived from a key and secret material. -/
  derive : Key → (material : Bytes) → Key × Key
  /-- The private key made of random bytes. -/
  privateKey : Key → Key
  /-- The public key of a private key. -/
  publicKey : Key → Key
  /-- The secret shared with the owner of a public key; some public keys give none. -/
  agree : (key peer : Key) → Option Key
  /-- The public key of a private signing key. -/
  signingPublicKey : Key → Key
  /-- The signature of a text. -/
  sign : Key → Bytes → Signature
  /-- Whether a signature of a text is right under a public key. -/
  verify : Key → Bytes → Signature → Bool

namespace Suite

/-- Encrypts a text that is given to the cipher in buffers. -/
def sealText (S : Suite) (key : Key) (n : UInt64) (ad text : Bytes) : Except Aead.BufferFault Bytes :=
  if Aead.Takes ad ∧ Aead.Takes text then .ok (S.encrypt key n ad text) else .error .tooLarge

/-- Decrypts what is given to the cipher in buffers. What is too short for a tag is not given to it. -/
def openSealed (S : Suite) (key : Key) (n : UInt64) (ad sealed : Bytes) :
    Except Aead.BufferFault (Option Bytes) :=
  if sealed.length < Aead.tagLength then .ok none
  else if Aead.Takes ad ∧ Aead.Takes (sealed.take (sealed.length - Aead.tagLength)) then
    .ok (S.decrypt? key n ad sealed)
  else .error .tooLarge

/-- Two keys out of a key and secret material: the first 64 bytes of the expansion of what is extracted. -/
def deriveKeys (key : Key) (material : Bytes) : Key × Key :=
  let output := Hkdf.blocks (Hkdf.extract key.toBytes material) [] 2 1 []
  (FixedBytes.padded 32 output, FixedBytes.padded 32 (output.drop 32))

/-- X25519, ChaCha20 with Poly1305, BLAKE2s and Ed25519. -/
def standard : Suite where
  encrypt := Aead.encrypt
  decrypt? := Aead.decrypt?
  hash := Blake2s.hash
  derive := deriveKeys
  privateKey := X25519.clamp
  publicKey := X25519.publicKey
  agree := X25519.agree
  signingPublicKey := Ed25519.publicKey
  sign := Ed25519.sign
  verify := Ed25519.verify

end Suite

end Stratum
