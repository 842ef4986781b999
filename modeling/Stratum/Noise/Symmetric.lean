import Stratum.Noise.Cipher

/-!
# Symmetric states

What both sides of a handshake compute alike: a hash of everything sent so far, a chaining key that every
shared secret is mixed into, and a cipher under the key that came out last. Each message is bound to all
before it, since the hash is its associated data.
-/

namespace Stratum

/-- The state of a handshake that both sides share. -/
structure SymmetricState where
  /-- The key that the next secret is mixed into. -/
  chainingKey : Key
  /-- The hash of the handshake so far. -/
  hash : Digest
  /-- The cipher under the current key. -/
  cipher : CipherState
  deriving DecidableEq

namespace SymmetricState

/-- The state at the start of a protocol. A name of up to 32 bytes is the hash itself. -/
def start (S : Suite) (protocolName : Bytes) : SymmetricState :=
  let h := if protocolName.length ≤ 32 then FixedBytes.padded 32 protocolName else S.hash protocolName
  { chainingKey := h, hash := h, cipher := .empty }

/-- Binds data to the handshake. -/
def mixHash (S : Suite) (s : SymmetricState) (data : Bytes) : SymmetricState :=
  { s with hash := S.hash (s.hash.toBytes ++ data) }

/-- Mixes a secret into the keys. -/
def mixKey (S : Suite) (s : SymmetricState) (material : Bytes) : SymmetricState :=
  let (chainingKey, key) := S.derive s.chainingKey material
  { s with chainingKey, cipher := .keyed (.ofKey key) }

/-- Encrypts a text and binds the ciphertext to the handshake. -/
def encryptAndHash (S : Suite) (s : SymmetricState) (text : Bytes) :
    Except Fault (Bytes × SymmetricState) := do
  let (sealed, cipher) ← s.cipher.encrypt S s.hash.toBytes text
  return (sealed, mixHash S { s with cipher } sealed)

/-- Decrypts a ciphertext and binds it to the handshake. One that does not authenticate is not bound. -/
def decryptAndHash (S : Suite) (s : SymmetricState) (sealed : Bytes) :
    Except Fault (Option (Bytes × SymmetricState)) := do
  match ← s.cipher.decrypt S s.hash.toBytes sealed with
  | some (text, cipher) => return some (text, mixHash S { s with cipher } sealed)
  | none => return none

/-- The two ciphers of the session: first the one from initiator to responder. The chaining key is
erased and the cipher is dropped. -/
def split (S : Suite) (s : SymmetricState) : (KeyedCipher × KeyedCipher) × SymmetricState :=
  let (k₁, k₂) := S.derive s.chainingKey []
  ((.ofKey k₁, .ofKey k₂),
   { s with chainingKey := FixedBytes.replicate 32 0, cipher := .empty })

end SymmetricState

end Stratum
