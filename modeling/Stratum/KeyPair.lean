import Stratum.Crypto.Suite
import Stratum.Entropy

/-!
# Key pairs

Two kinds of key pairs: those of a key agreement, either made for one handshake or kept for the life of a
pool, and those of an authority, which signs certificates.
-/

namespace Stratum

/-- The private key that a byte string holds. -/
def Key.ofPrivateBytes (cause : KeyFault) (bs : Bytes) : Except Fault Key :=
  match FixedBytes.ofBytes? bs with
  | some key => .ok key
  | none => .error (.key cause)

/-- The secret that two keys agree on, or the reason why there is none. -/
def Suite.agreement (S : Suite) (key peer : Key) : Except KeyFault Key :=
  match S.agree key peer with
  | some secret => .ok secret
  | none => .error .agreement

/-- A key pair for key agreement. -/
structure KeyPair where
  /-- The private key. -/
  privateKey : Key
  /-- The public key. -/
  publicKey : Key
  deriving DecidableEq

namespace KeyPair

/-- The pair of a private key. -/
def ofPrivate (S : Suite) (key : Key) : KeyPair := ⟨key, S.publicKey key⟩

/-- A new pair. -/
def generate (S : Suite) : Random KeyPair :=
  return ofPrivate S (S.privateKey (← Random.key))

/-- The pair that a pool keeps, of the bytes of its private key, which are not all zeros. -/
def ofStaticBytes (S : Suite) (bs : Bytes) : Except Fault KeyPair := do
  let key ← Key.ofPrivateBytes .staticLength bs
  if key = FixedBytes.replicate 32 0 then throw (.key .staticZero)
  return ofPrivate S key

end KeyPair

/-- The signing keys of an authority. -/
structure AuthorityKeyPair where
  /-- The private key. -/
  privateKey : Key
  /-- The public key. -/
  publicKey : Key
  deriving DecidableEq

namespace AuthorityKeyPair

/-- The pair of a private key. -/
def ofPrivate (S : Suite) (key : Key) : AuthorityKeyPair := ⟨key, S.signingPublicKey key⟩

/-- A new pair. -/
def generate (S : Suite) : Random AuthorityKeyPair :=
  return ofPrivate S (← Random.key)

/-- The pair of the bytes of a private key. -/
def ofPrivateBytes (S : Suite) (bs : Bytes) : Except Fault AuthorityKeyPair :=
  return ofPrivate S (← Key.ofPrivateBytes .authorityLength bs)

end AuthorityKeyPair

end Stratum
