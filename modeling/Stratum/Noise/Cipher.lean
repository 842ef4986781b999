import Stratum.KeyPair

/-!
# Ciphers with a message counter

A keyed cipher encrypts the messages of one direction one after another: each takes the next nonce, and
none is used twice. The last nonce is reserved for making the next key, so a cipher that has reached it
refuses to go on. A message that is too long is refused too, and takes no nonce. A cipher state may also have
no key yet; then messages pass as they are.
-/

namespace Stratum

/-- The nonce that no message takes. -/
def reservedNonce : UInt64 := 0xFFFFFFFFFFFFFFFF

/-- A key with the nonce of the next message. -/
structure KeyedCipher where
  /-- The key. -/
  key : Key
  /-- The nonce of the next message. -/
  nonce : UInt64
  deriving DecidableEq

namespace KeyedCipher

/-- A key that has not been used. -/
def ofKey (key : Key) : KeyedCipher := ⟨key, 0⟩

/-- Encrypts the next message. -/
def encrypt (S : Suite) (c : KeyedCipher) (ad text : Bytes) : Except Fault (Bytes × KeyedCipher) :=
  if c.nonce = reservedNonce then .error (.session .sendNonce)
  else
    match S.sealText c.key c.nonce ad text with
    | .ok sealed => .ok (sealed, { c with nonce := c.nonce + 1 })
    | .error cause => .error (.cipher cause)

/-- Decrypts the next message. One that does not authenticate takes no nonce. -/
def decrypt (S : Suite) (c : KeyedCipher) (ad sealed : Bytes) :
    Except Fault (Option (Bytes × KeyedCipher)) :=
  if c.nonce = reservedNonce then .error (.session .receiveNonce)
  else
    match S.openSealed c.key c.nonce ad sealed with
    | .ok (some text) => .ok (some (text, { c with nonce := c.nonce + 1 }))
    | .ok none => .ok none
    | .error cause => .error (.cipher cause)

/-- The key that follows a key: the first 32 bytes of the encryption of 32 zeros, which are not too long, under
the reserved nonce. -/
def nextKey (S : Suite) (key : Key) : Key :=
  FixedBytes.padded 32 (S.encrypt key reservedNonce [] (List.replicate 32 0))

/-- Goes on with the next key. The nonce is kept. -/
def rekey (S : Suite) (c : KeyedCipher) : KeyedCipher := { c with key := nextKey S c.key }

end KeyedCipher

/-- A cipher that may have no key yet. -/
inductive CipherState where
  /-- No key. The nonce plays no part. -/
  | unkeyed (nonce : UInt64)
  /-- A key. -/
  | keyed (cipher : KeyedCipher)
  deriving DecidableEq

namespace CipherState

/-- The state before there is a key. -/
def empty : CipherState := .unkeyed 0

/-- The state with a key given as bytes. -/
def ofKeyBytes (bs : Bytes) : Except Fault CipherState :=
  return .keyed (.ofKey (← Key.ofPrivateBytes .cipherLength bs))

/-- Whether there is a key. -/
def hasKey : CipherState → Bool
  | unkeyed _ => false
  | keyed _ => true

/-- The nonce of the next message. -/
def nonce : CipherState → UInt64
  | unkeyed n => n
  | keyed c => c.nonce

/-- Sets the nonce of the next message. -/
def setNonce (n : UInt64) : CipherState → CipherState
  | unkeyed _ => unkeyed n
  | keyed c => keyed { c with nonce := n }

/-- Encrypts the next message, or passes it as it is. -/
def encrypt (S : Suite) (c : CipherState) (ad text : Bytes) : Except Fault (Bytes × CipherState) :=
  match c with
  | unkeyed n => .ok (text, unkeyed n)
  | keyed c => do
    let (sealed, c) ← c.encrypt S ad text
    return (sealed, keyed c)

/-- Decrypts the next message, or passes it as it is. -/
def decrypt (S : Suite) (c : CipherState) (ad sealed : Bytes) :
    Except Fault (Option (Bytes × CipherState)) :=
  match c with
  | unkeyed n => .ok (some (sealed, unkeyed n))
  | keyed c => do
    match ← c.decrypt S ad sealed with
    | some (text, c) => return some (text, keyed c)
    | none => return none

/-- Goes on with the next key. -/
def rekey (S : Suite) : CipherState → Except Fault CipherState
  | unkeyed _ => .error (.session .rekeyUnkeyed)
  | keyed c => .ok (keyed (c.rekey S))

end CipherState

end Stratum
