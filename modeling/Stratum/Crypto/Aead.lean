import Stratum.Crypto.ChaCha20
import Stratum.Crypto.Poly1305

/-!
# Authenticated encryption

ChaCha20 with Poly1305. Block 0 of the keystream gives the one-time key of the
tag, the blocks from 1 on encipher the text; the tag covers the associated data, the ciphertext and both
lengths, and stands behind the ciphertext. The nonce is a counter of 64 bits behind four zero bytes.
-/

namespace Stratum.Aead

/-- The number of bytes of a tag. -/
def tagLength : Nat := 16

/-- The nonce of a message number. -/
def nonce (n : UInt64) : FixedBytes 12 :=
  ⟨List.replicate 4 0 ++ Bytes.ofNatLE 8 n.toNat, by simp⟩

/-- The zeros that fill a string up to a multiple of 16 bytes. -/
def padding (bs : Bytes) : Bytes := List.replicate ((16 - bs.length % 16) % 16) 0

/-- The tag of associated data and a ciphertext. -/
def tag (key : Key) (n : UInt64) (ad ciphertext : Bytes) : FixedBytes 16 :=
  let oneTimeKey := FixedBytes.padded 32 (ChaCha20.block key 0 (nonce n))
  Poly1305.tag oneTimeKey
    (ad ++ padding ad ++ (ciphertext ++ padding ciphertext)
      ++ (Bytes.ofNatLE 8 ad.length ++ Bytes.ofNatLE 8 ciphertext.length))

/-- The ciphertext of a text, with its tag behind it. -/
def encrypt (key : Key) (n : UInt64) (ad text : Bytes) : Bytes :=
  let ciphertext := ChaCha20.apply key 1 (nonce n) text
  ciphertext ++ (tag key n ad ciphertext).toBytes

/-- The text of a ciphertext with its tag, if the tag is right. -/
def decrypt? (key : Key) (n : UInt64) (ad sealed : Bytes) : Option Bytes :=
  if sealed.length < tagLength then none
  else
    let ciphertext := sealed.take (sealed.length - tagLength)
    if sealed.drop (sealed.length - tagLength) = (tag key n ad ciphertext).toBytes then
      some (ChaCha20.apply key 1 (nonce n) ciphertext)
    else none

end Stratum.Aead
