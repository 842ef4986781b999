import Stratum.Crypto.Blake2s
import Stratum.Fault

/-!
# Key derivation

HMAC and the key derivation of RFC 5869 over BLAKE2s: `extract` makes a uniform key out of secret
material, `expand` makes as many bytes as needed out of it, block after block.
-/

namespace Stratum.Hkdf

/-- The number of bytes of a digest. -/
def digestLength : Nat := 32

/-- A key of any length as a block of the hash function: hashed if it is longer. -/
def blockKey (key : Bytes) : Bytes :=
  let key := if Blake2s.blockLength < key.length then (Blake2s.hash key).toBytes else key
  key ++ List.replicate (Blake2s.blockLength - key.length) 0

/-- The authentication code of a text under a key. -/
def hmac (key text : Bytes) : Digest :=
  let inner := Blake2s.hash ((blockKey key).map (· ^^^ 0x36) ++ text)
  Blake2s.hash ((blockKey key).map (· ^^^ 0x5C) ++ inner.toBytes)

/-- The uniform key of a salt and secret material. -/
def extract (salt material : Bytes) : Digest := hmac salt material

/-- `n` blocks of output from block number `i` on. Each depends on the block before it, on the purpose
and on its number. -/
def blocks (key : Digest) (info : Bytes) : (n i : Nat) → (previous : Bytes) → Bytes
  | 0, _, _ => []
  | n + 1, i, previous =>
    let block := (hmac key.toBytes (previous ++ info ++ [UInt8.ofNat i])).toBytes
    block ++ blocks key info n (i + 1) block

/-- The greatest output: 255 blocks. -/
def maxLength : Nat := 255 * digestLength

/-- The first `length` bytes of output for a purpose. -/
def expand (key : Digest) (info : Bytes) (length : Nat) : Except Fault Bytes :=
  if length ≤ maxLength then
    .ok ((blocks key info ((length + digestLength - 1) / digestLength) 1 []).take length)
  else .error (.key .derivationLength)

end Stratum.Hkdf
