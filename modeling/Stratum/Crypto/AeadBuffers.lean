import Stratum.Crypto.Aead
import Stratum.ErrorKind

/-!
# Authenticated encryption of buffers

Sealing and opening as calls of a cipher that takes a message in buffers: the associated data first, then
the text or the ciphertext, then the tag. A call takes a buffer of at most `2 ^ 31 - 1` bytes, and an empty
buffer is not passed on at all.

Opening writes into a buffer of the caller. What the buffer held is gone at the start, and the text is there
at the end, but only if the tag is right.
-/

namespace Stratum.Aead

/-! ### Faults -/

/-- Why a call of the cipher fails. -/
inductive BufferFault where
  /-- A buffer has more bytes than a call takes. -/
  | tooLarge
  /-- The cipher gave another number of bytes than it took. -/
  | lengthMismatch
  deriving DecidableEq, Repr

namespace BufferFault

/-- The kind of a fault. -/
def kind : BufferFault → ErrorKind
  | tooLarge => .invalidArgument
  | lengthMismatch => .cryptoFailure

/-- What went wrong, in words. -/
def text : BufferFault → String
  | tooLarge => "buffer too large for OpenSSL"
  | lengthMismatch => "ciphertext length mismatch"

end BufferFault

/-! ### The cipher between two calls -/

/-- The most bytes that a call takes. -/
def bufferBound : Nat := 0x7FFFFFFF

/-- A call takes the buffer. -/
def Takes (buffer : Bytes) : Prop := buffer.length ≤ bufferBound

instance (buffer : Bytes) : Decidable (Takes buffer) := inferInstanceAs (Decidable (_ ≤ _))

/-- A cipher that has got a part of its message. -/
structure Context where
  /-- The key. -/
  key : Key
  /-- The number of the message. -/
  number : UInt64
  /-- The associated data so far. -/
  data : Bytes
  /-- The ciphertext so far, given or taken. -/
  ciphertext : Bytes

namespace Context

/-- A cipher that has got nothing yet. -/
def start (key : Key) (n : UInt64) : Context := { key, number := n, data := [], ciphertext := [] }

/-- The keystream for the next bytes of the message: block 0 is kept for the tag, and the bytes used so far
are gone. -/
def keystream (c : Context) (count : Nat) : Bytes :=
  (ChaCha20.keystream c.key 1 (nonce c.number) ((c.ciphertext.length + count + 63) / 64)).drop
    c.ciphertext.length

/-- Checks the length of a buffer. -/
def checkLength (buffer : Bytes) : Except BufferFault Unit :=
  if Takes buffer then .ok () else .error .tooLarge

/-- Takes associated data. -/
def authenticate (c : Context) (buffer : Bytes) : Except BufferFault Context := do
  if buffer = [] then return c
  checkLength buffer
  return { c with data := c.data ++ buffer }

/-- Takes text and gives its ciphertext. -/
def encipher (c : Context) (buffer : Bytes) : Except BufferFault (Bytes × Context) := do
  if buffer = [] then return ([], c)
  checkLength buffer
  let output := Bytes.xor buffer (c.keystream buffer.length)
  return (output, { c with ciphertext := c.ciphertext ++ output })

/-- Takes ciphertext and gives its text. -/
def decipher (c : Context) (buffer : Bytes) : Except BufferFault (Bytes × Context) := do
  if buffer = [] then return ([], c)
  checkLength buffer
  return (Bytes.xor buffer (c.keystream buffer.length), { c with ciphertext := c.ciphertext ++ buffer })

/-- The tag of all that the cipher got. -/
def tag (c : Context) : FixedBytes 16 := Aead.tag c.key c.number c.data c.ciphertext

end Context

/-! ### Sealing and opening -/

/-- Seals a text. -/
def sealText (key : Key) (n : UInt64) (ad text : Bytes) : Except BufferFault Bytes := do
  let c ← (Context.start key n).authenticate ad
  let (ciphertext, c) ← c.encipher text
  if ciphertext.length ≠ text.length then throw .lengthMismatch
  return ciphertext ++ c.tag.toBytes

/-- Opens what was sealed, into a buffer of the caller. Whether the tag was right is the result. -/
def openSealed (key : Key) (n : UInt64) (ad sealed : Bytes) : EStateM BufferFault Bytes Bool := do
  set ([] : Bytes)
  if sealed.length < tagLength then return false
  let size := sealed.length - tagLength
  let c ← MonadExcept.ofExcept ((Context.start key n).authenticate ad)
  let (text, c) ← MonadExcept.ofExcept (c.decipher (sealed.take size))
  if sealed.drop size = c.tag.toBytes then
    set text
    return true
  else return false

end Stratum.Aead
