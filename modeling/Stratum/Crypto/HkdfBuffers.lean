import Stratum.Crypto.Hkdf

/-!
# Key derivation in buffers

The expansion of a key as a loop that writes into a buffer of the caller. Each round computes one code. Its
text is put together in a buffer of its own, in which the first round leaves out the code of the round before
it, and the last round copies no more of its code than is missing.

The rounds are numbered in one byte. With the greatest output the number behind the last round is zero again,
so it matters that no round is left then.
-/

namespace Stratum

/-- Copies bytes into a buffer, over what is there from a place on. -/
def Bytes.overwrite (buffer : Bytes) (place : Nat) (bytes : Bytes) : Bytes :=
  buffer.take place ++ bytes ++ buffer.drop (place + bytes.length)

namespace Hkdf

/-- What there is between two rounds. -/
structure Expansion where
  /-- The buffer of the caller. -/
  output : Bytes
  /-- How much of it is written. -/
  done : Nat
  /-- The buffer for the text of a code. -/
  text : Bytes
  /-- The memory for a code. -/
  code : Bytes
  /-- How much of the code goes into the next text. -/
  codeLength : Nat
  /-- The number of the next round. -/
  number : UInt8

namespace Expansion

/-- Before the first round. There is no code yet, and its memory holds what it held. -/
def start (memory : Digest) (info : Bytes) (length : Nat) : Expansion where
  output := List.replicate length 0
  done := 0
  text := List.replicate (digestLength + info.length + 1) 0
  code := memory.toBytes
  codeLength := 0
  number := 1

/-- The buffer for the text of a code, with the text of the next one in front: the code before it as far as there
is one, the purpose, and the number of the round. -/
def nextText (info : Bytes) (s : Expansion) : Bytes :=
  let text := s.text.overwrite 0 (s.code.take s.codeLength)
  let text := if info = [] then text else text.overwrite s.codeLength info
  text.overwrite (s.codeLength + info.length) [s.number]

/-- One round on the way to `length` bytes. -/
def round (key : Digest) (info : Bytes) (length : Nat) (s : Expansion) : Expansion :=
  let text := s.nextText info
  let code := (hmac key.toBytes (text.take (s.codeLength + info.length + 1))).toBytes
  let count := if length - s.done < digestLength then length - s.done else digestLength
  { output := s.output.overwrite s.done (code.take count)
    done := s.done + count
    text := text
    code := code
    codeLength := digestLength
    number := s.number + 1 }

/-- Rounds until all is written: the numbers that they have, and the output. -/
def run (key : Digest) (info : Bytes) (length : Nat) (s : Expansion) : List UInt8 × Bytes :=
  if s.done < length then
    let rest := run key info length (s.round key info length)
    (s.number :: rest.1, rest.2)
  else ([], s.output)
termination_by length - s.done
decreasing_by
  have hcount : 0 < digestLength := by decide
  simp only [round]
  split <;> omega

end Expansion

/-- The first `length` bytes of output for a purpose, with the numbers of the rounds. -/
def expandInBuffers (memory key : Digest) (info : Bytes) (length : Nat) :
    Except Fault (List UInt8 × Bytes) :=
  if length ≤ maxLength then .ok (Expansion.run key info length (.start memory info length))
  else .error (.key .derivationLength)

/-- The two keys that a handshake derives from its chaining key and secret material: an output without a
purpose, cut in two. -/
def twoKeys (memory : Digest) (chainingKey : Key) (material : Bytes) : Except Fault (Key × Key) := do
  let (_, output) ← expandInBuffers memory (extract chainingKey.toBytes material) [] (2 * digestLength)
  return (FixedBytes.padded 32 (output.take digestLength),
    FixedBytes.padded 32 ((output.drop digestLength).take digestLength))

end Hkdf

end Stratum
