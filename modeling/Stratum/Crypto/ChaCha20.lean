import Stratum.Crypto.Block

/-!
# ChaCha20

The stream cipher of the protocol. A key, a nonce and a block counter give 64 bytes of keystream; a text is
enciphered and deciphered by the same exclusive or with the keystream.
-/

namespace Stratum.ChaCha20

/-- The sixteen words that a block is computed from. -/
abbrev State := Block UInt32 16

/-- Rotates a word to the left. -/
def rotateLeft (x n : UInt32) : UInt32 := (x <<< n) ||| (x >>> (32 - n))

/-- Mixes four words of the state. -/
def quarterRound (s : State) (i j k l : Nat) : State :=
  let a := s.get i + s.get j
  let d := rotateLeft (s.get l ^^^ a) 16
  let c := s.get k + d
  let b := rotateLeft (s.get j ^^^ c) 12
  let a := a + b
  let d := rotateLeft (d ^^^ a) 8
  let c := c + d
  let b := rotateLeft (b ^^^ c) 7
  (((s.put i a).put j b).put k c).put l d

/-- A round on the columns and a round on the diagonals. -/
def doubleRound (s : State) : State :=
  let s := quarterRound s 0 4 8 12
  let s := quarterRound s 1 5 9 13
  let s := quarterRound s 2 6 10 14
  let s := quarterRound s 3 7 11 15
  let s := quarterRound s 0 5 10 15
  let s := quarterRound s 1 6 11 12
  let s := quarterRound s 2 7 8 13
  quarterRound s 3 4 9 14

/-- The bytes of `expand 32-byte k`, which fill the first four words. -/
def constants : Bytes :=
  [0x65, 0x78, 0x70, 0x61, 0x6e, 0x64, 0x20, 0x33, 0x32, 0x2d, 0x62, 0x79, 0x74, 0x65, 0x20, 0x6b]

/-- The state of a block: constants, key, counter and nonce. -/
def initial (key : Key) (counter : UInt32) (nonce : FixedBytes 12) : State :=
  .ofBytes 16 (constants ++ key.toBytes ++ Bytes.ofNatLE 4 counter.toNat ++ nonce.toBytes)

/-- The 64 bytes of keystream of a block. -/
def block (key : Key) (counter : UInt32) (nonce : FixedBytes 12) : Bytes :=
  let s := initial key counter nonce
  let t := Nat.repeat doubleRound 10 s
  Block.toBytes (Vector.zipWith (· + ·) t s)

/-- The keystream of `n` blocks from a counter on. -/
def keystream (key : Key) (counter : UInt32) (nonce : FixedBytes 12) (n : Nat) : Bytes :=
  (List.range n).flatMap fun i => block key (counter + UInt32.ofNat i) nonce

/-- Enciphers or deciphers a text. -/
def apply (key : Key) (counter : UInt32) (nonce : FixedBytes 12) (text : Bytes) : Bytes :=
  Bytes.xor text (keystream key counter nonce ((text.length + 63) / 64))

end Stratum.ChaCha20
